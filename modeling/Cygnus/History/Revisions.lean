import Cygnus.History.Steps
import Cygnus.Review.CreateDraft

/-! The revisions of a page as its complete history. -/

namespace Cygnus.History

open Wiki Review Text Result Machine

/-- Every page has one revision for each of its versions, the last of them holds its content, and no
identity has two pages. -/
structure Complete (env : Platform) (db : Database) : Prop where
  versions : ∀ page ∈ db.pages, (history db page.id).map Prod.fst = List.range' 1 page.version
  latest : ∀ page ∈ db.pages, (page.version, page.contentMd) ∈ history db page.id
  unique : ∀ page ∈ db.pages, ∀ other ∈ db.pages,
    pageIdentity env page = pageIdentity env other → page = other

/-- The call lowers the version of no page. -/
def VersionsGrow (env : Platform) (db : Database) (call : Call) : Prop :=
  ∀ pageId page page', db.pages.get pageId = some page →
    (step (perform env) db call).pages.get pageId = some page' → page.version ≤ page'.version

/-- The page is there after every call. -/
def Stays (env : Platform) (pageId : Uuid) : Database → List Call → Prop :=
  Meets (perform env) fun db call => ((step (perform env) db call).pages.get pageId).isSome

/-- The history of a run: complete in every state, with versions that never decrease, so that a
rollback finds what the page held at any version it has had. -/
structure Faithful (env : Platform) (calls : List Call) : Prop where
  complete : ∀ first rest, calls = first ++ rest → Complete env (run (perform env) {} first)
  grows : Meets (perform env) (VersionsGrow env) {} calls
  restores : ∀ first middle rest, calls = first ++ middle ++ rest → ∀ pageId page actorId,
    (run (perform env) {} first).pages.get pageId = some page →
    Stays env pageId (run (perform env) {} first) middle →
    ∃ db', rollbackToRevision env (run (perform env) {} (first ++ middle)) pageId page.version
        actorId = .ok db' ∧ (db'.pages.get pageId).map WikiPage.contentMd = some page.contentMd

variable {env : Platform} {db db' : Database} {page : WikiPage} {pageId : Uuid}

theorem stored_empty (env : Platform) : Stored env {} := by
  refine ⟨⟨List.nodup_nil, ?_, ?_, ?_, ?_⟩, ?_, ?_, ?_⟩ <;> intro x hx <;> cases hx

theorem perform_stored (hlower : LawfulLower env) : Preserves (perform env) Plain (Stored env) := by
  intro s s' call hs hplain h
  exact (perform_effect hlower hs hplain h).stored hs

theorem step_effect {call : Call} (hlower : LawfulLower env) (hs : Stored env db)
    (hplain : Plain db call) : Effect env db (step (perform env) db call) := by
  rcases step_cases (perform env) db call with heq | hok
  · rw [heq]
    exact .refl db
  · exact perform_effect hlower hs hplain hok

theorem complete_of_stored (hs : Stored env db) : Complete env db :=
  ⟨hs.versions, hs.latest, hs.wellFormed.unique⟩

/-- What is recorded of a page is recorded as long as the page stays. -/
theorem run_history {calls : List Call} (hlower : LawfulLower env) (hs : Stored env db)
    (hplain : Meets (perform env) Plain db calls) (hpage : (db.pages.get pageId).isSome)
    (hstays : Stays env pageId db calls) :
    ((run (perform env) db calls).pages.get pageId).isSome ∧
      history db pageId <+: history (run (perform env) db calls) pageId := by
  induction calls generalizing db with
  | nil => exact ⟨hpage, List.prefix_rfl⟩
  | cons call calls ih =>
    have heffect := step_effect hlower hs hplain.1
    obtain ⟨page, hpage⟩ := Option.isSome_iff_exists.mp hpage
    obtain ⟨page', hpage'⟩ := Option.isSome_iff_exists.mp hstays.1
    obtain ⟨hlast, hkept⟩ := ih (heffect.stored hs) hplain.2 hstays.1 hstays.2
    exact ⟨hlast, (heffect.grows hs hpage hpage').2.trans hkept⟩

section Rollback

theorem rollback_restores (hs : Stored env db) (hget : db.pages.get pageId = some page)
    {version : Nat} {contentMd : String} (hentry : (version, contentMd) ∈ history db pageId)
    (actorId : Uuid) : ∃ db', rollbackToRevision env db pageId version actorId = .ok db' ∧
      (db'.pages.get pageId).map WikiPage.contentMd = some contentMd := by
  have hpage := Table.get_mem hget
  have hid : page.id = pageId := Table.get_key hget
  obtain ⟨revision, hrevision, hfind⟩ : ∃ revision, (revision.version, revision.contentMd) =
      (version, contentMd) ∧ db.revisions.find? (fun r => r.pageId = pageId && r.version = version) =
        some revision := by
    cases hfind : db.revisions.find? (fun r => r.pageId = pageId && r.version = version) with
    | none =>
      obtain ⟨recorded, hrecorded, hown, heq⟩ := mem_history.mp hentry
      rw [Prod.mk.injEq] at heq
      rw [List.find?_eq_none] at hfind
      exact absurd (by simp [hown, heq.1]) (hfind recorded hrecorded)
    | some revision =>
      have hfound := List.find?_some hfind
      simp only [Bool.and_eq_true, decide_eq_true_eq] at hfound
      refine ⟨revision, ?_, rfl⟩
      have hmine : (revision.version, revision.contentMd) ∈ history db pageId :=
        mem_history.mpr ⟨revision, List.mem_of_find?_eq_some hfind, hfound.1, rfl⟩
      -- versions are distinct, so the entry for this version is the recorded one
      have hnodup : ((history db pageId).map Prod.fst).Nodup := by
        rw [← hid, hs.versions page hpage]
        exact List.nodup_range'
      exact List.inj_on_of_nodup_map hnodup hmine hentry hfound.2
  obtain ⟨outcome, db', hwrite, hsome, hcontent⟩ := rewritePage_total hs hpage pageId
    revision.contentMd "rollback" actorId (some s!"rollback to v{version}")
  refine ⟨db', ?_, ?_⟩
  · simp only [rollbackToRevision, bind_ok, fetch_ok]
    refine ⟨page, hget, ?_⟩
    rw [hfind]
    simp only [bind_ok, require_ok, pure_ok]
    exact ⟨(outcome, db'), hwrite, (), hsome, rfl⟩
  · rw [← hid, hcontent]
    exact congrArg (fun entry => some entry.2) hrevision

end Rollback

theorem meets_left {calls first rest : List Call} (heq : calls = first ++ rest)
    (h : Meets (perform env) Plain {} calls) : Meets (perform env) Plain {} first := by
  rw [heq, meets_append] at h
  exact h.1

theorem run_stored {calls : List Call} (hlower : LawfulLower env)
    (hplain : Meets (perform env) Plain {} calls) : Stored env (run (perform env) {} calls) :=
  Preserves.run (perform_stored hlower) (stored_empty env) hplain

theorem run_faithful {calls : List Call} (hlower : LawfulLower env)
    (hplain : Meets (perform env) Plain {} calls) : Faithful env calls := by
  constructor
  · intro first rest heq
    exact complete_of_stored (run_stored hlower (meets_left heq hplain))
  · refine Preserves.meets (perform_stored hlower) ?_ (stored_empty env) hplain
    intro db call hs hplain pageId page page' hpage hpage'
    exact ((step_effect hlower hs hplain).grows hs hpage hpage').1
  · intro first middle rest heq pageId page actorId hpage hstays
    have hboth := meets_left heq hplain
    have hs := run_stored hlower hboth
    rw [meets_append] at hboth
    have hs₁ := run_stored hlower hboth.1
    obtain ⟨hlast, hkept⟩ := run_history hlower hs₁ hboth.2 (by rw [hpage]; rfl) hstays
    rw [← run_append] at hlast hkept
    obtain ⟨current, hcurrent⟩ := Option.isSome_iff_exists.mp hlast
    have hentry := hs₁.latest page (Table.get_mem hpage)
    rw [show page.id = pageId from Table.get_key hpage] at hentry
    exact rollback_restores hs hcurrent (hkept.subset hentry) actorId

section Lowering

theorem toLower_cases (c : Char) : c.toLower = c ∨
    (65 ≤ c.toNat ∧ c.toNat ≤ 90 ∧ c.toLower.toNat = c.toNat + 32) := by
  unfold Char.toLower
  split
  · rename_i h
    right
    have h1 : 65 ≤ c.toNat := UInt32.le_iff_toNat_le.mp h.1
    have h2 : c.toNat ≤ 90 := UInt32.le_iff_toNat_le.mp h.2
    refine ⟨h1, h2, ?_⟩
    show (c.val + 32).toNat = c.toNat + 32
    rw [UInt32.toNat_add]
    have : c.val.toNat = c.toNat := rfl
    rw [this]
    show (c.toNat + 32) % 4294967296 = _
    omega
  · exact .inl rfl

theorem isSpace_toLower (c : Char) : isSpace c.toLower = isSpace c := by
  rcases toLower_cases c with heq | ⟨hlow, hhigh, heq⟩
  · rw [heq]
  · have hleft : isSpace c = false := by
      simp [isSpace]
      omega
    have hright : isSpace c.toLower = false := by
      simp [isSpace, heq]
      omega
    rw [hleft, hright]

theorem toLower_toLower (c : Char) : c.toLower.toLower = c.toLower := by
  rcases toLower_cases c with heq | ⟨hlow, hhigh, heq⟩
  · rw [heq, heq]
  · rcases toLower_cases c.toLower with heq' | ⟨hlow', hhigh', -⟩
    · exact heq'
    · omega

theorem strip_asciiLower (s : String) : strip (asciiLower s) = asciiLower (strip s) := by
  have hspace : isSpace ∘ Char.toLower = isSpace := funext isSpace_toLower
  rw [strip, strip, asciiLower, asciiLower, String.toList_ofList, String.toList_ofList]
  congr 1
  rw [List.rdropWhile, List.rdropWhile, List.dropWhile_map, hspace, ← List.map_reverse,
    List.dropWhile_map, hspace, List.map_reverse]

theorem asciiLower_lawful (sha256 : String → String) (dumps : Json → String)
    (isoformat : Timestamp → String) : LawfulLower ⟨asciiLower, sha256, dumps, isoformat⟩ := by
  constructor
  · intro s
    show asciiLower (strip (asciiLower (strip s))) = asciiLower (strip s)
    rw [strip_asciiLower, strip_strip, asciiLower, asciiLower, String.toList_ofList, List.map_map]
    congr 1
    apply List.map_congr_left
    intro c _
    exact toLower_toLower c
  · show asciiLower "en" = "en"
    decide

end Lowering

/-- A platform whose texts are ASCII. -/
def asciiPlatform : Platform := ⟨asciiLower, id, fun _ => "", fun _ => ""⟩

def newPageCall (pageId : Uuid) (slug contentMd : String) : Call :=
  .writePage pageId { slug := slug, title := some slug, contentMd := contentMd }

theorem edited_page_faithful :
    Faithful asciiPlatform [newPageCall 1 "refunds" "# Refunds",
      .directEditPage 1 9 "# Refunds within 30 days" none, newPageCall 2 "billing" "# Billing",
      .deletePageCascade 2 fun _ => false] :=
  run_faithful (asciiLower_lawful _ _ _) (by decide +kernel)

/-- A page is deleted while another one links to it. -/
def linkedDeletion : List Call :=
  [newPageCall 1 "refunds" "# Refunds", newPageCall 2 "billing" "See [[refunds]].",
    .deletePageCascade 1 fun _ => false]

/-- The text of the linking page changes behind its revision. -/
theorem linkedDeletion_unfaithful : ¬ Faithful asciiPlatform linkedDeletion := by
  intro h
  have hcomplete := h.complete linkedDeletion [] (List.append_nil _).symm
  have hlost : ∃ page ∈ (run (perform asciiPlatform) {} linkedDeletion).pages,
      (page.version, page.contentMd) ∉
        history (run (perform asciiPlatform) {} linkedDeletion) page.id := by
    decide +kernel
  obtain ⟨page, hpage, hlost⟩ := hlost
  exact hlost (hcomplete.latest page hpage)

end Cygnus.History
