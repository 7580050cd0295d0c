import Cygnus.History.Revisions
import Cygnus.Wiki.Wikilinks

/-! The stored links of the wiki beside the links in its texts. -/

namespace Cygnus.History

open Wiki Text Result Machine

inductive LinkCall
  | writePage (pageId : Uuid) (write : PageWrite)
  | appendLog (pageId : Uuid) (ts entry scopeType : String) (scopeId : Option Uuid)
  | deletePageCascade (pageId : Uuid) (held : Uuid → Bool)

variable (env : Platform)

def LinkCall.perform : LinkCall → Database → Transaction Database
  | .writePage pageId write, db => (Wiki.writePage env db pageId write).map Prod.snd
  | .appendLog pageId ts entry scopeType scopeId, db =>
    (Wiki.appendLog env db pageId ts entry scopeType scopeId).map Prod.snd
  | .deletePageCascade pageId held, db => Wiki.deletePageCascade held db pageId

/-- The edges that leave a page are the links of its text, self-links apart. -/
def Mirrors (db : Database) : Prop :=
  ∀ page ∈ db.pages, ∀ target, ⟨page.id, target⟩ ∈ db.links ↔
    target ∈ extractWikilinks page.contentMd ∧ target ≠ page.slug

/-- After a deletion no page of the scope it covers links to the slug of the deleted page. -/
def Unlinks (db : Database) : LinkCall → Prop
  | .deletePageCascade pageId held => ∀ deleted db', db.pages.get pageId = some deleted →
      Wiki.deletePageCascade held db pageId = .ok db' →
      ∀ page ∈ db'.pages, inDeletedScope deleted page →
        deleted.slug ∉ extractWikilinks page.contentMd
  | _ => True

/-- The page is written under its own spelling, or the new text links to neither spelling. -/
def OwnSpelling (page : WikiPage) (slug contentMd : String) : Prop :=
  slug = page.slug ∨
    (slug ∉ extractWikilinks contentMd ∧ page.slug ∉ extractWikilinks contentMd)

/-- The search for references finds the page and every link to the deleted one is in the form that
the cleanup takes out, or there is no such link and nothing to take out. -/
def Clears (deleted page : WikiPage) : Prop :=
  (refersTo deleted page ∧ Linkable deleted.slug ∧
    ∀ t ∈ tokens page.contentMd.length page.contentMd.toList, t.Removable deleted.slug) ∨
  (deleted.slug ∉ extractWikilinks page.contentMd ∧
    (refersTo deleted page → mentions deleted.slug page.contentMd = false))

/-- Where the stored links follow the texts. A write that conflicts or repeats the stored page
changes nothing. -/
def Linked (db : Database) : LinkCall → Prop
  | .writePage _ write => ∀ page ∈ lockPageByIdentity env db.pages (strip write.slug)
      write.scopeType write.scopeId write.language, write.expectedVersion.all (page.version = ·) →
      isExactRetry page write = false → OwnSpelling page (strip write.slug) write.contentMd
  | .appendLog _ ts entry scopeType scopeId =>
      ∀ page ∈ lockPageByIdentity env db.pages logSlug scopeType scopeId none,
      OwnSpelling page logSlug (appendEntry page.contentMd ts entry)
  | .deletePageCascade pageId _ => ∀ deleted ∈ db.pages.get pageId, ∀ page ∈ db.pages,
      page.id ≠ pageId → inDeletedScope deleted page → Clears deleted page

instance (page : WikiPage) (slug contentMd : String) : Decidable (OwnSpelling page slug contentMd) :=
  inferInstanceAs (Decidable (_ ∨ _))

instance (slug : String) : Decidable (Linkable slug) :=
  @instDecidableAnd _ _ (inferInstanceAs (Decidable (Stripped slug))) (List.decidableBAll _ _)

instance (deleted page : WikiPage) : Decidable (Clears deleted page) :=
  inferInstanceAs (Decidable ((_ ∧ _ ∧ _) ∨ (_ ∧ _)))

instance (db : Database) : (call : LinkCall) → Decidable (Linked env db call)
  | .writePage _ write => inferInstanceAs (Decidable (∀ page ∈ lockPageByIdentity env db.pages
      (strip write.slug) write.scopeType write.scopeId write.language, _ → _ → _))
  | .appendLog _ _ _ scopeType scopeId => inferInstanceAs (Decidable
      (∀ page ∈ lockPageByIdentity env db.pages logSlug scopeType scopeId none, _))
  | .deletePageCascade pageId _ => inferInstanceAs (Decidable
      (∀ deleted ∈ db.pages.get pageId, ∀ page ∈ db.pages, _ → _ → _))

/-- What the proof carries along a run. -/
structure LinksStored (db : Database) : Prop where
  keyed : db.pages.Keyed
  mirrors : Mirrors db

variable {env} {db db' : Database} {page : WikiPage} {pageId : Uuid}

section Writes

theorem mem_refreshLinks_iff {links : List WikiLink} {fromSlug contentMd : String} {link : WikiLink} :
    link ∈ refreshLinks links pageId fromSlug contentMd ↔
      (link ∈ links ∧ link.fromPageId ≠ pageId) ∨
      (link.fromPageId = pageId ∧ link.toSlug ∈ extractWikilinks contentMd ∧
        link.toSlug ≠ fromSlug) := by
  simp only [refreshLinks, List.mem_append, List.mem_filter, List.mem_map, decide_eq_true_eq]
  apply or_congr_right
  constructor
  · rintro ⟨target, htarget, rfl⟩
    exact ⟨rfl, htarget⟩
  · rintro ⟨rfl, htarget⟩
    exact ⟨link.toSlug, htarget, rfl⟩

theorem OwnSpelling.targets {slug contentMd target : String} (h : OwnSpelling page slug contentMd) :
    (target ∈ extractWikilinks contentMd ∧ target ≠ slug) ↔
      (target ∈ extractWikilinks contentMd ∧ target ≠ page.slug) := by
  rcases h with rfl | ⟨hslug, hown⟩
  · rfl
  · apply and_congr_right
    intro hmem
    constructor
    · rintro - rfl
      exact hown hmem
    · rintro - rfl
      exact hslug hmem

/-- The rows that a write leaves alone keep their edges. -/
theorem mirrors_other {links : List WikiLink} {fromSlug contentMd target : String}
    (hid : page.id ≠ pageId) :
    (⟨page.id, target⟩ : WikiLink) ∈ refreshLinks links pageId fromSlug contentMd ↔
      (⟨page.id, target⟩ : WikiLink) ∈ links := by
  rw [mem_refreshLinks_iff]
  constructor
  · rintro (⟨hmem, -⟩ | ⟨heq, -⟩)
    · exact hmem
    · exact absurd heq hid
  · exact fun hmem => .inl ⟨hmem, hid⟩

/-- The row that is written gets the edges of its text. -/
theorem mirrors_written {links : List WikiLink} {fromSlug contentMd target : String} :
    (⟨pageId, target⟩ : WikiLink) ∈ refreshLinks links pageId fromSlug contentMd ↔
      target ∈ extractWikilinks contentMd ∧ target ≠ fromSlug := by
  rw [mem_refreshLinks_iff]
  constructor
  · rintro (⟨-, hne⟩ | ⟨-, htarget⟩)
    · exact absurd rfl hne
    · exact htarget
  · exact fun htarget => .inr ⟨rfl, htarget⟩

theorem insert_linksStored {write : PageWrite} {slug title : String} {outcome : PageWriteOutcome}
    (h : Inserts env db pageId write slug title outcome db') (hs : LinksStored db) :
    LinksStored db' := by
  refine ⟨?_, ?_⟩
  · rw [h.pages_eq]
    exact hs.keyed.append h.idFree
  · intro page hpage target
    rw [h.links_eq]
    rw [h.pages_eq, List.mem_append, List.mem_singleton] at hpage
    rcases hpage with hpage | rfl
    · have hid : page.id ≠ pageId := Table.get_eq_none.mp h.idFree page hpage
      rw [mirrors_other hid]
      exact hs.mirrors page hpage target
    · exact mirrors_written

theorem update_linksStored {write : PageWrite} {slug : String} {outcome : PageWriteOutcome}
    (h : Updates db page write slug outcome db') (hs : LinksStored db)
    (hown : OwnSpelling page slug write.contentMd) : LinksStored db' := by
  refine ⟨?_, ?_⟩
  · rw [h.pages_eq]
    exact hs.keyed.put _
  · intro other hother target
    rw [h.links_eq]
    rw [h.pages_eq] at hother
    rcases Table.mem_put hother with rfl | ⟨hother, hid⟩
    · exact mirrors_written.trans hown.targets
    · rw [mirrors_other (show other.id ≠ page.id from hid)]
      exact hs.mirrors other hother target

/-- An update passed the version guard. -/
theorem writePage_version {write : PageWrite} {outcome : PageWriteOutcome}
    (h : Wiki.writePage env db pageId write = .ok (outcome, db'))
    (hlock : lockPageByIdentity env db.pages (strip write.slug) write.scopeType write.scopeId
      write.language = some page) : write.expectedVersion.all (page.version = ·) := by
  simp only [Wiki.writePage, bind_ok, hlock, updatePage, require_ok] at h
  obtain ⟨-, -, -, -, -, hversion, -⟩ := h
  exact hversion

theorem writePage_linksStored {write : PageWrite} {outcome : PageWriteOutcome} (hs : LinksStored db)
    (hlinked : Linked env db (.writePage pageId write))
    (h : Wiki.writePage env db pageId write = .ok (outcome, db')) : LinksStored db' := by
  rcases writePage_ok h with ⟨page, hlock, hdone⟩ | ⟨-, ⟨-, -, rfl⟩ | hinsert⟩
  · cases hretry : isExactRetry page write with
    | true =>
      simp only [Wiki.writePage, bind_ok, hlock, updatePage, hretry, if_true, pure_ok,
        Prod.mk.injEq] at h
      obtain ⟨-, -, -, -, -, -, -, rfl⟩ := h
      exact hs
    | false =>
      rcases hdone with ⟨hexact, -, -⟩ | hupdate
      · rw [hretry] at hexact
        cases hexact
      · exact update_linksStored hupdate hs (hlinked page hlock (writePage_version h hlock) hretry)
  · exact hs
  · exact insert_linksStored hinsert hs

theorem appendLog_linksStored {ts entry scopeType : String} {scopeId : Option Uuid}
    (hs : LinksStored db) (hlinked : Linked env db (.appendLog pageId ts entry scopeType scopeId))
    (h : Wiki.appendLog env db pageId ts entry scopeType scopeId = .ok (page, db')) :
    LinksStored db' := by
  rcases appendLog_ok h with ⟨contentMd, -, hinsert⟩ | ⟨old, hlock, hupdate⟩
  · exact insert_linksStored hinsert hs
  · exact update_linksStored hupdate hs (hlinked old hlock)

end Writes

section Deletion

variable {held : Uuid → Bool} {deleted : WikiPage}

theorem refersTo_scope (h : refersTo deleted page) : inDeletedScope deleted page := by
  rw [refersTo, Bool.and_eq_true] at h
  exact h.2

/-- The cleaned text links where the text did, the deleted slug apart. -/
theorem Clears.targets (h : Clears deleted page) (hid : page.id ≠ deleted.id) {target : String} :
    target ∈ extractWikilinks (scrubPage deleted page).contentMd ↔
      target ∈ extractWikilinks page.contentMd ∧ target ≠ deleted.slug := by
  rcases h with ⟨hrefers, hslug, hremovable⟩ | ⟨habsent, hmentions⟩
  · rw [scrubPage, if_pos ⟨hrefers, hid⟩]
    exact mem_extractWikilinks_scrub hslug hremovable
  · have hkept : (scrubPage deleted page).contentMd = page.contentMd := by
      unfold scrubPage
      split
      · rename_i hrefers
        exact scrub_of_not_mentions (hmentions hrefers.1)
      · rfl
    rw [hkept]
    refine ⟨fun hmem => ⟨hmem, ?_⟩, And.left⟩
    rintro rfl
    exact habsent hmem

theorem scrubPage_columns (deleted page : WikiPage) : (scrubPage deleted page).id = page.id ∧
    (scrubPage deleted page).slug = page.slug ∧
    inDeletedScope deleted (scrubPage deleted page) = inDeletedScope deleted page := by
  have hscope : (scrubPage deleted page).scopeType = page.scopeType ∧
      (scrubPage deleted page).scopeId = page.scopeId := by
    unfold scrubPage
    split <;> exact ⟨rfl, rfl⟩
  refine ⟨?_, ?_, ?_⟩
  · unfold scrubPage
    split <;> rfl
  · unfold scrubPage
    split <;> rfl
  · simp only [inDeletedScope, hscope.1, hscope.2]

/-- The edges of another page after the deletion. -/
theorem mem_dropIncoming (hkeyed : db.pages.Keyed) (hpage : page ∈ db.pages) {target : String} :
    (⟨page.id, target⟩ : WikiLink) ∈ dropIncoming db.pages deleted db.links ↔
      (⟨page.id, target⟩ : WikiLink) ∈ db.links ∧
        (inDeletedScope deleted page → target ≠ deleted.slug) := by
  rw [dropIncoming, List.mem_filter, decide_eq_true_eq]
  apply and_congr_right
  intro _
  rw [not_and]
  dsimp only
  constructor
  · intro hout hscope heq
    exact hout heq (.inr ⟨page, hpage, rfl, hscope⟩)
  · rintro hne heq (hglobal | ⟨other, hother, hid, hscope⟩)
    · refine hne ?_ heq
      rw [inDeletedScope, Bool.or_eq_true]
      exact .inl (decide_eq_true hglobal)
    · obtain rfl := hkeyed.eq_of_key hother hpage hid
      exact hne hscope heq

/-- A page that stays, before and after. -/
theorem deletePageCascade_pages (h : Wiki.deletePageCascade held db pageId = .ok db') :
    ∃ deleted, db.pages.get pageId = some deleted ∧
      (∀ page' ∈ db'.pages, ∃ page ∈ db.pages, page.id ≠ pageId ∧ page' = scrubPage deleted page) ∧
      (db.pages.Keyed → db'.pages.Keyed) ∧
      ∀ link, link ∈ db'.links ↔
        link ∈ dropIncoming db.pages deleted db.links ∧ link.fromPageId ≠ pageId := by
  obtain ⟨deleted, hget, hdelete⟩ := deletePageCascade_ok h
  obtain ⟨-, hpages, hlinks⟩ := deletePage_ok hdelete
  refine ⟨deleted, hget, ?_, ?_, ?_⟩
  · intro page' hpage'
    rw [hpages, List.mem_filter] at hpage'
    obtain ⟨page, hpage, rfl⟩ := List.mem_map.mp hpage'.1
    refine ⟨page, hpage, ?_, rfl⟩
    rw [← (scrubPage_columns deleted page).1]
    exact of_decide_eq_true hpage'.2
  · intro hkeyed
    have hkeys : (db.pages.map (scrubPage deleted)).map WikiPage.id = db.pages.map WikiPage.id := by
      rw [List.map_map]
      exact List.map_congr_left fun page _ => (scrubPage_columns deleted page).1
    have hscrubbed : Table.Keyed (db.pages.map (scrubPage deleted)) := by
      show ((db.pages.map (scrubPage deleted)).map WikiPage.id).Nodup
      rw [hkeys]
      exact hkeyed
    rw [hpages]
    exact hscrubbed.nodup_keys_filter _
  · intro link
    rw [hlinks, List.mem_filter, decide_eq_true_eq]

theorem deletePageCascade_linksStored (hs : LinksStored db)
    (hlinked : Linked env db (.deletePageCascade pageId held))
    (h : Wiki.deletePageCascade held db pageId = .ok db') : LinksStored db' := by
  obtain ⟨deleted, hget, hpages, hkeyed, hlinks⟩ := deletePageCascade_pages h
  have hdeleted : deleted.id = pageId := Table.get_key hget
  refine ⟨hkeyed hs.keyed, ?_⟩
  intro page' hpage' target
  obtain ⟨page, hpage, hid, rfl⟩ := hpages page' hpage'
  obtain ⟨hid', hslug, -⟩ := scrubPage_columns deleted page
  rw [hlinks, hid', hslug, mem_dropIncoming hs.keyed hpage, hs.mirrors page hpage target]
  by_cases hscope : inDeletedScope deleted page
  · have htargets := @Clears.targets page deleted (hlinked deleted hget page hpage hid hscope)
      (hdeleted ▸ hid) target
    rw [htargets]
    constructor
    · rintro ⟨⟨⟨hmem, hown⟩, hne⟩, -⟩
      exact ⟨⟨hmem, hne hscope⟩, hown⟩
    · rintro ⟨⟨hmem, hne⟩, hown⟩
      exact ⟨⟨⟨hmem, hown⟩, fun _ => hne⟩, hid⟩
  · have hkept : scrubPage deleted page = page := by
      rw [scrubPage, if_neg fun hrefers => hscope (refersTo_scope hrefers.1)]
    rw [hkept]
    exact ⟨fun hmem => hmem.1.1, fun hmem => ⟨⟨hmem, fun hin => absurd hin hscope⟩, hid⟩⟩

theorem deletePageCascade_unlinks (hlinked : Linked env db (.deletePageCascade pageId held)) :
    Unlinks db (.deletePageCascade pageId held) := by
  intro deleted db' hget h page' hpage' hscope
  obtain ⟨found, hfound, hpages, -, -⟩ := deletePageCascade_pages h
  obtain rfl : found = deleted := Option.some.inj (hfound.symm.trans hget)
  have hdeleted : found.id = pageId := Table.get_key hget
  obtain ⟨page, hpage, hid, rfl⟩ := hpages page' hpage'
  rw [(scrubPage_columns found page).2.2] at hscope
  intro hmem
  have hclears := hlinked found hget page hpage hid hscope
  exact ((hclears.targets (hdeleted ▸ hid)).mp hmem).2 rfl

end Deletion

theorem linksStored_empty : LinksStored {} :=
  ⟨List.nodup_nil, fun page hpage => by cases hpage⟩

theorem perform_linksStored : Preserves (LinkCall.perform env) (Linked env) LinksStored := by
  intro db db' call hs hlinked h
  cases call with
  | writePage pageId write =>
    obtain ⟨⟨outcome, after⟩, hwrite, rfl⟩ := map_ok.mp h
    exact writePage_linksStored hs hlinked hwrite
  | appendLog pageId ts entry scopeType scopeId =>
    obtain ⟨⟨page, after⟩, hlog, rfl⟩ := map_ok.mp h
    exact appendLog_linksStored hs hlinked hlog
  | deletePageCascade pageId held => exact deletePageCascade_linksStored hs hlinked h

theorem unlinks_of_linked {call : LinkCall} (h : Linked env db call) : Unlinks db call := by
  cases call with
  | writePage pageId write => trivial
  | appendLog pageId ts entry scopeType scopeId => trivial
  | deletePageCascade pageId held => exact deletePageCascade_unlinks h

/-- The links of a run: the edges of every page are those of its text in every state, and each
deletion takes the links to its page out of the texts. -/
def LinksFollow (env : Platform) (calls : List LinkCall) : Prop :=
  (∀ first rest, calls = first ++ rest → Mirrors (run (LinkCall.perform env) {} first)) ∧
    Meets (LinkCall.perform env) Unlinks {} calls

theorem run_linksFollow (env : Platform) (calls : List LinkCall)
    (h : Meets (LinkCall.perform env) (Linked env) {} calls) : LinksFollow env calls := by
  refine ⟨?_, ?_⟩
  · rintro first rest rfl
    exact (Preserves.run perform_linksStored linksStored_empty (meets_append.mp h).1).mirrors
  · exact Preserves.meets perform_linksStored (fun _ hlinked => unlinks_of_linked hlinked)
      linksStored_empty h

section Cases

def globalPage (pageId : Uuid) (slug contentMd : String) : LinkCall :=
  .writePage pageId { slug := slug, title := some slug, contentMd := contentMd }

/-- A deletion whose links the cleanup takes out. -/
def cleanDeletion : List LinkCall :=
  [globalPage 1 "refunds" "All orders, see [[policy]].",
    globalPage 2 "policy" "The [[refunds|rules]] of [[refunds]] and [[shipping]].",
    .appendLog 3 "09:00" "Read [[refunds]]" "global" none, .deletePageCascade 1 fun _ => false]

theorem cleanDeletion_linksFollow : LinksFollow asciiPlatform cleanDeletion :=
  run_linksFollow asciiPlatform cleanDeletion (by decide +kernel)

/-- A text whose link has no edge. -/
def MissingEdge (db : Database) (target : String) : Prop :=
  ∃ page ∈ db.pages, target ∈ extractWikilinks page.contentMd ∧ target ≠ page.slug ∧
    ⟨page.id, target⟩ ∉ db.links

instance (db : Database) (target : String) : Decidable (MissingEdge db target) :=
  inferInstanceAs (Decidable (∃ page ∈ db.pages, _ ∧ _ ∧ _))

theorem not_linksFollow_of_missingEdge {calls : List LinkCall} {target : String}
    (h : MissingEdge (run (LinkCall.perform env) {} calls) target) : ¬ LinksFollow env calls := by
  intro hfollow
  obtain ⟨page, hpage, hmem, hne, hno⟩ := h
  exact hno ((hfollow.1 calls [] (List.append_nil calls).symm page hpage target).mpr ⟨hmem, hne⟩)

/-- The cleanup misses a padded link and one with an empty display text, and a rewrite under another
spelling leaves out the wrong self-link. -/
theorem links_part_from_texts :
    ¬ LinksFollow asciiPlatform [globalPage 1 "refunds" "All orders.",
        globalPage 2 "policy" "See [[ refunds ]].", .deletePageCascade 1 fun _ => false] ∧
      ¬ LinksFollow asciiPlatform [globalPage 1 "refunds" "All orders.",
        globalPage 2 "policy" "See [[refunds|]].", .deletePageCascade 1 fun _ => false] ∧
      ¬ LinksFollow asciiPlatform [globalPage 1 "refunds" "All orders.",
        globalPage 2 "Refunds" "See [[Refunds]]."] := by
  refine ⟨?_, ?_, ?_⟩
  · exact @not_linksFollow_of_missingEdge _ _ "refunds" (by decide +kernel)
  · exact @not_linksFollow_of_missingEdge _ _ "refunds" (by decide +kernel)
  · exact @not_linksFollow_of_missingEdge _ _ "Refunds" (by decide +kernel)

end Cases

end Cygnus.History
