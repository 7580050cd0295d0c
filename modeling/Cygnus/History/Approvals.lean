import Cygnus.History.Revisions

/-! Approvals of edit drafts next to the other writers of a page. An approval tests the version of
the page under an advisory lock on its slug, and writes under the row lock of the write path. -/

namespace Cygnus.Approvals

open Wiki Review Governance Text Result Machine

/-- An approval whose checks have passed: the draft and the copy of the page it goes on with. -/
structure Checked where
  draft : WikiPageDraft
  approval : Approval
  page : WikiPage
  sourceIds : List Uuid

structure World where
  db : Database
  checked : List Checked := []

inductive Step
  | check (draftId : Uuid) (approval : Approval)
  /-- The write and the commit of the checked approval at this place; an error rolls it back. -/
  | write (place : Nat) (eventId : Uuid) (now : Timestamp)
  | abort (place : Nat)
  | directEditPage (pageId editorId : Uuid) (contentMd : String) (changeNote : Option String)
  | rollbackToRevision (pageId : Uuid) (targetVersion : Nat) (actorId : Uuid)
  | applyUpdate (update : PageUpdate)
  | approveCreateDraft (draftId : Uuid) (approval : Approval) (pageId eventId : Uuid)
      (now : Timestamp)
  /-- Whatever the rest of the system writes to the tables that hold no pages. -/
  | elsewhere (drafts : Table WikiPageDraft) (rounds : List WikiDraftRound)
      (preReviews : List PendingAiPreReview) (branches : Table WikiBranch)
      (ledger : Table GovernanceLedgerEvent) (sources : Table Source)
      (sourceDepartments : List SourceDepartment)

section Approve

variable (env : Platform)

/-- `approve_wiki_draft` of an edit draft up to the write. -/
def checkEdit (db : Database) (draftId : Uuid) (approval : Approval) : Transaction Checked := do
  let draft ← fetch "wiki_page_drafts" db.drafts draftId
  require (draft.status = .pending) (.invalidTransition
    "A draft must be explicitly submitted for review before approval.")
  match draft.pageId.bind db.pages.get with
  | none => throw (.valueError ("Wiki page " ++ draft.pageId.elim "None" Uuid.text ++ " not found"))
  | some page =>
    validateCompilerDraftContext env db draft (some page)
    require (approval.allowConflict ∨ approval.editedContentMd.isSome ∨
        draft.baseVersion.all fun base => (page.version : Int) ≤ base)
      (.draftConflict page.version (draft.baseVersion.getD 0))
    let sourceIds ← draftSourceIds draft
    return ⟨draft, approval, page, sourceIds⟩

def Checked.pageWrite (checked : Checked) : PageWrite :=
  editWrite checked.draft checked.page (checked.approval.finalContent checked.draft)
    checked.sourceIds checked.approval.reviewerId checked.approval.reviewerNote

/-- The rest of the approval: the page, the ledger and the draft row as it then is. -/
def commit (db : Database) (checked : Checked) (eventId : Uuid) (now : Timestamp) :
    Transaction Database := do
  let (outcome, db) ← writePage env db checked.page.id checked.pageWrite
  match outcome.page with
  | none => throw (.valueError
      ("Wiki page " ++ checked.draft.pageId.elim "None" Uuid.text ++ " not found"))
  | some page =>
    let (_, ledger) ← appendDraftEvent db.ledger eventId
      (approvalEvent env checked.draft checked.approval page now)
    let draft ← fetch "wiki_page_drafts" db.drafts checked.draft.id
    return { db with
      drafts := db.drafts.put (approvedDraft draft checked.approval page now), ledger := ledger }

/-- Without another step in between, the two halves are the approval. -/
theorem approveWikiDraft_eq {db : Database} {draft : WikiPageDraft} {approval : Approval}
    {pageId eventId : Uuid} {now : Timestamp} (hdraft : db.drafts.get draft.id = some draft)
    (hkind : draft.draftKind ≠ "create") :
    approveWikiDraft env db draft.id approval pageId eventId now =
      (do let checked ← checkEdit env db draft.id approval
          commit env db checked eventId now) := by
  have hfetch : fetch "wiki_page_drafts" db.drafts draft.id = pure draft := fetch_ok.mpr hdraft
  simp only [approveWikiDraft, checkEdit, hfetch, materialise, if_neg hkind, approveEdit, bind_assoc,
    pure_bind]
  congr 1
  funext _
  cases draft.pageId.bind db.pages.get with
  | none => rfl
  | some page =>
    simp only [bind_assoc, pure_bind]
    congr 1
    funext _
    congr 1
    funext _
    congr 1
    funext sourceIds
    rw [commit]
    dsimp only [Checked.pageWrite]
    cases hwrite : writePage env db page.id (editWrite draft page (approval.finalContent draft)
        sourceIds approval.reviewerId approval.reviewerNote) with
    | error e => rfl
    | ok result =>
      obtain ⟨⟨written, inserted, applied⟩, after⟩ := result
      have hdrafts : fetch "wiki_page_drafts" after.drafts draft.id = pure draft := by
        rw [(writePage_frame hwrite).drafts]
        exact hfetch
      cases written with
      | none => rfl
      | some written =>
        show (appendDraftEvent after.ledger eventId (approvalEvent env draft approval written now) >>=
          fun event => _) = appendDraftEvent after.ledger eventId _ >>= fun event => _
        congr 1
        funext event
        rw [hdrafts]
        rfl

end Approve

section Machine

variable (env : Platform) (hashtext : String → Int)

/-- No transaction holds the advisory lock on this slug; a step that would wait for it is not taken. -/
def LockFree (w : World) (slug : String) : Prop :=
  ∀ other ∈ w.checked, hashtext other.page.slug ≠ hashtext slug

instance (w : World) (slug : String) : Decidable (LockFree hashtext w slug) :=
  inferInstanceAs (Decidable (∀ other ∈ w.checked, hashtext other.page.slug ≠ hashtext slug))

def perform : Step → World → Transaction World
  | .check draftId approval, w => do
    let checked ← checkEdit env w.db draftId approval
    require (LockFree hashtext w checked.page.slug) (.runtimeError "the advisory lock is held")
    return { w with checked := w.checked ++ [checked] }
  | .write place eventId now, w =>
    match w.checked[place]? with
    | none => .error (.runtimeError "no such approval")
    | some checked => .ok
      ⟨(commit env w.db checked eventId now).toOption.getD w.db, w.checked.eraseIdx place⟩
  | .abort place, w => .ok { w with checked := w.checked.eraseIdx place }
  | .directEditPage pageId editorId contentMd changeNote, w =>
    (directEditPage env w.db pageId editorId contentMd changeNote).map fun db => { w with db := db }
  | .rollbackToRevision pageId targetVersion actorId, w =>
    (rollbackToRevision env w.db pageId targetVersion actorId).map fun db => { w with db := db }
  | .applyUpdate update, w => (applyUpdate env w.db update).map fun result =>
    { w with db := result.2 }
  | .approveCreateDraft draftId approval pageId eventId now, w => do
    let draft ← fetch "wiki_page_drafts" w.db.drafts draftId
    require (draft.draftKind = "create") (.runtimeError "an edit draft is checked first")
    require ((Json.lookup (draft.suggestedMetadata.getD []) "slug").asStr.all fun slug =>
      slug = "" ∨ LockFree hashtext w slug) (.runtimeError "the advisory lock is held")
    let db ← approveWikiDraft env w.db draftId approval pageId eventId now
    return { w with db := db }
  | .elsewhere drafts rounds preReviews branches ledger sources sourceDepartments, w =>
    .ok { w with db := { w.db with
      drafts := drafts, rounds := rounds, preReviews := preReviews, branches := branches,
      ledger := ledger, sources := sources, sourceDepartments := sourceDepartments } }

/-- The version the approval is bound to: it neither allows conflicts nor edits the content. -/
def Checked.guard (checked : Checked) : Option Int :=
  if checked.approval.allowConflict = false ∧ checked.approval.editedContentMd = none then
    checked.draft.baseVersion
  else none

/-- When the step applies the write of a guarded approval, the page is no newer than its draft. -/
def OverwritesNothing (w : World) : Step → Prop
  | .write place eventId now => ∀ checked ∈ w.checked[place]?, ∀ base ∈ checked.guard,
      (commit env w.db checked eventId now).isOk →
      ∀ page ∈ w.db.pages.get checked.page.id, (page.version : Int) ≤ base
  | _ => True

instance (w : World) : (step : Step) → Decidable (OverwritesNothing env w step)
  | .write place eventId now => inferInstanceAs (Decidable (∀ checked ∈ w.checked[place]?,
      ∀ base ∈ checked.guard, (commit env w.db checked eventId now).isOk →
      ∀ page ∈ w.db.pages.get checked.page.id, (page.version : Int) ≤ base))
  | .check _ _ => isTrue trivial
  | .abort _ => isTrue trivial
  | .directEditPage _ _ _ _ => isTrue trivial
  | .rollbackToRevision _ _ _ => isTrue trivial
  | .applyUpdate _ => isTrue trivial
  | .approveCreateDraft _ _ _ _ _ => isTrue trivial
  | .elsewhere _ _ _ _ _ _ _ => isTrue trivial

/-- The identity of the page that a step other than an edit approval writes. -/
def writtenIdentity (db : Database) : Step → Option PageIdentity
  | .directEditPage pageId _ _ _ => (db.pages.get pageId).map (pageIdentity env)
  | .rollbackToRevision pageId _ _ => (db.pages.get pageId).map (pageIdentity env)
  | .applyUpdate update => some ((update.write none).identity env)
  | .approveCreateDraft draftId approval _ _ _ =>
    (db.drafts.get draftId).bind fun draft => draftIdentity env draft approval.metadataOverrides
  | _ => none

/-- No direct edit, rollback, compiler update or create approval writes the page of a guarded
approval between its check and its write. -/
def Undisturbed (w : World) (step : Step) : Prop :=
  ∀ identity ∈ writtenIdentity env w.db step, ∀ checked ∈ w.checked, checked.guard.isSome →
    pageIdentity env checked.page ≠ identity

instance (w : World) (step : Step) : Decidable (Undisturbed env w step) :=
  inferInstanceAs (Decidable (∀ identity ∈ writtenIdentity env w.db step, ∀ checked ∈ w.checked,
    checked.guard.isSome → pageIdentity env checked.page ≠ identity))

/-- The pages of checked approvals are there, the guarded ones at the version that was checked, and
no two approvals hold one lock. -/
structure Sound (w : World) : Prop where
  stored : Stored env w.db
  present : ∀ checked ∈ w.checked, ∃ page, w.db.pages.get checked.page.id = some page ∧
    SamePage checked.page page ∧
    ∀ base ∈ checked.guard, (page.version : Int) ≤ base
  locks : (w.checked.map fun checked => hashtext checked.page.slug).Nodup

end Machine

section Runs

variable {env : Platform} {hashtext : String → Int} {w : World} {db : Database}

theorem Sound.update (hw : Sound env hashtext w) (hstored : Stored env db)
    (hkeeps : ∀ {id page}, w.db.pages.get id = some page →
      ∃ page', db.pages.get id = some page' ∧ SamePage page page')
    (hguarded : ∀ checked ∈ w.checked, checked.guard.isSome → ∀ {page},
      w.db.pages.get checked.page.id = some page → db.pages.get checked.page.id = some page) :
    Sound env hashtext { w with db := db } := by
  refine ⟨hstored, ?_, hw.locks⟩
  intro checked hchecked
  obtain ⟨page, hpage, hsame, hguard⟩ := hw.present checked hchecked
  cases hbase : checked.guard with
  | none =>
    obtain ⟨page', hpage', hsame'⟩ := hkeeps hpage
    refine ⟨page', hpage', hsame.trans hsame', ?_⟩
    intro base hmem
    cases hmem
  | some base =>
    have hpage' := hguarded checked hchecked (by rw [hbase]; rfl) hpage
    exact ⟨page, hpage', hsame, fun base hmem => hguard base (hbase ▸ hmem)⟩

/-- A write of a page that no guarded approval has checked. -/
theorem Sound.write (hw : Sound env hashtext w) {fresh : Uuid} {write : PageWrite}
    {outcome : PageWriteOutcome} {written : Database}
    (hwrite : writePage env w.db fresh write = .ok (outcome, written)) (hstored : Stored env db)
    (hpages : db.pages = written.pages)
    (hother : ∀ checked ∈ w.checked, checked.guard.isSome →
      pageIdentity env checked.page ≠ write.identity env) :
    Sound env hashtext { w with db := db } := by
  apply hw.update hstored
  · intro id page hpage
    rw [hpages]
    exact writePage_keeps hw.stored.wellFormed hwrite hpage
  · intro checked hchecked hguard page hpage
    rw [hpages]
    apply writePage_others hw.stored.wellFormed hwrite hpage
    obtain ⟨current, hcurrent, hsame, -⟩ := hw.present checked hchecked
    rw [hpage] at hcurrent
    cases hcurrent
    rw [hsame.identity]
    exact hother checked hchecked hguard

theorem rewritePage_identity {page : WikiPage} (hpage : Canonical env page)
    (contentMd changeType : String) (changedById : Uuid) (changeNote : Option String) :
    (rewritePage page contentMd changeType changedById changeNote).identity env =
      pageIdentity env page :=
  identity_of_columns hpage rfl rfl rfl rfl

theorem commit_ok {checked : Checked} {eventId : Uuid} {now : Timestamp} {db' : Database}
    (h : commit env db checked eventId now = .ok db') :
    ∃ outcome written, writePage env db checked.page.id checked.pageWrite = .ok (outcome, written) ∧
      db'.pages = written.pages ∧ db'.links = written.links ∧ db'.revisions = written.revisions := by
  simp only [commit, bind_ok] at h
  obtain ⟨⟨outcome, written⟩, hwrite, h⟩ := h
  dsimp only at h
  split at h
  · simp at h
  · simp only [bind_ok, pure_ok] at h
    obtain ⟨event, -, draft, -, rfl⟩ := h
    exact ⟨outcome, written, hwrite, rfl, rfl, rfl⟩

theorem stored_of_write {fresh : Uuid} {write : PageWrite} {outcome : PageWriteOutcome}
    {written db' : Database} (hs : Stored env db) (hexisting : write.insertIfMissing = false)
    (hwrite : writePage env db fresh write = .ok (outcome, written))
    (hpages : db'.pages = written.pages) (hlinks : db'.links = written.links)
    (hrevisions : db'.revisions = written.revisions) : Stored env db' := by
  have heffect := writePage_effect_existing hs.wellFormed hexisting hwrite
  refine (heffect.congr hpages hlinks ?_).stored hs
  intro id
  rw [history, history, hrevisions]

theorem checkEdit_ok {draftId : Uuid} {approval : Approval} {checked : Checked}
    (h : checkEdit env db draftId approval = .ok checked) :
    db.pages.get checked.page.id = some checked.page ∧
      ∀ base ∈ checked.guard, (checked.page.version : Int) ≤ base := by
  simp only [checkEdit, bind_ok] at h
  obtain ⟨draft, -, -, -, h⟩ := h
  split at h
  · simp at h
  · rename_i page hpage
    simp only [bind_ok, require_ok, pure_ok] at h
    obtain ⟨-, -, -, hconflict, sourceIds, -, rfl⟩ := h
    obtain ⟨pageId, -, hget⟩ := Option.bind_eq_some_iff.mp hpage
    refine ⟨?_, ?_⟩
    · rw [show page.id = pageId from Table.get_key hget]
      exact hget
    · intro base hbase
      rw [Checked.guard] at hbase
      split at hbase
      · rename_i hguard
        rcases hconflict with hallow | hedited | hversion
        · rw [hguard.1] at hallow
          cases hallow
        · rw [hguard.2] at hedited
          cases hedited
        · rw [show draft.baseVersion = some base from hbase] at hversion
          simpa using hversion
      · cases hbase

theorem Sound.erase (hw : Sound env hashtext w) (place : Nat) :
    Sound env hashtext { w with checked := w.checked.eraseIdx place } := by
  refine ⟨hw.stored, ?_, hw.locks.sublist ((List.eraseIdx_sublist _ _).map _)⟩
  intro checked hchecked
  exact hw.present checked (List.mem_of_mem_eraseIdx hchecked)

/-- Two approvals in flight are about different pages: they hold different locks. -/
theorem Sound.identity_ne (hw : Sound env hashtext w) {place : Nat} {checked other : Checked}
    (hchecked : w.checked[place]? = some checked) (hother : other ∈ w.checked.eraseIdx place) :
    pageIdentity env other.page ≠ pageIdentity env checked.page := by
  intro heq
  obtain ⟨i, hne, hi⟩ := List.mem_eraseIdx_iff_getElem?.mp hother
  obtain ⟨page, hpage, hsame, -⟩ := hw.present checked (List.mem_of_getElem? hchecked)
  obtain ⟨page', hpage', hsame', -⟩ := hw.present other (List.mem_of_getElem? hi)
  have hpages : page' = page := by
    apply hw.stored.wellFormed.unique page' (Table.get_mem hpage') page (Table.get_mem hpage)
    rw [hsame.identity, hsame'.identity, heq]
  have hslug : other.page.slug = checked.page.slug := by
    rw [← hsame'.slug, hpages, hsame.slug]
  apply hne
  refine (List.getElem?_inj ?_ hw.locks).mp ?_
  · rw [List.length_map]
    exact (List.getElem?_eq_some_iff.mp hi).1
  · rw [List.getElem?_map, List.getElem?_map, hi, hchecked, Option.map_some, Option.map_some, hslug]

theorem pageWrite_identity (hw : Sound env hashtext w) {checked : Checked}
    (hchecked : checked ∈ w.checked) :
    checked.pageWrite.identity env = pageIdentity env checked.page := by
  obtain ⟨page, hpage, hsame, -⟩ := hw.present checked hchecked
  have hcanonical := hsame.symm.canonical (hw.stored.canonical page (Table.get_mem hpage))
  exact identity_of_columns hcanonical rfl rfl rfl rfl

theorem perform_sound (hlower : LawfulLower env) :
    Preserves (perform env hashtext) (Undisturbed env) (Sound env hashtext) := by
  intro w w' step hw hundisturbed h
  cases step with
  | check draftId approval =>
    simp only [perform, bind_ok, require_ok, pure_ok] at h
    obtain ⟨checked, hcheck, -, hfree, rfl⟩ := h
    obtain ⟨hpage, hguard⟩ := checkEdit_ok hcheck
    refine ⟨hw.stored, ?_, ?_⟩
    · intro other hother
      rcases List.mem_append.mp hother with hother | hother
      · exact hw.present other hother
      · obtain rfl := List.mem_singleton.mp hother
        exact ⟨other.page, hpage, .refl other.page, hguard⟩
    · rw [List.map_append, List.nodup_append]
      refine ⟨hw.locks, List.nodup_singleton _, ?_⟩
      intro key hkey key' hkey'
      obtain ⟨other, hother, rfl⟩ := List.mem_map.mp hkey
      rw [List.map_singleton, List.mem_singleton] at hkey'
      rw [hkey']
      exact hfree other hother
  | write place eventId now =>
    rw [perform] at h
    split at h
    · cases h
    · rename_i checked hchecked
      simp only [Except.ok.injEq] at h
      subst h
      cases hcommit : commit env w.db checked eventId now with
      | error e => exact hw.erase place
      | ok db =>
        obtain ⟨outcome, written, hwrite, hpages, hlinks, hrevisions⟩ := commit_ok hcommit
        have hstored := stored_of_write hw.stored rfl hwrite hpages hlinks hrevisions
        refine (hw.erase place).write hwrite hstored hpages ?_
        intro other hother _
        rw [pageWrite_identity hw (List.mem_of_getElem? hchecked)]
        exact hw.identity_ne hchecked hother
  | abort place =>
    cases h
    exact hw.erase place
  | directEditPage pageId editorId contentMd changeNote =>
    obtain ⟨db, hedit, rfl⟩ := map_ok.mp h
    obtain ⟨page, outcome, hpage, hwrite⟩ := directEditPage_ok hedit
    have hcanonical := hw.stored.canonical page (Table.get_mem hpage)
    refine hw.write hwrite (stored_of_write hw.stored rfl hwrite rfl rfl rfl) rfl ?_
    intro checked hchecked hguard
    rw [rewritePage_identity hcanonical]
    exact hundisturbed _ (by rw [writtenIdentity, hpage]; rfl) checked hchecked hguard
  | rollbackToRevision pageId targetVersion actorId =>
    obtain ⟨db, hrollback, rfl⟩ := map_ok.mp h
    obtain ⟨page, revision, outcome, hpage, -, -, -, hwrite⟩ := rollbackToRevision_ok hrollback
    have hcanonical := hw.stored.canonical page (Table.get_mem hpage)
    refine hw.write hwrite (stored_of_write hw.stored rfl hwrite rfl rfl rfl) rfl ?_
    intro checked hchecked hguard
    rw [rewritePage_identity hcanonical]
    exact hundisturbed _ (by rw [writtenIdentity, hpage]; rfl) checked hchecked hguard
  | applyUpdate update =>
    obtain ⟨⟨found, db⟩, hupdate, rfl⟩ := map_ok.mp h
    obtain ⟨outcome, hwrite, -⟩ := applyUpdate_ok hupdate
    refine hw.write hwrite (stored_of_write hw.stored rfl hwrite rfl rfl rfl) rfl ?_
    intro checked hchecked hguard
    exact hundisturbed _ rfl checked hchecked hguard
  | approveCreateDraft draftId approval pageId eventId now =>
    simp only [perform, bind_ok, fetch_ok, require_ok, pure_ok] at h
    obtain ⟨draft, hdraft, -, hkind, -, -, db, happrove, rfl⟩ := h
    obtain ⟨found, page, written, row, ledger, hfound, -, hmaterialise, -, rfl⟩ :=
      approveWikiDraft_ok happrove
    rw [hdraft] at hfound
    cases hfound
    have heffect := History.materialise_effect hlower hw.stored.wellFormed hmaterialise
    rw [materialise, if_pos hkind] at hmaterialise
    obtain ⟨metadata, scopeType, sourceIds, created, revisions, hcheck, -, -, hcreate, -, rfl⟩ :=
      approveCreate_ok hmaterialise
    obtain ⟨outcome, -, hwrite⟩ := applyCreate_ok hcreate
    have hidentity := checkCreate_identity hcheck
    refine hw.write hwrite (Effect.stored (heffect.congr ?_ ?_ ?_) hw.stored) rfl ?_
    · rfl
    · rfl
    · intro id
      rfl
    intro checked hchecked hguard
    refine hundisturbed _ ?_ checked hchecked hguard
    rw [writtenIdentity, hdraft]
    exact hidentity
  | elsewhere drafts rounds preReviews branches ledger sources sourceDepartments =>
    cases h
    have hretains : Effect env w.db { w.db with
        drafts := drafts, rounds := rounds, preReviews := preReviews, branches := branches,
        ledger := ledger, sources := sources, sourceDepartments := sourceDepartments } :=
      .retains _ _ (.of_pages rfl (fun _ => rfl) rfl)
    exact ⟨hretains.stored hw.stored, hw.present, hw.locks⟩

theorem run_overwritesNothing {steps : List Step} (hlower : LawfulLower env) (hs : Stored env db)
    (hundisturbed : Meets (perform env hashtext) (Undisturbed env) ⟨db, []⟩ steps) :
    Meets (perform env hashtext) (OverwritesNothing env) ⟨db, []⟩ steps := by
  have hstart : Sound env hashtext ⟨db, []⟩ := by
    refine ⟨hs, ?_, List.nodup_nil⟩
    intro checked hchecked
    cases hchecked
  refine Preserves.meets (perform_sound hlower) ?_ hstart hundisturbed
  intro w step hw _
  cases step with
  | write place eventId now =>
    intro checked hchecked base hbase _ page hpage
    obtain ⟨current, hcurrent, -, hguard⟩ := hw.present checked (List.mem_of_getElem? hchecked)
    rw [show w.db.pages.get checked.page.id = some page from hpage] at hcurrent
    cases hcurrent
    exact hguard base hbase
  | _ => trivial

end Runs

section Refunds

open History

/-- An edit of the first version of a page. -/
def refundsEdit : WikiPageDraft :=
  { id := 2, pageId := some 1, contentMd := "# Refunds within 14 days", baseVersion := some 1 }

/-- The page, and the draft in review. -/
def inReview : Database := run (History.perform asciiPlatform) {} [
  newPageCall 1 "refunds" "# Refunds",
  .elsewhere [refundsEdit] [] [] [] [
    { id := 3, draftId := 2, sequence := 1, eventType := .reviewRequested,
      fromState := some .draft, toState := .inReview, actorId := none,
      idempotencyKey := transitionKey 2 .reviewRequested, reason := none, payload := [] }] [] []]

theorem inReview_stored : Stored asciiPlatform inReview :=
  run_stored (asciiLower_lawful _ _ _) (by decide)

/-- The check and the write in one go, and a direct edit afterwards. -/
theorem approval_then_edit :
    Meets (perform asciiPlatform fun _ => 0) (OverwritesNothing asciiPlatform) ⟨inReview, []⟩
      [.check 2 { reviewerId := 11 }, .write 0 5 0,
        .directEditPage 1 9 "# Refunds within 30 days" none] :=
  run_overwritesNothing (asciiLower_lawful _ _ _) inReview_stored (by decide +kernel)

/-- A direct edit between the check and the write of the approval is overwritten. -/
theorem edit_overwritten :
    ¬ Meets (perform asciiPlatform fun _ => 0) (OverwritesNothing asciiPlatform) ⟨inReview, []⟩
      [.check 2 { reviewerId := 11 }, .directEditPage 1 9 "# Refunds within 30 days" none,
        .write 0 5 0] := by
  decide +kernel

end Refunds

end Cygnus.Approvals
