import Cygnus.Review.Branches
import Cygnus.Review.Conflicts

/-! Merging a branch. The preflight compares every draft with the store the merge starts from, an
approval with the store the drafts before it have left. -/

namespace Cygnus.Review

open Wiki Governance Text Result

/-- `begin_nested`: an exception undoes what the block has written. -/
def nested (db : Database) (block : Transaction Database) : Transaction Unit × Database :=
  match block with
  | .ok db' => (.ok (), db')
  | .error error => (.error error, db)

/-- Who merges, and what the merge draws for the rows it adds. -/
structure Merge where
  reviewer : Actor
  reviewerNote : Option String := none
  pageId : Uuid → Uuid
  eventId : Uuid → Uuid
  now : Timestamp

def Merge.approval (merge : Merge) : Approval :=
  { reviewerId := merge.reviewer.id, reviewerNote := merge.reviewerNote }

def Merge.merged (merge : Merge) (branch : WikiBranch) : WikiBranch :=
  { branch with
    status := .merged, reviewerId := some merge.reviewer.id, reviewedAt := some merge.now,
    reviewerNote := merge.reviewerNote, hasConflict := false }

section Merge

variable (env : Platform) (merge : Merge)

def approveNext (db : Database) (draft : WikiPageDraft) : Transaction Database :=
  approveBranchDraft env merge.reviewer merge.reviewerNote merge.pageId merge.eventId merge.now db
    draft.id

/-- `merge_wiki_branch` with the store it leaves, also where it raises. -/
def runMerge (db : Database) (branchId : Uuid) : Transaction Unit × Database :=
  match fetch "wiki_branches" db.branches branchId with
  | .error error => (.error error, db)
  | .ok branch =>
    if branch.status = .pendingMerge then
      let drafts := loadBranchDrafts db.drafts branchId
      match drafts.findSome? (staleBase db.pages) with
      | some (page, base) =>
        (.error (.branchMergeConflict page.title page.slug page.version base),
          { db with branches := db.branches.put { branch with hasConflict := true } })
      | none => nested db do
        let db ← drafts.foldlM (approveNext env merge) db
        return { db with branches := db.branches.put (merge.merged branch) }
    else
      (.error (.invalidTransition
        "A branch can only be merged while it is in 'pending_merge' state"), db)

/-- The arguments of the write an approval makes. -/
def requestedWrite (db : Database) (draft : WikiPageDraft) (approval : Approval) :
    Option PageWrite :=
  if draft.draftKind = "create" then do
    let (metadata, scopeType) ← (checkCreate env db draft approval.metadataOverrides).toOption
    let sourceIds ← (draftSourceIds draft).toOption
    some {
      slug := metadata.slug, title := some metadata.title,
      contentMd := approval.finalContent draft, summary := some metadata.summary,
      knowledgeTypeSlugs := some metadata.knowledgeTypeSlugs, sourceIds := some sourceIds,
      scopeType := scopeType, scopeId := metadata.scopeId, language := some metadata.language,
      status := some "seed" }
  else do
    let page ← draft.pageId.bind db.pages.get
    let sourceIds ← (draftSourceIds draft).toOption
    some (editWrite draft page (approval.finalContent draft) sourceIds approval.reviewerId
      approval.reviewerNote)

def writtenPage (pages : Table WikiPage) (write : PageWrite) : Option WikiPage :=
  lockPageByIdentity env pages (strip write.slug) write.scopeType write.scopeId write.language

/-- The page whose version an approval raises. -/
def raisedPage (db : Database) (draft : WikiPageDraft) (approval : Approval) : Option WikiPage := do
  let write ← requestedWrite env db draft approval
  let page ← writtenPage env db.pages write
  if isExactRetry page write then none else some page

/-- The page is the one a rewrite under its own identity finds. -/
def OwnsIdentity (pages : Table WikiPage) (page : WikiPage) : Prop :=
  lockPageByIdentity env pages (strip page.slug)
    (if page.scopeType = "" then "global" else page.scopeType) page.scopeId
    (some page.language) = some page

/-- The draft ends approved, and its content is on a page: the one a create draft is given, and the
one an edit draft names where that page owns its identity. -/
structure Writes (db db' : Database) (draft row : WikiPageDraft) (page : WikiPage) : Prop where
  row_eq : db'.drafts.get draft.id = some row
  approved : row.status = .approved
  page_eq : db'.pages.get page.id = some page
  content : page.contentMd = draft.contentMd
  created : draft.draftKind = "create" → row.pageId = some page.id
  edited : draft.draftKind ≠ "create" → ∀ target, draft.pageId.bind db.pages.get = some target →
    OwnsIdentity env db.pages target → page.id = target.id

/-- A merge approves every draft or changes none, no edit is written over a page that is newer than
its base, and no draft is refused for its base when the preflight refuses none. -/
structure MergesWhole (db : Database) (branchId : Uuid) : Prop where
  merged : ∀ db', runMerge env merge db branchId = (.ok (), db') →
    ∃ branch, db'.branches.get branchId = some branch ∧ branch.status = .merged
  approved : ∀ db', runMerge env merge db branchId = (.ok (), db') →
    ∀ before draft after, loadBranchDrafts db.drafts branchId = before ++ draft :: after →
      (∃ row, db'.drafts.get draft.id = some row ∧ row.status = .approved) ∧
      ∃ s s' row page, before.foldlM (approveNext env merge) db = .ok s ∧
        approveNext env merge s draft = .ok s' ∧ Writes env s s' draft row page
  unchanged : ∀ error db', runMerge env merge db branchId = (.error error, db') →
    db'.drafts = db.drafts ∧ db'.pages = db.pages ∧ db'.revisions = db.revisions ∧
      db'.links = db.links ∧ db'.ledger = db.ledger
  guarded : ∀ before draft after s s' page base,
    loadBranchDrafts db.drafts branchId = before ++ draft :: after →
    before.foldlM (approveNext env merge) db = .ok s → approveNext env merge s draft = .ok s' →
    draft.draftKind = "edit" → draft.pageId.bind s.pages.get = some page →
    draft.baseVersion = some base → (page.version : Int) ≤ base
  exact : (loadBranchDrafts db.drafts branchId).findSome? (staleBase db.pages) = none →
    ∀ current base, (runMerge env merge db branchId).1 ≠ .error (.draftConflict current base)

/-- Before the edit draft is reached, an earlier draft of the branch raises its page from the very
version the edit is based on. -/
structure Overtakes (db : Database) (before : List WikiPageDraft) (earlier : WikiPageDraft)
    (between : List WikiPageDraft) (draft : WikiPageDraft) (s : Database) (page : WikiPage) :
    Prop where
  reached : before.foldlM (approveNext env merge) db = .ok s
  raised : raisedPage env s earlier merge.approval = some page
  continues : Returns ((earlier :: between).foldlM (approveNext env merge) s)
  edit : draft.draftKind = "edit"
  target : draft.pageId = some page.id
  based : draft.baseVersion = some (page.version : Int)
  pending : draft.status = .pending
  valid : validateCompilerDraftContext env s draft (some page) = .ok ()

def Overtaken (db : Database) (branchId : Uuid) : Prop :=
  ∃ before earlier between draft after s page,
    loadBranchDrafts db.drafts branchId = before ++ earlier :: (between ++ draft :: after) ∧
    Overtakes env merge db before earlier between draft s page

end Merge

variable {env : Platform} {merge : Merge} {db db' s s' : Database} {draft row : WikiPageDraft}
  {approval : Approval} {page : WikiPage} {pageId branchId : Uuid}
  {drafts before after : List WikiPageDraft}

/-- Without the store an exception leaves, it is the merge of the lifecycle. -/
theorem mergeWikiBranch_eq :
    mergeWikiBranch env db branchId merge.reviewer merge.reviewerNote merge.pageId merge.eventId
      merge.now = (runMerge env merge db branchId).1.map fun _ => (runMerge env merge db branchId).2 := by
  unfold runMerge mergeWikiBranch
  cases fetch "wiki_branches" db.branches branchId with
  | error error => rfl
  | ok branch =>
    simp only [ok_bind]
    by_cases hstatus : branch.status = .pendingMerge
    · rw [if_pos hstatus, require_of hstatus, ok_bind]
      cases (loadBranchDrafts db.drafts branchId).findSome? (staleBase db.pages) with
      | some stale => rfl
      | none =>
        rw [List.foldlM_map]
        change (List.foldlM (approveNext env merge) db _ >>= _) = _
        cases (loadBranchDrafts db.drafts branchId).foldlM (approveNext env merge) db with
        | error error => rfl
        | ok merged => rfl
    · rw [if_neg hstatus, require, if_neg hstatus]
      rfl

section Step

/-- The page as a write leaves it. -/
def revisedPage (write : PageWrite) (page : WikiPage) : WikiPage :=
  if isExactRetry page write then page else write.applyTo page

@[simp] theorem revisedPage_id (write : PageWrite) : (revisedPage write page).id = page.id := by
  unfold revisedPage
  split <;> rfl

theorem revisedPage_content (write : PageWrite) :
    (revisedPage write page).contentMd = write.contentMd := by
  unfold revisedPage
  split
  · rename_i hretry
    simp only [isExactRetry, Bool.and_eq_true, decide_eq_true_eq] at hretry
    exact hretry.1.1.1.1.1
  · rfl

theorem updatePage_pages {write : PageWrite} {slug : String} {outcome : PageWriteOutcome}
    (hpages : db.pages.Keyed) (hpage : page ∈ db.pages)
    (h : updatePage db page write slug = .ok (outcome, db')) :
    outcome.page = some (revisedPage write page) ∧
      db'.pages = db.pages.put (revisedPage write page) := by
  simp only [updatePage, bind_ok] at h
  obtain ⟨-, -, h⟩ := h
  unfold revisedPage
  split at h
  · rename_i hretry
    simp only [pure_ok, Prod.mk.injEq] at h
    obtain ⟨rfl, rfl⟩ := h
    rw [if_pos hretry, Table.put_self hpages (hpages.get_of_mem hpage)]
    exact ⟨rfl, rfl⟩
  · rename_i hretry
    simp only [bind_ok, pure_ok, Prod.mk.injEq] at h
    obtain ⟨revisions, -, rfl, rfl⟩ := h
    rw [if_neg hretry]
    exact ⟨rfl, rfl⟩

/-- An approval revises the page that owns the identity of its write, or adds one. -/
inductive Materialises (env : Platform) (db : Database) (write : PageWrite) (page : WikiPage)
    (pages : Table WikiPage) : Prop
  | revises (old : WikiPage) (found : writtenPage env db.pages write = some old)
      (page_eq : page = revisedPage write old) (pages_eq : pages = db.pages.put page)
  | adds (free : db.pages.get page.id = none) (missing : writtenPage env db.pages write = none)
      (content : page.contentMd = write.contentMd) (pages_eq : pages = db.pages ++ [page])

theorem writePage_materialises {write : PageWrite} {outcome : PageWriteOutcome}
    (hpages : db.pages.Keyed) (h : writePage env db pageId write = .ok (outcome, db'))
    (hpage : outcome.page = some page) : Materialises env db write page db'.pages := by
  simp only [writePage, bind_ok] at h
  obtain ⟨-, -, -, -, h⟩ := h
  split at h
  · rename_i old hlock
    obtain ⟨houtcome, hput⟩ := updatePage_pages hpages (List.mem_of_find?_eq_some hlock) h
    rw [houtcome, Option.some.injEq] at hpage
    refine .revises old hlock hpage.symm ?_
    rw [← hpage]
    exact hput
  · rename_i hlock
    split at h
    · have hinsert := insertPage_ok h
      rw [hinsert.page_eq, Option.some.injEq] at hpage
      subst hpage
      exact .adds hinsert.idFree hlock rfl hinsert.pages_eq
    · simp only [pure_ok, Prod.mk.injEq] at h
      rw [← h.1] at hpage
      cases hpage

theorem materialise_materialises (hpages : db.pages.Keyed)
    (h : materialise env db draft approval pageId = .ok (page, db')) :
    ∃ write, requestedWrite env db draft approval = some write ∧
      write.contentMd = approval.finalContent draft ∧ Materialises env db write page db'.pages := by
  unfold materialise at h
  unfold requestedWrite
  split at h
  · rename_i hkind
    rw [if_pos hkind]
    obtain ⟨metadata, scopeType, sourceIds, created, revisions, hcheck, -, hsources, hcreate, -, rfl⟩ :=
      approveCreate_ok h
    obtain ⟨outcome, hpage, hwrite⟩ := applyCreate_ok hcreate
    have hwritten := writePage_materialises hpages hwrite hpage
    rw [hcheck, hsources]
    exact ⟨_, rfl, rfl, hwritten⟩
  · rename_i hkind
    rw [if_neg hkind]
    obtain ⟨target, sourceIds, outcome, htarget, -, hsources, hwrite, hpage⟩ := approveEdit_ok h
    rw [htarget, hsources]
    exact ⟨_, rfl, rfl, writePage_materialises hpages hwrite hpage⟩

theorem Materialises.get_page {write : PageWrite} {pages : Table WikiPage} (hpages : db.pages.Keyed)
    (h : Materialises env db write page pages) : pages.get page.id = some page := by
  cases h with
  | revises old hfound hpage heq =>
    have hold : db.pages.get page.id = some old := by
      rw [hpage, revisedPage_id]
      exact hpages.get_of_mem (List.mem_of_find?_eq_some hfound)
    rw [heq, Table.get_put, hold]
    exact if_pos rfl
  | adds hfree _ _ heq =>
    rw [heq]
    exact Table.get_append_self hfree

theorem Materialises.keyed {write : PageWrite} {pages : Table WikiPage} (hpages : db.pages.Keyed)
    (h : Materialises env db write page pages) : pages.Keyed := by
  cases h with
  | revises old hfound hpage heq =>
    rw [heq]
    exact hpages.put page
  | adds hfree _ _ heq =>
    rw [heq]
    exact hpages.append hfree

/-- A page that is there already is revised when the write finds it, and kept otherwise. -/
theorem Materialises.get_old {write : PageWrite} {pages : Table WikiPage} {old : WikiPage}
    {id : Uuid} (hpages : db.pages.Keyed) (h : Materialises env db write page pages)
    (hold : db.pages.get id = some old) :
    pages.get id =
      some (if writtenPage env db.pages write = some old then revisedPage write old else old) := by
  cases h with
  | revises found hfound hpage heq =>
    have hget := hpages.get_of_mem (List.mem_of_find?_eq_some hfound)
    have hid : Row.key page = Row.key found := by
      rw [hpage]
      exact revisedPage_id write
    rw [heq, Table.get_put, hold, hfound, hid]
    by_cases hsame : Row.key found = id
    · rw [← hsame, hget, Option.some.injEq] at hold
      rw [if_pos hsame, if_pos (congrArg some hold), hpage, hold]
      rfl
    · have hne : some found ≠ some old := by
        intro heq
        rw [Option.some.inj heq] at hsame
        exact hsame (Table.get_key hold)
      rw [if_neg hsame, if_neg hne]
  | adds _ hmissing _ heq =>
    rw [heq, hmissing, if_neg (by simp)]
    exact Table.get_append_of_some hold

/-- The columns that place a page. -/
structure SamePlace (old new : WikiPage) : Prop where
  scopeType : new.scopeType = old.scopeType
  scopeId : new.scopeId = old.scopeId
  language : new.language = old.language

theorem SamePlace.refl (page : WikiPage) : SamePlace page page := ⟨rfl, rfl, rfl⟩

theorem SamePlace.trans {a b c : WikiPage} (h : SamePlace a b) (h' : SamePlace b c) :
    SamePlace a c :=
  ⟨h'.scopeType.trans h.scopeType, h'.scopeId.trans h.scopeId, h'.language.trans h.language⟩

theorem revisedPage_place (write : PageWrite) : SamePlace page (revisedPage write page) := by
  unfold revisedPage
  split
  · exact .refl page
  · exact ⟨rfl, rfl, rfl⟩

/-- The pages of the store keep their place, and their versions only rise. -/
structure Grows (db s : Database) : Prop where
  keyed : s.pages.Keyed
  sources : s.sources = db.sources
  sourceDepartments : s.sourceDepartments = db.sourceDepartments
  pages : ∀ {id page}, db.pages.get id = some page →
    ∃ grown, s.pages.get id = some grown ∧ page.version ≤ grown.version ∧ SamePlace page grown

theorem Grows.refl (hpages : db.pages.Keyed) : Grows db db :=
  ⟨hpages, rfl, rfl, fun h => ⟨_, h, le_rfl, .refl _⟩⟩

theorem Grows.trans (h : Grows db s) (h' : Grows s s') : Grows db s' := by
  refine ⟨h'.keyed, h'.sources.trans h.sources, h'.sourceDepartments.trans h.sourceDepartments, ?_⟩
  intro id page hpage
  obtain ⟨grown, hgrown, hversion, hplace⟩ := h.pages hpage
  obtain ⟨last, hlast, hversion', hplace'⟩ := h'.pages hgrown
  exact ⟨last, hlast, hversion.trans hversion', hplace.trans hplace'⟩

theorem Grows.validate {grown : WikiPage} (h : Grows db s) (hplace : SamePlace page grown) :
    validateCompilerDraftContext env s draft (some grown) =
      validateCompilerDraftContext env db draft (some page) := by
  simp only [validateCompilerDraftContext, h.sources, h.sourceDepartments, hplace.scopeType,
    hplace.scopeId, hplace.language]

/-- The rows of the drafts that are still to be approved. -/
structure Ready (db : Database) (drafts : List WikiPageDraft) : Prop where
  pages : db.pages.Keyed
  rows : ∀ draft ∈ drafts, db.drafts.get draft.id = some draft
  distinct : (drafts.map WikiPageDraft.id).Nodup

/-- What one iteration of the merge loop does. -/
structure Approves (env : Platform) (merge : Merge) (s : Database) (draft : WikiPageDraft)
    (s' : Database) (page : WikiPage) (written : Database) : Prop where
  pending : draft.status = .pending
  materialise : materialise env s draft merge.approval (merge.pageId draft.id) = .ok (page, written)
  drafts_eq : s'.drafts = s.drafts.put (approvedDraft draft merge.approval page merge.now)
  pages_eq : s'.pages = written.pages
  branches : s'.branches = s.branches
  sources : s'.sources = s.sources
  sourceDepartments : s'.sourceDepartments = s.sourceDepartments

theorem approveNext_ok (hrow : s.drafts.get draft.id = some draft)
    (h : approveNext env merge s draft = .ok s') :
    ∃ page written, Approves env merge s draft s' page written := by
  obtain ⟨found, page, written, row, ledger, hget, hpending, hpage, -, rfl⟩ := approveWikiDraft_ok h
  rw [hrow, Option.some.injEq] at hget
  subst hget
  have hframe := materialise_frame hpage
  exact ⟨page, written, hpending, hpage, rfl, rfl, hframe.branches, hframe.sources,
    hframe.sourceDepartments⟩

theorem Approves.materialises {written : Database} (hpages : s.pages.Keyed)
    (h : Approves env merge s draft s' page written) :
    ∃ write, requestedWrite env s draft merge.approval = some write ∧
      write.contentMd = draft.contentMd ∧ Materialises env s write page s'.pages := by
  rw [h.pages_eq]
  exact materialise_materialises hpages h.materialise

theorem approveNext_version {id : Uuid} {old : WikiPage} (hpages : s.pages.Keyed)
    (hrow : s.drafts.get draft.id = some draft) (h : approveNext env merge s draft = .ok s')
    (hold : s.pages.get id = some old) :
    ∃ new, s'.pages.get id = some new ∧ SamePlace old new ∧ new.version = old.version +
      if raisedPage env s draft merge.approval = some old then 1 else 0 := by
  obtain ⟨page, written, happroves⟩ := approveNext_ok hrow h
  obtain ⟨write, hwrite, -, hmaterialises⟩ := happroves.materialises hpages
  refine ⟨_, hmaterialises.get_old hpages hold, ?_, ?_⟩
  · split
    · exact revisedPage_place write
    · exact .refl old
  · have hraised : raisedPage env s draft merge.approval =
        (writtenPage env s.pages write).bind fun page =>
          if isExactRetry page write then none else some page := by
      rw [raisedPage, hwrite]
      rfl
    rw [hraised]
    split
    · rename_i hfound
      rw [hfound, Option.bind_some, revisedPage]
      split
      · simp
      · simp [PageWrite.applyTo]
    · rename_i hother
      have hkept : ((writtenPage env s.pages write).bind fun page =>
          if isExactRetry page write then none else some page) ≠ some old := by
        intro heq
        obtain ⟨found, hfound, heq⟩ := Option.bind_eq_some_iff.mp heq
        split at heq
        · cases heq
        · exact hother (hfound.trans heq)
      rw [if_neg hkept, Nat.add_zero]

theorem raisedPage_get (hpages : s.pages.Keyed)
    (h : raisedPage env s draft approval = some page) : s.pages.get page.id = some page := by
  obtain ⟨write, -, h⟩ := Option.bind_eq_some_iff.mp h
  obtain ⟨found, hfound, h⟩ := Option.bind_eq_some_iff.mp h
  split at h
  · cases h
  · cases h
    exact hpages.get_of_mem (List.mem_of_find?_eq_some hfound)

theorem approveNext_grows (hpages : s.pages.Keyed) (hrow : s.drafts.get draft.id = some draft)
    (h : approveNext env merge s draft = .ok s') : Grows s s' := by
  obtain ⟨page, written, happroves⟩ := approveNext_ok hrow h
  obtain ⟨write, -, -, hmaterialises⟩ := happroves.materialises hpages
  refine ⟨hmaterialises.keyed hpages, happroves.sources, happroves.sourceDepartments, ?_⟩
  intro id old hold
  obtain ⟨new, hnew, hplace, hversion⟩ := approveNext_version hpages hrow h hold
  exact ⟨new, hnew, by omega, hplace⟩

/-- An approval touches the row of its draft only. -/
theorem approveNext_row (hrow : s.drafts.get draft.id = some draft)
    (h : approveNext env merge s draft = .ok s') {id : Uuid} (hne : draft.id ≠ id) :
    s'.drafts.get id = s.drafts.get id := by
  obtain ⟨page, written, happroves⟩ := approveNext_ok hrow h
  rw [happroves.drafts_eq, Table.get_put]
  exact if_neg hne

theorem Ready.next (h : Ready s (draft :: drafts)) (hstep : approveNext env merge s draft = .ok s') :
    Ready s' drafts := by
  have hrow := h.rows draft List.mem_cons_self
  have hdistinct := h.distinct
  rw [List.map_cons, List.nodup_cons] at hdistinct
  refine ⟨(approveNext_grows h.pages hrow hstep).keyed, ?_, hdistinct.2⟩
  intro other hother
  have hne : draft.id ≠ other.id := by
    intro heq
    exact hdistinct.1 (heq ▸ List.mem_map_of_mem hother)
  rw [approveNext_row hrow hstep hne]
  exact h.rows other (List.mem_cons_of_mem draft hother)

/-- The state after some drafts of the branch: the others are still as they were. -/
structure MidMerge (db : Database) (rest : List WikiPageDraft) (s : Database) : Prop where
  ready : Ready s rest
  grows : Grows db s
  branches : s.branches = db.branches

theorem Ready.run {rest : List WikiPageDraft} (h : Ready db (drafts ++ rest))
    (hrun : drafts.foldlM (approveNext env merge) db = .ok s) : MidMerge db rest s := by
  induction drafts generalizing db with
  | nil =>
    rw [List.foldlM_nil, pure_ok] at hrun
    subst hrun
    exact ⟨h, .refl h.pages, rfl⟩
  | cons draft drafts ih =>
    rw [List.foldlM_cons, bind_ok] at hrun
    obtain ⟨next, hnext, hrun⟩ := hrun
    have hrow := h.rows draft List.mem_cons_self
    have hreached := ih (h.next hnext) hrun
    obtain ⟨page, written, happroves⟩ := approveNext_ok hrow hnext
    exact ⟨hreached.ready, (approveNext_grows h.pages hrow hnext).trans hreached.grows,
      hreached.branches.trans happroves.branches⟩

theorem Ready.row_kept (h : Ready db drafts)
    (hrun : drafts.foldlM (approveNext env merge) db = .ok s) {id : Uuid}
    (hother : id ∉ drafts.map WikiPageDraft.id) : s.drafts.get id = db.drafts.get id := by
  induction drafts generalizing db with
  | nil =>
    rw [List.foldlM_nil, pure_ok] at hrun
    rw [hrun]
  | cons draft drafts ih =>
    rw [List.foldlM_cons, bind_ok] at hrun
    obtain ⟨next, hnext, hrun⟩ := hrun
    rw [List.map_cons, List.mem_cons, not_or] at hother
    rw [ih (h.next hnext) hrun hother.2]
    exact approveNext_row (h.rows draft List.mem_cons_self) hnext (Ne.symm hother.1)

theorem approveNext_writes (hpages : s.pages.Keyed) (hrow : s.drafts.get draft.id = some draft)
    (h : approveNext env merge s draft = .ok s') : ∃ row page, Writes env s s' draft row page := by
  obtain ⟨page, written, happroves⟩ := approveNext_ok hrow h
  obtain ⟨write, hwrite, hcontent, hmaterialises⟩ := happroves.materialises hpages
  refine ⟨approvedDraft draft merge.approval page merge.now, page, ?_, rfl,
    hmaterialises.get_page hpages, ?_, ?_, ?_⟩
  · rw [happroves.drafts_eq, Table.get_put, hrow]
    exact if_pos rfl
  · rw [← hcontent]
    cases hmaterialises with
    | revises old _ hpage _ =>
      rw [hpage]
      exact revisedPage_content write
    | adds _ _ hadded _ => exact hadded
  · intro hkind
    exact if_pos hkind
  · intro hkind target htarget howns
    simp only [requestedWrite, if_neg hkind, htarget, Option.bind_eq_bind, Option.bind_some,
      Option.bind_eq_some_iff, Option.some.injEq] at hwrite
    obtain ⟨sourceIds, -, rfl⟩ := hwrite
    have hfound : writtenPage env s.pages (editWrite draft target (merge.approval.finalContent draft)
        sourceIds merge.approval.reviewerId merge.approval.reviewerNote) = some target := howns
    cases hmaterialises with
    | revises old hold hpage _ =>
      rw [hfound, Option.some.injEq] at hold
      rw [hpage, revisedPage_id, hold]
    | adds _ hmissing _ _ =>
      rw [hfound] at hmissing
      cases hmissing

/-- A page that has risen above a version was raised from that very version. -/
theorem Ready.crosses {rest : List WikiPageDraft} {id : Uuid} {base : Nat} {old new : WikiPage}
    (h : Ready db (drafts ++ rest)) (hrun : drafts.foldlM (approveNext env merge) db = .ok s)
    (hold : db.pages.get id = some old) (hnew : s.pages.get id = some new)
    (hbelow : old.version ≤ base) (habove : base < new.version) :
    ∃ before earlier between middle page, drafts = before ++ earlier :: between ∧
      before.foldlM (approveNext env merge) db = .ok middle ∧
      (earlier :: between).foldlM (approveNext env merge) middle = .ok s ∧
      middle.pages.get id = some page ∧ page.version = base ∧
      raisedPage env middle earlier merge.approval = some page := by
  induction drafts generalizing db old with
  | nil =>
    rw [List.foldlM_nil, pure_ok] at hrun
    subst hrun
    rw [hold, Option.some.injEq] at hnew
    subst hnew
    omega
  | cons draft drafts ih =>
    have hstep := hrun
    rw [List.foldlM_cons, bind_ok] at hstep
    obtain ⟨next, hnext, hrest⟩ := hstep
    obtain ⟨raised, hraised, -, hversion⟩ :=
      approveNext_version h.pages (h.rows draft List.mem_cons_self) hnext hold
    by_cases hbase : raised.version ≤ base
    · obtain ⟨before, earlier, between, middle, page, rfl, hbefore, hafter, hpage⟩ :=
        ih (h.next hnext) hrest hraised hbase
      refine ⟨draft :: before, earlier, between, middle, page, rfl, ?_, hafter, hpage⟩
      rw [List.foldlM_cons, hnext, ok_bind, hbefore]
    · have hcrossed : raisedPage env db draft merge.approval = some old := by
        by_contra hkept
        rw [if_neg hkept] at hversion
        omega
      rw [if_pos hcrossed] at hversion
      exact ⟨[], draft, drafts, db, old, rfl, rfl, hrun, hold, by omega, hcrossed⟩

end Step

section Conflict

variable {current : Nat} {base : Int} {finalContent : String} {reviewerId : Uuid}
  {reviewerNote : Option String}

theorem approveEdit_conflict :
    approveEdit env db draft finalContent reviewerId reviewerNote none false =
      .error (.draftConflict current base) ↔
    ∃ page, draft.pageId.bind db.pages.get = some page ∧
      validateCompilerDraftContext env db draft (some page) = .ok () ∧
      draft.baseVersion = some base ∧ base < page.version ∧ page.version = current := by
  constructor
  · intro h
    unfold approveEdit at h
    split at h
    · cases h
    · rename_i page hpage
      rw [bind_error] at h
      rcases h with h | ⟨⟨⟩, hvalid, h⟩
      · cases validateCompilerDraftContext_noConflict.never _ h
      · rw [bind_error] at h
        rcases h with h | ⟨⟨⟩, -, h⟩
        · simp only [require_error, Bool.false_eq_true, Option.isSome_none, false_or,
            ReviewError.draftConflict.injEq] at h
          obtain ⟨hstale, hcurrent, hbase⟩ := h
          cases hdraft : draft.baseVersion with
          | none => simp [hdraft] at hstale
          | some started =>
            rw [hdraft, Option.getD_some] at hbase
            simp only [hdraft, Option.all_some, decide_eq_true_eq, not_le] at hstale
            exact ⟨page, hpage, hvalid, congrArg some hbase, hbase ▸ hstale, hcurrent⟩
        · have hreported : isConflict (.draftConflict current base) = false := by
            refine NoConflict.never ?_ _ h
            apply draftSourceIds_noConflict.bind
            intro sourceIds
            apply writePage_noConflict.bind
            rintro ⟨outcome, written⟩
            dsimp only
            split
            · exact noConflict_throw (by rfl)
            · exact noConflict_ok _
          cases hreported
  · rintro ⟨page, hpage, hvalid, hbase, hstale, rfl⟩
    unfold approveEdit
    rw [hpage]
    dsimp only
    rw [hvalid, ok_bind, bind_error]
    left
    simp [hbase, hstale]

/-- A draft is refused for its base when it edits a page that is newer. -/
theorem approveNext_conflict (hrow : s.drafts.get draft.id = some draft) :
    approveNext env merge s draft = .error (.draftConflict current base) ↔
      draft.status = .pending ∧ draft.draftKind ≠ "create" ∧
      ∃ page, draft.pageId.bind s.pages.get = some page ∧
        validateCompilerDraftContext env s draft (some page) = .ok () ∧
        draft.baseVersion = some base ∧ base < page.version ∧ page.version = current := by
  constructor
  · intro h
    obtain ⟨hpending, h⟩ := approveWikiDraft_error hrow h rfl
    unfold materialise at h
    split at h
    · obtain ⟨_, _, _, _, _, herror⟩ := approveCreate_conflict h rfl
      cases herror
    · rename_i hkind
      exact ⟨hpending, hkind, approveEdit_conflict.mp h⟩
  · rintro ⟨hpending, hkind, hpage⟩
    have hfetch : fetch "wiki_page_drafts" s.drafts draft.id = .ok draft := fetch_ok.mpr hrow
    have hrefused : materialise env s draft merge.approval (merge.pageId draft.id) =
        .error (.draftConflict current base) := by
      rw [materialise, if_neg hkind]
      exact approveEdit_conflict.mpr hpage
    change approveWikiDraft env s draft.id merge.approval (merge.pageId draft.id) _ _ = _
    rw [approveWikiDraft, hfetch, ok_bind, require_of hpending, ok_bind, hrefused]
    rfl

end Conflict

section Preflight

theorem staleBase_none {pages : Table WikiPage} {base : Int} (hkind : draft.draftKind = "edit")
    (hpage : draft.pageId.bind pages.get = some page) (hbase : draft.baseVersion = some base)
    (h : staleBase pages draft = none) : page.version ≤ base := by
  obtain ⟨target, htarget, hpage⟩ := Option.bind_eq_some_iff.mp hpage
  simpa [staleBase, hkind, htarget, hpage, hbase] using h

theorem runMerge_ok (h : runMerge env merge db branchId = (.ok (), db')) :
    ∃ branch merged, db.branches.get branchId = some branch ∧
      (loadBranchDrafts db.drafts branchId).foldlM (approveNext env merge) db = .ok merged ∧
      db' = { merged with branches := merged.branches.put (merge.merged branch) } := by
  unfold runMerge at h
  cases hfetch : fetch "wiki_branches" db.branches branchId with
  | error error =>
    rw [hfetch] at h
    cases h
  | ok branch =>
    rw [hfetch] at h
    dsimp only at h
    split at h
    · split at h
      · cases h
      · unfold nested at h
        split at h
        · rename_i hblock
          cases h
          rw [bind_ok] at hblock
          obtain ⟨merged, hloop, hmerged⟩ := hblock
          cases hmerged
          exact ⟨branch, merged, fetch_ok.mp hfetch, hloop, rfl⟩
        · cases h
    · cases h

/-- An exception leaves every table but that of the branches. -/
theorem runMerge_error {error : ReviewError}
    (h : runMerge env merge db branchId = (.error error, db')) :
    ∃ branches, db' = { db with branches := branches } := by
  unfold runMerge at h
  split at h
  · cases h
    exact ⟨_, rfl⟩
  · split at h
    · dsimp only at h
      split at h
      · cases h
        exact ⟨_, rfl⟩
      · unfold nested at h
        split at h
        · cases h
        · cases h
          exact ⟨_, rfl⟩
    · cases h
      exact ⟨_, rfl⟩

/-- Past the preflight, the merge raises what the loop raises. -/
theorem runMerge_conflict {branch : WikiBranch} {current : Nat} {base : Int}
    (hbranch : db.branches.get branchId = some branch) (hstatus : branch.status = .pendingMerge)
    (hfresh : (loadBranchDrafts db.drafts branchId).findSome? (staleBase db.pages) = none) :
    (runMerge env merge db branchId).1 = .error (.draftConflict current base) ↔
      (loadBranchDrafts db.drafts branchId).foldlM (approveNext env merge) db =
        .error (.draftConflict current base) := by
  have hfetch : fetch "wiki_branches" db.branches branchId = .ok branch := fetch_ok.mpr hbranch
  unfold runMerge
  rw [hfetch]
  dsimp only
  rw [if_pos hstatus, hfresh]
  dsimp only
  cases (loadBranchDrafts db.drafts branchId).foldlM (approveNext env merge) db with
  | error error =>
    change Except.error error = Except.error _ ↔ _
    rw [Except.error.injEq, Except.error.injEq]
  | ok merged =>
    constructor
    · intro h
      cases h
    · intro h
      cases h

end Preflight

section Whole

variable {branch : WikiBranch}

theorem ready_branch (hdrafts : db.drafts.Keyed) (hpages : db.pages.Keyed) :
    Ready db (loadBranchDrafts db.drafts branchId) := by
  refine ⟨hpages, ?_, hdrafts.nodup_keys_filter _⟩
  intro draft hdraft
  exact hdrafts.get_of_mem (List.mem_of_mem_filter hdraft)

/-- The preflight has passed, and a draft is refused for its base after all: an earlier one has
raised its page. -/
theorem overtaken_of_conflict {current : Nat} {base : Int}
    (hready : Ready db (loadBranchDrafts db.drafts branchId))
    (hkinds : ∀ draft ∈ loadBranchDrafts db.drafts branchId,
      draft.draftKind = "create" ∨ draft.draftKind = "edit")
    (hforeign : ∀ draft ∈ loadBranchDrafts db.drafts branchId,
      draft.pageId.all fun id => (db.pages.get id).isSome)
    (hfresh : (loadBranchDrafts db.drafts branchId).findSome? (staleBase db.pages) = none)
    (hloop : (loadBranchDrafts db.drafts branchId).foldlM (approveNext env merge) db =
      .error (.draftConflict current base)) : Overtaken env merge db branchId := by
  obtain ⟨passed, draft, after, s, hdrafts, hpassed, hrefused⟩ := foldlM_error.mp hloop
  have hmem : draft ∈ loadBranchDrafts db.drafts branchId := by
    rw [hdrafts]
    exact List.mem_append_right _ List.mem_cons_self
  rw [hdrafts] at hready
  have hmid := hready.run hpassed
  obtain ⟨hpending, hcreate, new, hnew, hvalid, hbase, hstale, -⟩ :=
    (approveNext_conflict (hmid.ready.rows draft List.mem_cons_self)).mp hrefused
  have hedit := (hkinds draft hmem).resolve_left hcreate
  obtain ⟨id, hid, hnew⟩ := Option.bind_eq_some_iff.mp hnew
  have hexists := hforeign draft hmem
  rw [hid, Option.all_some, Option.isSome_iff_exists] at hexists
  obtain ⟨old, hold⟩ := hexists
  have hbelow : (old.version : Int) ≤ base := by
    apply staleBase_none hedit _ hbase (List.findSome?_eq_none_iff.mp hfresh draft hmem)
    rw [hid, Option.bind_some, hold]
  obtain ⟨version, rfl⟩ := Int.eq_ofNat_of_zero_le ((Int.natCast_nonneg _).trans hbelow)
  have hfirst : old.version ≤ version := by omega
  have hlast : version < new.version := by omega
  obtain ⟨before, earlier, between, middle, page, rfl, hbefore, hafter, hpage, hversion, hraised⟩ :=
    hready.crosses hpassed hold hnew hfirst hlast
  refine ⟨before, earlier, between, draft, after, middle, page, ?_, hbefore, hraised, ⟨s, hafter⟩,
    hedit, ?_, ?_, hpending, ?_⟩
  · rw [hdrafts, List.append_assoc]
    rfl
  · rw [hid, ← Table.get_key hpage]
    rfl
  · rw [hbase, hversion]
  · rw [List.append_assoc] at hready
    have hmiddle := hready.run hbefore
    have hgrows := (hmiddle.ready.run hafter).grows
    obtain ⟨grown, hgrown, -, hplace⟩ := hgrows.pages hpage
    rw [hnew, Option.some.injEq] at hgrown
    subst hgrown
    rw [← hgrows.validate hplace]
    exact hvalid

theorem conflict_of_overtaken (hready : Ready db (loadBranchDrafts db.drafts branchId))
    (hovertaken : Overtaken env merge db branchId) :
    ∃ current base, (loadBranchDrafts db.drafts branchId).foldlM (approveNext env merge) db =
      .error (.draftConflict current base) := by
  obtain ⟨before, earlier, between, draft, after, s, page, hdrafts, hover⟩ := hovertaken
  obtain ⟨last, hlast⟩ := hover.continues
  rw [hdrafts] at hready ⊢
  have hmid := (hready.run hover.reached).ready
  have hget := raisedPage_get hmid.pages hover.raised
  have hsteps := hlast
  rw [List.foldlM_cons, bind_ok] at hsteps
  obtain ⟨next, hnext, hrun⟩ := hsteps
  obtain ⟨new, hnew, hplace, hversion⟩ :=
    approveNext_version hmid.pages (hmid.rows earlier List.mem_cons_self) hnext hget
  rw [if_pos hover.raised] at hversion
  have hend := (hmid.next hnext).run hrun
  obtain ⟨grown, hgrown, hrises, hplace'⟩ := hend.grows.pages hnew
  have hwhole : MidMerge s (draft :: after) last := Ready.run hmid hlast
  have hgrows := hwhole.grows
  have hrefused : approveNext env merge last draft =
      .error (.draftConflict grown.version page.version) := by
    rw [approveNext_conflict (hend.ready.rows draft List.mem_cons_self)]
    refine ⟨hover.pending, ?_, grown, ?_, ?_, hover.based, by omega, rfl⟩
    · rw [hover.edit]
      decide
    · rw [hover.target, Option.bind_some, hgrown]
    · rw [hgrows.validate (hplace.trans hplace')]
      exact hover.valid
  refine ⟨_, _, foldlM_error.mpr ⟨before ++ earlier :: between, draft, after, last, ?_, ?_, hrefused⟩⟩
  · rw [List.append_assoc]
    rfl
  · exact foldlM_append_ok.mpr ⟨s, hover.reached, hlast⟩

theorem mergesWhole_iff (hdrafts : db.drafts.Keyed) (hpages : db.pages.Keyed)
    (hkinds : ∀ draft ∈ loadBranchDrafts db.drafts branchId,
      draft.draftKind = "create" ∨ draft.draftKind = "edit")
    (hforeign : ∀ draft ∈ loadBranchDrafts db.drafts branchId,
      draft.pageId.all fun id => (db.pages.get id).isSome)
    (hbranch : db.branches.get branchId = some branch) (hstatus : branch.status = .pendingMerge) :
    MergesWhole env merge db branchId ↔
      ((loadBranchDrafts db.drafts branchId).findSome? (staleBase db.pages) = none →
        ¬ Overtaken env merge db branchId) := by
  have hready : Ready db (loadBranchDrafts db.drafts branchId) := ready_branch hdrafts hpages
  constructor
  · intro h hfresh hovertaken
    obtain ⟨current, base, hloop⟩ := conflict_of_overtaken hready hovertaken
    exact h.exact hfresh current base ((runMerge_conflict hbranch hstatus hfresh).mpr hloop)
  · intro hclear
    constructor
    case merged =>
      intro db' h
      obtain ⟨found, merged, hfound, hloop, rfl⟩ := runMerge_ok h
      rw [← List.append_nil (loadBranchDrafts db.drafts branchId)] at hready
      refine ⟨merge.merged found, ?_, rfl⟩
      rw [Table.get_put, (hready.run hloop).branches, hfound]
      exact if_pos (Table.get_key hfound)
    case approved =>
      intro db' h before draft after heq
      obtain ⟨found, merged, -, hloop, rfl⟩ := runMerge_ok h
      rw [heq] at hready hloop
      obtain ⟨s, hbefore, hrest⟩ := foldlM_append_ok.mp hloop
      rw [List.foldlM_cons, bind_ok] at hrest
      obtain ⟨s', hstep, hrest⟩ := hrest
      have hmid := (hready.run hbefore).ready
      have hrow := hmid.rows draft List.mem_cons_self
      obtain ⟨row, page, hwrites⟩ := approveNext_writes hmid.pages hrow hstep
      have hdistinct := hmid.distinct
      rw [List.map_cons, List.nodup_cons] at hdistinct
      refine ⟨⟨row, ?_, hwrites.approved⟩, s, s', row, page, hbefore, hstep, hwrites⟩
      exact ((hmid.next hstep).row_kept hrest hdistinct.1).trans hwrites.row_eq
    case unchanged =>
      intro error db' h
      obtain ⟨branches, rfl⟩ := runMerge_error h
      exact ⟨rfl, rfl, rfl, rfl, rfl⟩
    case guarded =>
      intro before draft after s s' page base heq hbefore hstep hkind hpage hbase
      rw [heq] at hready
      have hmid := (hready.run hbefore).ready
      obtain ⟨written, after', happroves⟩ :=
        approveNext_ok (hmid.rows draft List.mem_cons_self) hstep
      have hmaterialise := happroves.materialise
      rw [materialise, if_neg (by rw [hkind]; decide)] at hmaterialise
      obtain ⟨target, sourceIds, outcome, htarget, hbelow, -⟩ := approveEdit_ok hmaterialise
      rw [hpage, Option.some.injEq] at htarget
      subst htarget
      simpa [hbase, Merge.approval] using hbelow
    case exact =>
      intro hfresh current base h
      rw [runMerge_conflict hbranch hstatus hfresh] at h
      exact hclear hfresh (overtaken_of_conflict hready hkinds hforeign hfresh h)

end Whole

/-- Lower-case slugs stay as they are. -/
def mergePlatform : Platform := ⟨id, id, fun _ => "", fun _ => ""⟩

def sharedMerge : Merge :=
  { reviewer := ⟨11, "reviewer"⟩, pageId := id, eventId := fun draftId => draftId + 100, now := 0 }

def sharedPage : WikiPage :=
  { id := 1, slug := "refunds", title := "Refunds", contentMd := "# Refunds",
    normalizedPath := "refunds" }

/-- An edit of the shared page, in review. -/
def sharedEdit (id : Uuid) (contentMd : String) (base : Int) : WikiPageDraft :=
  { id := id, pageId := some 1, contentMd := contentMd, baseVersion := some base,
    branchId := some 20 }

/-- A draft is in review when its proposal is followed by a request. -/
def reviewRequest (draftId : Uuid) : GovernanceLedgerEvent :=
  { id := draftId + 50, draftId := draftId, sequence := 1, eventType := .reviewRequested,
    fromState := some .draft, toState := .inReview, actorId := none,
    idempotencyKey := transitionKey draftId .reviewRequested, reason := none, payload := [] }

/-- A branch with two edits of one page. -/
def sharedBranch (secondBase : Int) : Database :=
  { pages := [sharedPage]
    revisions := [
      { pageId := 1, version := 1, contentMd := "# Refunds", changeType := "agent_compile" }]
    branches := [{ id := 20, authorId := 7, status := .pendingMerge }]
    drafts := [sharedEdit 2 "# Refunds within 30 days" 1,
      sharedEdit 3 "# Refunds within 60 days" secondBase]
    ledger := [reviewRequest 2, reviewRequest 3] }

theorem ascending_edits_merge :
    MergesWhole mergePlatform sharedMerge (sharedBranch 2) 20 := by
  have hkeyed : (sharedBranch 2).drafts.Keyed := by
    rw [Table.Keyed]
    decide
  have hpages : (sharedBranch 2).pages.Keyed := List.nodup_singleton _
  apply (mergesWhole_iff hkeyed hpages _ _ rfl rfl).mpr
  · rintro - ⟨before, earlier, between, draft, after, s, page, hdrafts, hover⟩
    have hbranch : loadBranchDrafts (sharedBranch 2).drafts 20 = (sharedBranch 2).drafts := rfl
    rw [hbranch] at hdrafts
    have hlength := congrArg List.length hdrafts
    simp only [sharedBranch, List.length_append, List.length_cons, List.length_nil] at hlength
    obtain rfl : before = [] := List.eq_nil_of_length_eq_zero (by omega)
    obtain rfl : between = [] := List.eq_nil_of_length_eq_zero (by omega)
    obtain rfl : sharedBranch 2 = s := pure_ok.mp hover.reached
    have hpage := Table.get_mem (raisedPage_get hpages hover.raised)
    have hbased := hover.based
    rw [List.mem_singleton.mp hpage] at hbased
    cases hdrafts
    cases hbased
  · decide
  · decide

theorem second_edit_overtaken :
    ¬ MergesWhole mergePlatform sharedMerge (sharedBranch 1) 20 := by
  intro h
  have hrun : (match (runMerge mergePlatform sharedMerge (sharedBranch 1) 20).1 with
      | .error error => decide (error = .draftConflict 2 1)
      | .ok _ => false) = true := by
    decide +kernel
  have hfresh : (loadBranchDrafts (sharedBranch 1).drafts 20).findSome?
      (staleBase (sharedBranch 1).pages) = none := by
    decide +kernel
  split at hrun
  · rename_i error herror
    rw [of_decide_eq_true hrun] at herror
    exact h.exact hfresh 2 1 herror
  · cases hrun

end Cygnus.Review
