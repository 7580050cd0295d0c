import Cygnus.Review.Approval

/-! Branches: drafts that are submitted, closed and merged together. -/

namespace Cygnus.Review

open Wiki Governance Text Result Sequence

def loadBranchDrafts (drafts : Table WikiPageDraft) (branchId : Uuid) : List WikiPageDraft :=
  drafts.filter (·.branchId = some branchId)

/-- The page an edit draft has fallen behind, with the version the draft started from. -/
def staleBase (pages : Table WikiPage) (draft : WikiPageDraft) : Option (WikiPage × Int) := do
  let pageId ← if draft.draftKind = "edit" then draft.pageId else none
  let page ← pages.get pageId
  let base ← draft.baseVersion
  if base < page.version then some (page, base) else none

def hasBranchConflict (db : Database) (branchId : Uuid) : Bool :=
  (loadBranchDrafts db.drafts branchId).any fun draft => (staleBase db.pages draft).isSome

/-- A draft as `submit_wiki_branch` leaves it. -/
def intoReview (draft : WikiPageDraft) : WikiPageDraft :=
  if draft.status = .pending then draft
  else { draft with
    status := .pending, aiCheckStatus := "pending", aiCheckResults := none, aiCheckedAt := none }

def submitBranchDraft (db : Database) (draftId : Uuid) : Transaction Database := do
  let draft ← fetch "wiki_page_drafts" db.drafts draftId
  let submitted := intoReview draft
  let preReviews ← stageAiPreReview db.preReviews submitted
  return { db with drafts := db.drafts.put submitted, preReviews := preReviews }

def submitWikiBranch (db : Database) (branchId : Uuid) (actor : Actor) : Transaction Database := do
  let branch ← fetch "wiki_branches" db.branches branchId
  require (isAuthorOrAdmin (some branch.authorId) actor)
    (.invalidTransition "Only the branch author may submit this request")
  require (branch.status = .draft) (.invalidTransition
    s!"Cannot submit for merge while the branch is in '{branch.status.value}' state")
  let draftIds := (loadBranchDrafts db.drafts branchId).map WikiPageDraft.id
  require (draftIds ≠ []) (.invalidTransition
    "Your contribution branch is empty. Add a page draft before submitting.")
  let db ← draftIds.foldlM submitBranchDraft db
  return { db with branches := db.branches.put { branch with status := .pendingMerge } }

/-- The author and administrators withdraw through the ledger; a reviewer who closes a branch of
someone else sets the column. -/
def closeBranchDraft (governed : Bool) (actor : Actor) (eventId : Uuid → Uuid) (db : Database)
    (draftId : Uuid) : Transaction Database := do
  let draft ← fetch "wiki_page_drafts" db.drafts draftId
  if draft.status ∉ [.pending, .needsRevision] then return db
  else if governed then withdraw db draftId actor (eventId draftId)
  else return { db with drafts := db.drafts.put { draft with status := .withdrawn } }

def closeWikiBranch (db : Database) (branchId : Uuid) (actor : Actor) (reviewerOverride : Bool)
    (eventId : Uuid → Uuid) : Transaction Database := do
  let branch ← fetch "wiki_branches" db.branches branchId
  let governed := decide (isAuthorOrAdmin (some branch.authorId) actor)
  require (governed ∨ reviewerOverride)
    (.invalidTransition "You do not have permission to close or cancel this branch")
  require (branch.status ∉ [.merged, .closed])
    (.invalidTransition "The branch is already closed or merged")
  let db ← ((loadBranchDrafts db.drafts branchId).map WikiPageDraft.id).foldlM
    (closeBranchDraft governed actor eventId) db
  return { db with branches := db.branches.put { branch with status := .closed } }

section Merge

variable (env : Platform)

def approveBranchDraft (reviewer : Actor) (reviewerNote : Option String) (pageId eventId : Uuid → Uuid)
    (now : Timestamp) (db : Database) (draftId : Uuid) : Transaction Database :=
  approveWikiDraft env db draftId { reviewerId := reviewer.id, reviewerNote := reviewerNote }
    (pageId draftId) (eventId draftId) now

def mergeWikiBranch (db : Database) (branchId : Uuid) (reviewer : Actor)
    (reviewerNote : Option String) (pageId eventId : Uuid → Uuid) (now : Timestamp) :
    Transaction Database := do
  let branch ← fetch "wiki_branches" db.branches branchId
  require (branch.status = .pendingMerge) (.invalidTransition
    "A branch can only be merged while it is in 'pending_merge' state")
  let drafts := loadBranchDrafts db.drafts branchId
  match drafts.findSome? (staleBase db.pages) with
  | some (page, base) => throw (.branchMergeConflict page.title page.slug page.version base)
  | none =>
    let db ← (drafts.map WikiPageDraft.id).foldlM
      (approveBranchDraft env reviewer reviewerNote pageId eventId now) db
    return { db with branches := db.branches.put { branch with
      status := .merged, reviewerId := some reviewer.id, reviewedAt := some now,
      reviewerNote := reviewerNote, hasConflict := false } }

def rebaseWikiBranchDraft (db : Database) (branchId draftId : Uuid) (author : Actor)
    (resolvedContentMd : String) (eventId : Uuid) : Transaction Database := do
  let branch ← fetch "wiki_branches" db.branches branchId
  let draft ← fetch "wiki_page_drafts" db.drafts draftId
  require (isAuthorOrAdmin (some branch.authorId) author)
    (.invalidTransition "Only the branch author may resolve conflicts")
  require (draft.branchId = some branchId) (.invalidTransition "Draft not found in this branch")
  require (isAuthorOrAdmin draft.authorId author)
    (.invalidTransition "Only the original author may resolve this draft conflict")
  require (branch.status = .pendingMerge)
    (.invalidTransition "A branch can only be rebased while it is pending merge")
  require (draft.status = .pending) (.invalidTransition "Only a pending draft can be rebased")
  match draft.pageId with
  | none => throw (.invalidTransition "New-page drafts do not need rebase")
  | some pageId =>
    match db.pages.get pageId with
    | none => throw (.valueError "Original wiki page not found")
    | some page =>
      require (draft.baseVersion.any fun base => base < (page.version : Int)) (.invalidTransition
        "Draft is already based on the current wiki page version")
      let rebased : WikiPageDraft := { draft with
        contentMd := resolvedContentMd, baseVersion := some page.version, status := .pending,
        aiCheckStatus := "pending", aiCheckResults := none, aiCheckedAt := none,
        version := draft.version + 1 }
      let (_, ledger) ← (recordDraftUpdate env db.ledger eventId rebased draft.version .inReview
        .inReview (some author.id) "branch_rebase" (some "branch conflict rebase")
        [("branch_id", .str branch.id.text), ("page_id", .str page.id.text),
          ("base_page_version", .int page.version)]).mapError asInvalidTransition
      let preReviews ← stageAiPreReview db.preReviews rebased
      let db := { db with
        drafts := db.drafts.put rebased, ledger := ledger, preReviews := preReviews }
      let branch := { branch with hasConflict := hasBranchConflict db branchId }
      return { db with branches := db.branches.put branch }

end Merge

end Cygnus.Review
