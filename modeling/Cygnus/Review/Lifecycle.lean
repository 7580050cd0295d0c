import Cygnus.Data.Machine
import Cygnus.Review.Agreement
import Cygnus.Review.Branches

/-! Runs of the review operations, each one transaction that is rolled back when it raises. -/

namespace Cygnus.Review

open Wiki Governance

inductive Call
  | createWikiDraft (new : NewDraft) (proposalId reviewId : Uuid)
  | updateWikiDraft (draftId : Uuid) (author : Actor) (edit : DraftEdit) (eventId : Uuid)
      (now : Timestamp)
  | submitWikiDraft (draftId : Uuid) (author : Actor) (expectedVersion : Int) (reviewType : String)
      (notes : Option String) (eventId : Uuid)
  | requestChanges (draftId : Uuid) (reviewer : Actor) (note : String) (eventId : Uuid)
  | resubmitWikiDraft (draftId : Uuid) (author : Actor) (newContentMd : String)
      (authorNote : Option String) (updateId resubmitId : Uuid) (now : Timestamp)
  | approveWikiDraft (draftId : Uuid) (approval : Approval) (pageId eventId : Uuid)
      (now : Timestamp)
  | rejectWikiDraft (draftId reviewerId : Uuid) (reviewerNote : String) (eventId : Uuid)
      (now : Timestamp)
  | withdraw (draftId : Uuid) (author : Actor) (eventId : Uuid)
  | invalidateStaleCompilerDrafts (sourceId : Uuid) (currentGeneration : Int) (reason : String)
      (eventId : Uuid → Uuid)
  | submitWikiBranch (branchId : Uuid) (actor : Actor)
  | closeWikiBranch (branchId : Uuid) (actor : Actor) (reviewerOverride : Bool)
      (eventId : Uuid → Uuid)
  | mergeWikiBranch (branchId : Uuid) (reviewer : Actor) (reviewerNote : Option String)
      (pageId eventId : Uuid → Uuid) (now : Timestamp)
  | rebaseWikiBranchDraft (branchId draftId : Uuid) (author : Actor) (resolvedContentMd : String)
      (eventId : Uuid)
  /-- Whatever the rest of the system writes to the tables the review operations only read. -/
  | elsewhere (pages : Table WikiPage) (revisions : List WikiPageRevision) (links : List WikiLink)
      (branches : Table WikiBranch) (sources : Table Source)
      (sourceDepartments : List SourceDepartment)

variable (env : Platform)

def perform : Call → Database → Transaction Database
  | .createWikiDraft new proposalId reviewId, db =>
    createWikiDraft env db new proposalId reviewId
  | .updateWikiDraft draftId author edit eventId now, db =>
    updateWikiDraft env db draftId author edit eventId now
  | .submitWikiDraft draftId author expectedVersion reviewType notes eventId, db =>
    submitWikiDraft db draftId author expectedVersion reviewType notes eventId
  | .requestChanges draftId reviewer note eventId, db =>
    requestChanges db draftId reviewer note eventId
  | .resubmitWikiDraft draftId author newContentMd authorNote updateId resubmitId now, db =>
    resubmitWikiDraft env db draftId author newContentMd authorNote updateId resubmitId now
  | .approveWikiDraft draftId approval pageId eventId now, db =>
    approveWikiDraft env db draftId approval pageId eventId now
  | .rejectWikiDraft draftId reviewerId reviewerNote eventId now, db =>
    rejectWikiDraft db draftId reviewerId reviewerNote eventId now
  | .withdraw draftId author eventId, db => withdraw db draftId author eventId
  | .invalidateStaleCompilerDrafts sourceId currentGeneration reason eventId, db =>
    invalidateStaleCompilerDrafts db sourceId currentGeneration reason eventId
  | .submitWikiBranch branchId actor, db => submitWikiBranch db branchId actor
  | .closeWikiBranch branchId actor reviewerOverride eventId, db =>
    closeWikiBranch db branchId actor reviewerOverride eventId
  | .mergeWikiBranch branchId reviewer reviewerNote pageId eventId now, db =>
    mergeWikiBranch env db branchId reviewer reviewerNote pageId eventId now
  | .rebaseWikiBranchDraft branchId draftId author resolvedContentMd eventId, db =>
    rebaseWikiBranchDraft env db branchId draftId author resolvedContentMd eventId
  | .elsewhere pages revisions links branches sources sourceDepartments, db =>
    .ok { db with
      pages := pages, revisions := revisions, links := links, branches := branches,
      sources := sources, sourceDepartments := sourceDepartments }

/-- The two branch operations write the status column past the ledger: submitting does so for every
draft that is not pending, closing for every open draft when neither the author nor an
administrator closes. A call is governed when no draft takes that path. -/
def Governed (db : Database) : Call → Prop
  | .submitWikiBranch branchId actor =>
    ∀ branch, db.branches.get branchId = some branch →
      isAuthorOrAdmin (some branch.authorId) actor → branch.status = .draft →
      ∀ draft ∈ loadBranchDrafts db.drafts branchId, draft.status = .pending
  | .closeWikiBranch branchId actor reviewerOverride _ =>
    ∀ branch, db.branches.get branchId = some branch →
      ¬ isAuthorOrAdmin (some branch.authorId) actor → reviewerOverride = true →
      branch.status ∉ [.merged, .closed] →
      ∀ draft ∈ loadBranchDrafts db.drafts branchId, draft.status ∉ [.pending, .needsRevision]
  | _ => True

/-- The latest ledger state of every draft is the one its status stands for. -/
def FollowsLedger (db : Database) : Prop :=
  ∀ id draft, db.drafts.get id = some draft →
    (getLatestDraftEvent db.ledger id).map GovernanceLedgerEvent.toState =
      some (governanceStateForDraftStatus draft.status)

/-- A draft that was approved, rejected or withdrawn still is. -/
def KeepsDecisions (before after : Database) : Prop :=
  ∀ id draft, before.drafts.get id = some draft → Decided draft.status →
    (after.drafts.get id).map WikiPageDraft.status = some draft.status

end Cygnus.Review
