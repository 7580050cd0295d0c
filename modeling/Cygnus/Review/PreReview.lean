import Cygnus.Dispatch.Outbox
import Cygnus.Review.LifecycleRuns

/-! AI pre-review: the outbox that the lifecycle fills, the sweeps that lease its rows to the queue,
and the worker runs. Every action is one transaction; locks make each wait for the one before it. -/

namespace Cygnus.Review.PreReview

open Wiki Text Result

inductive DispatchStatus
  | pending
  | dispatching
  | enqueued
  | running
  | completed
  | disabled
  | stale
  | failed
  deriving DecidableEq

structure WikiDraftAiPreReviewDispatch where
  id : Uuid
  draftId : Uuid
  draftVersion : Nat
  revisionRound : Nat
  jobId : String
  dispatchStatus : DispatchStatus := .pending
  attemptCount : Nat := 0
  lastError : Option String := none
  terminalReason : Option String := none
  nextAttemptAt : Option Timestamp := none
  leaseExpiresAt : Option Timestamp := none
  enqueuedAt : Option Timestamp := none
  completedAt : Option Timestamp := none

instance : Row WikiDraftAiPreReviewDispatch := ⟨WikiDraftAiPreReviewDispatch.id⟩

/-- A persisted lease on one row of the outbox. -/
structure AiPreReviewDispatchClaim where
  dispatchId : Uuid
  staged : PendingAiPreReview
  jobId : String
  attemptCount : Nat

def finalDraftAiStatuses : List String := ["passed", "warned", "failed", "skipped"]

def maxAiPreReviewEnqueueAttempts : Nat := 3
def dispatchLease : Nat := Dispatch.seconds 60
def enqueuedRecovery : Nat := Dispatch.seconds 300

def aiPreReviewJobId (staged : PendingAiPreReview) : String :=
  s!"ai-pre-review:{staged.draftId.text}:{staged.draftVersion}:{staged.revisionRound}"

def stagedFromDispatch (dispatch : WikiDraftAiPreReviewDispatch) : PendingAiPreReview :=
  ⟨dispatch.draftId, dispatch.draftVersion, dispatch.revisionRound⟩

def loadExpectedDispatch (rows : Table WikiDraftAiPreReviewDispatch)
    (expected : PendingAiPreReview) : Option WikiDraftAiPreReviewDispatch :=
  rows.find? fun row => stagedFromDispatch row = expected

/-- The insert of `stage_ai_pre_review`, which does nothing when the revision has its row. -/
def insertDispatch (rowId : PendingAiPreReview → Uuid) (rows : Table WikiDraftAiPreReviewDispatch)
    (staged : PendingAiPreReview) : Transaction (Table WikiDraftAiPreReviewDispatch) :=
  if (loadExpectedDispatch rows staged).isSome then .ok rows
  else rows.insert (.integrityError "wiki_draft_ai_pre_review_dispatches_pkey")
    { id := rowId staged, draftId := staged.draftId, draftVersion := staged.draftVersion,
      revisionRound := staged.revisionRound, jobId := aiPreReviewJobId staged }

def matchesDraftRevision (draft : WikiPageDraft) (staged : PendingAiPreReview) : Prop :=
  draft.status = .pending ∧ draft.version = staged.draftVersion ∧
    draft.revisionRound = staged.revisionRound

instance (draft : WikiPageDraft) (staged : PendingAiPreReview) :
    Decidable (matchesDraftRevision draft staged) := inferInstanceAs (Decidable (_ ∧ _))

def matchesPendingDraft (draft : WikiPageDraft) (staged : PendingAiPreReview) : Prop :=
  matchesDraftRevision draft staged ∧ draft.aiCheckStatus = "pending"

def matchesQueuedDraft (draft : WikiPageDraft) (staged : PendingAiPreReview) : Prop :=
  matchesDraftRevision draft staged ∧ draft.aiCheckStatus = "queued"

def hasTerminalDraftVerdict (draft : WikiPageDraft) (staged : PendingAiPreReview) : Prop :=
  matchesDraftRevision draft staged ∧ draft.aiCheckStatus ∈ finalDraftAiStatuses

instance (draft : WikiPageDraft) (staged : PendingAiPreReview) :
    Decidable (matchesPendingDraft draft staged) := inferInstanceAs (Decidable (_ ∧ _))

instance (draft : WikiPageDraft) (staged : PendingAiPreReview) :
    Decidable (matchesQueuedDraft draft staged) := inferInstanceAs (Decidable (_ ∧ _))

instance (draft : WikiPageDraft) (staged : PendingAiPreReview) :
    Decidable (hasTerminalDraftVerdict draft staged) := inferInstanceAs (Decidable (_ ∧ _))

/-- A draft with another AI status and no verdict. -/
def withAiStatus (draft : WikiPageDraft) (status : String) : WikiPageDraft :=
  { draft with aiCheckStatus := status, aiCheckResults := none, aiCheckedAt := none }

section Outbox

variable (now : Timestamp)

/-- Both modules mark a superseded row; only the text of the error differs. -/
def markStaleWith (error : String) (dispatch : WikiDraftAiPreReviewDispatch) :
    WikiDraftAiPreReviewDispatch :=
  { dispatch with
    dispatchStatus := .stale, terminalReason := some "stale_or_superseded", lastError := some error,
    nextAttemptAt := none, leaseExpiresAt := none, completedAt := some now }

def markStale : WikiDraftAiPreReviewDispatch → WikiDraftAiPreReviewDispatch :=
  markStaleWith now "staged draft revision is no longer current"

def markCompleted (dispatch : WikiDraftAiPreReviewDispatch) (reason : String) :
    WikiDraftAiPreReviewDispatch :=
  { dispatch with
    dispatchStatus := .completed, terminalReason := some reason, nextAttemptAt := none,
    leaseExpiresAt := none, completedAt := some now }

def claimDispatch (dispatch : WikiDraftAiPreReviewDispatch) :
    WikiDraftAiPreReviewDispatch × AiPreReviewDispatchClaim :=
  ({ dispatch with
      dispatchStatus := .dispatching, attemptCount := dispatch.attemptCount + 1,
      nextAttemptAt := none, leaseExpiresAt := some (now + dispatchLease), terminalReason := none },
    { dispatchId := dispatch.id, staged := stagedFromDispatch dispatch, jobId := dispatch.jobId,
      attemptCount := dispatch.attemptCount + 1 })

def dispatchIsDue (dispatch : WikiDraftAiPreReviewDispatch) : Bool :=
  match dispatch.dispatchStatus with
  | .pending => dispatch.nextAttemptAt.all (· ≤ now)
  | .dispatching | .enqueued => dispatch.leaseExpiresAt.all (· ≤ now)
  | _ => false

def clearStaleQueuedDraft (draft : WikiPageDraft) (staged : PendingAiPreReview) : WikiPageDraft :=
  if draft.version = staged.draftVersion ∧ draft.revisionRound = staged.revisionRound ∧
      draft.aiCheckStatus = "queued" then withAiStatus draft "skipped"
  else draft

/-- What a due row and its draft become in `_claim_due_dispatches`, with the lease it gives. -/
def claimDue (enabled : Bool) (draft : WikiPageDraft) (dispatch : WikiDraftAiPreReviewDispatch) :
    WikiPageDraft × WikiDraftAiPreReviewDispatch × Option AiPreReviewDispatchClaim :=
  let staged := stagedFromDispatch dispatch
  let leased := claimDispatch now dispatch
  if hasTerminalDraftVerdict draft staged then
    (draft, markCompleted now dispatch s!"draft_terminal_{draft.aiCheckStatus}", none)
  else if dispatch.dispatchStatus = .pending ∧ matchesPendingDraft draft staged then
    if enabled then (withAiStatus draft "queued", leased.1, some leased.2)
    else (withAiStatus draft "skipped",
      { dispatch with
        dispatchStatus := .disabled, terminalReason := some "config_disabled", lastError := none,
        nextAttemptAt := none, leaseExpiresAt := none, completedAt := some now }, none)
  else if matchesQueuedDraft draft staged then (draft, leased.1, some leased.2)
  else (clearStaleQueuedDraft draft staged, markStale now dispatch, none)

def ownsClaim (dispatch : WikiDraftAiPreReviewDispatch) (claim : AiPreReviewDispatchClaim) : Prop :=
  dispatch.dispatchStatus = .dispatching ∧ dispatch.attemptCount = claim.attemptCount

instance (dispatch : WikiDraftAiPreReviewDispatch) (claim : AiPreReviewDispatchClaim) :
    Decidable (ownsClaim dispatch claim) := inferInstanceAs (Decidable (_ ∧ _))

/-- `_acknowledge_enqueue`, on the rows it has locked. -/
def acknowledged (claim : AiPreReviewDispatchClaim) (draft : WikiPageDraft)
    (dispatch : WikiDraftAiPreReviewDispatch) : WikiPageDraft × WikiDraftAiPreReviewDispatch :=
  if hasTerminalDraftVerdict draft claim.staged then
    (draft, markCompleted now dispatch s!"draft_terminal_{draft.aiCheckStatus}")
  else if matchesQueuedDraft draft claim.staged then
    (draft, { dispatch with
      dispatchStatus := .enqueued, enqueuedAt := dispatch.enqueuedAt.or (some now),
      leaseExpiresAt := some (now + enqueuedRecovery), nextAttemptAt := none, lastError := none,
      terminalReason := none })
  else (clearStaleQueuedDraft draft claim.staged, markStale now dispatch)

def retryDelay (attemptCount : Nat) : Nat :=
  Dispatch.seconds (min (30 * 2 ^ (attemptCount - 1)) 300)

/-- `_record_enqueue_failure`, on the rows it has locked. -/
def enqueueFailed (claim : AiPreReviewDispatchClaim) (error : String) (draft : WikiPageDraft)
    (dispatch : WikiDraftAiPreReviewDispatch) : WikiPageDraft × WikiDraftAiPreReviewDispatch :=
  if hasTerminalDraftVerdict draft claim.staged then
    (draft, markCompleted now dispatch s!"draft_terminal_{draft.aiCheckStatus}")
  else if ¬ matchesQueuedDraft draft claim.staged then
    (clearStaleQueuedDraft draft claim.staged, markStale now dispatch)
  else if maxAiPreReviewEnqueueAttempts ≤ claim.attemptCount then
    (withAiStatus draft "skipped", { dispatch with
      dispatchStatus := .failed, terminalReason := some "enqueue_retry_exhausted",
      lastError := some error, nextAttemptAt := none, leaseExpiresAt := none,
      completedAt := some now })
  else
    (draft, { dispatch with
      dispatchStatus := .pending, lastError := some error,
      nextAttemptAt := some (now + retryDelay claim.attemptCount), leaseExpiresAt := none,
      terminalReason := none })

/-- `str(exc)[:1000] or type(exc).__name__`. -/
def errorText (message exceptionName : String) : String :=
  if message = "" then exceptionName else String.ofList (message.toList.take 1000)

end Outbox

section Runner

variable (now : Timestamp)

def markDispatchStale : WikiDraftAiPreReviewDispatch → WikiDraftAiPreReviewDispatch :=
  markStaleWith now "worker guard rejected a stale draft revision"

/-- How a run leaves a draft of its own revision that it did not claim. -/
def dropUnclaimed (draft : WikiPageDraft) (dispatch : WikiDraftAiPreReviewDispatch) :
    WikiDraftAiPreReviewDispatch :=
  if draft.aiCheckStatus ∈ finalDraftAiStatuses then
    markCompleted now dispatch s!"draft_terminal_{draft.aiCheckStatus}"
  else markDispatchStale now dispatch

/-- A worker between its two transactions: the identity its job named, and the two rows as its
session holds them. -/
structure Run where
  expected : PendingAiPreReview
  draft : WikiPageDraft
  dispatch : WikiDraftAiPreReviewDispatch

/-- The first transaction of `run_async_checks`, on an active row. -/
def startChecks (expected : PendingAiPreReview) (draft : WikiPageDraft)
    (dispatch : WikiDraftAiPreReviewDispatch) :
    WikiPageDraft × WikiDraftAiPreReviewDispatch × Option Run :=
  if draft.status ≠ .pending then
    (clearStaleQueuedDraft draft expected, markDispatchStale now dispatch, none)
  else if draft.revisionRound ≠ expected.revisionRound ∨ draft.version ≠ expected.draftVersion then
    (draft, markDispatchStale now dispatch, none)
  else if draft.aiCheckStatus ≠ "queued" then (draft, dropUnclaimed now draft dispatch, none)
  else
    let draft := { draft with aiCheckStatus := "running" }
    let dispatch := { dispatch with
      dispatchStatus := .running, leaseExpiresAt := none, nextAttemptAt := none }
    (draft, dispatch, some ⟨expected, draft, dispatch⟩)

def checkStatus (check : JsonObject) : Json := (List.lookup "status" check).getD (.str "pass")

def summarise (checks : List JsonObject) (status : String) : Nat :=
  checks.countP fun check => checkStatus check |>.eq (.str status)

def build (checks : List JsonObject) : Json :=
  .object [
    ("version", .int 1),
    ("summary", .object (["pass", "warn", "fail", "skipped"].map fun status =>
      (status, .int (summarise checks status)))),
    ("checks", .list (checks.map .object))]

/-- The draft with the verdict of the checks. -/
def withVerdict (draft : WikiPageDraft) (checks : List JsonObject) : WikiPageDraft :=
  { draft with
    aiCheckResults := some (build checks),
    aiCheckStatus :=
      if 0 < summarise checks "fail" then "failed"
      else if 0 < summarise checks "warn" then "warned" else "passed",
    aiCheckedAt := some now }

/-- The second transaction, on the draft it reads again and the dispatch of its session; the flag
says that the verdict was written. -/
def finishChecks (expected : PendingAiPreReview) (checks : List JsonObject) (draft : WikiPageDraft)
    (dispatch : WikiDraftAiPreReviewDispatch) :
    WikiPageDraft × WikiDraftAiPreReviewDispatch × Bool :=
  if draft.revisionRound ≠ expected.revisionRound ∨ draft.version ≠ expected.draftVersion ∨
      draft.status ≠ .pending then
    (clearStaleQueuedDraft draft expected, markDispatchStale now dispatch, false)
  else if draft.aiCheckStatus ≠ "running" then (draft, dropUnclaimed now draft dispatch, false)
  else (withVerdict now draft checks, markCompleted now dispatch "verdict_written", true)

/-- A flush writes the columns that differ from what the session had loaded. -/
def flush (loaded current committed : WikiDraftAiPreReviewDispatch) :
    WikiDraftAiPreReviewDispatch :=
  { committed with
    dispatchStatus := Dispatch.writeColumn loaded.dispatchStatus current.dispatchStatus
      committed.dispatchStatus,
    lastError := Dispatch.writeColumn loaded.lastError current.lastError committed.lastError,
    terminalReason := Dispatch.writeColumn loaded.terminalReason current.terminalReason
      committed.terminalReason,
    nextAttemptAt := Dispatch.writeColumn loaded.nextAttemptAt current.nextAttemptAt
      committed.nextAttemptAt,
    leaseExpiresAt := Dispatch.writeColumn loaded.leaseExpiresAt current.leaseExpiresAt
      committed.leaseExpiresAt,
    completedAt := Dispatch.writeColumn loaded.completedAt current.completedAt
      committed.completedAt }

/-- A verdict as it was written: the revision of the run, the content that was checked, and the row
of the draft that took it. -/
structure Verdict where
  expected : PendingAiPreReview
  checkedContentMd : String
  draft : WikiPageDraft

end Runner

structure World where
  db : Database := {}
  dispatches : Table WikiDraftAiPreReviewDispatch := []
  /-- leases whose enqueue is not settled yet, and those of processes that died -/
  claims : List AiPreReviewDispatchClaim := []
  runs : List Run := []
  written : List Verdict := []

def World.store (world : World) (draft : WikiPageDraft) (dispatch : WikiDraftAiPreReviewDispatch) :
    World :=
  { world with
    db := { world.db with drafts := world.db.drafts.put draft },
    dispatches := world.dispatches.put dispatch }

def World.draftOf (world : World) (staged : PendingAiPreReview) : Option WikiPageDraft :=
  world.db.drafts.get staged.draftId

/-- One candidate of a sweep, checked again under its lock. -/
def claimCandidate (enabled : Bool) (now : Timestamp) (world : World) (candidateId : Uuid) : World :=
  match world.dispatches.get candidateId with
  | none => world
  | some dispatch =>
    if dispatchIsDue now dispatch then
      match world.draftOf (stagedFromDispatch dispatch) with
      | none => { world with dispatches := world.dispatches.put (markStale now dispatch) }
      | some draft =>
        let (draft, dispatch, claim) := claimDue now enabled draft dispatch
        { world.store draft dispatch with claims := world.claims ++ claim.toList }
    else world

def claimDueDispatches (candidates : List Uuid) (enabled : Bool) (now : Timestamp) (world : World) :
    World :=
  candidates.foldl (claimCandidate enabled now) world

/-- The rows of a claim, where it is still owned, settled as `settle` says. -/
def settleClaim (claim : AiPreReviewDispatchClaim) (now : Timestamp)
    (settle : WikiPageDraft → WikiDraftAiPreReviewDispatch →
      WikiPageDraft × WikiDraftAiPreReviewDispatch) (world : World) : World :=
  match world.dispatches.get claim.dispatchId with
  | none => world
  | some dispatch =>
    if ownsClaim dispatch claim then
      match world.draftOf claim.staged with
      | none => { world with dispatches := world.dispatches.put (markStale now dispatch) }
      | some draft =>
        let (draft, dispatch) := settle draft dispatch
        world.store draft dispatch
    else world

def acknowledgeEnqueue (claim : AiPreReviewDispatchClaim) (now : Timestamp) : World → World :=
  settleClaim claim now (acknowledged now claim)

def recordEnqueueFailure (claim : AiPreReviewDispatchClaim) (message exceptionName : String)
    (now : Timestamp) : World → World :=
  settleClaim claim now (enqueueFailed now claim (errorText message exceptionName))

/-- `run_async_checks` until its first commit. -/
def startRun (draftId : Uuid) (expectedRound expectedVersion : Option Nat) (now : Timestamp)
    (world : World) : World :=
  match expectedRound, expectedVersion with
  | some round, some version =>
    let expected : PendingAiPreReview := ⟨draftId, version, round⟩
    match world.draftOf expected, loadExpectedDispatch world.dispatches expected with
    | some draft, some dispatch =>
      if dispatch.dispatchStatus ∈ [.dispatching, .enqueued] then
        let (draft, dispatch, run) := startChecks now expected draft dispatch
        { world.store draft dispatch with runs := world.runs ++ run.toList }
      else world
    | _, _ => world
  | _, _ => world

/-- The rest of `run_async_checks`. The checks read the draft of the first transaction. The draft is
then read again, but `_load_expected_dispatch` hands back the object its session holds already, with
the status of the first transaction. -/
def finishRun (run : Run) (review : WikiPageDraft → List JsonObject) (now : Timestamp)
    (world : World) : World :=
  match world.draftOf run.expected, loadExpectedDispatch world.dispatches run.expected with
  | some draft, some committed =>
    if run.dispatch.dispatchStatus = .running then
      let (after, dispatch, wrote) :=
        finishChecks now run.expected (review run.draft) draft run.dispatch
      { world.store after (flush run.dispatch dispatch committed) with
        written := world.written ++
          if wrote then [⟨run.expected, run.draft.contentMd, draft⟩] else [] }
    else world
  | _, _ => world

/-- What `sweep_stuck_ai_review_cron` selects, where `overdue` are the drafts not updated since its
cutoff. -/
def stuckIds (drafts : Table WikiPageDraft) (overdue : List Uuid) : List Uuid :=
  (drafts.filter fun draft => draft.aiCheckStatus = "running" ∧ draft.id ∈ overdue).map
    WikiPageDraft.id

def resetDraft (stuck : List Uuid) (draft : WikiPageDraft) : WikiPageDraft :=
  if draft.id ∈ stuck ∧ draft.aiCheckStatus = "running" then
    { draft with aiCheckStatus := "skipped" }
  else draft

def timeOut (stuck : List Uuid) (now : Timestamp) (dispatch : WikiDraftAiPreReviewDispatch) :
    WikiDraftAiPreReviewDispatch :=
  if dispatch.draftId ∈ stuck ∧ dispatch.dispatchStatus = .running then
    { dispatch with
      dispatchStatus := .failed, terminalReason := some "worker_timeout",
      lastError := some "worker exceeded the AI pre-review timeout", leaseExpiresAt := none,
      completedAt := some now }
  else dispatch

def sweepStuckAiReview (overdue : List Uuid) (now : Timestamp) (world : World) : World :=
  let stuck := stuckIds world.db.drafts overdue
  { world with
    db := { world.db with drafts := world.db.drafts.map (resetDraft stuck) },
    dispatches := world.dispatches.map (timeOut stuck now) }

inductive Action
  /-- a review operation, with the ids of the rows it may stage -/
  | lifecycle (call : Call) (rowId : PendingAiPreReview → Uuid)
  | sweep (candidates : List Uuid) (enabled : Bool) (now : Timestamp)
  | acknowledge (claim : Nat) (now : Timestamp)
  | failEnqueue (claim : Nat) (message exceptionName : String) (now : Timestamp)
  /-- a job of the queue, delivered any number of times -/
  | startRun (draftId : Uuid) (expectedRound expectedVersion : Option Nat) (now : Timestamp)
  | finishRun (run : Nat) (review : WikiPageDraft → List JsonObject) (now : Timestamp)
  | crash (run : Nat)
  | sweepStuck (overdue : List Uuid) (now : Timestamp)

variable (env : Platform)

def act : Action → World → Transaction World
  | .lifecycle call rowId, world => do
    let db ← perform env call world.db
    let dispatches ← db.preReviews.foldlM (insertDispatch rowId) world.dispatches
    return { world with db := db, dispatches := dispatches }
  | .sweep candidates enabled now, world => .ok (claimDueDispatches candidates enabled now world)
  | .acknowledge claim now, world =>
    .ok (world.claims[claim]?.elim world fun c => acknowledgeEnqueue c now world)
  | .failEnqueue claim message exceptionName now, world =>
    .ok (world.claims[claim]?.elim world fun c =>
      recordEnqueueFailure c message exceptionName now world)
  | .startRun draftId expectedRound expectedVersion now, world =>
    .ok (startRun draftId expectedRound expectedVersion now world)
  | .finishRun run review now, world =>
    .ok (world.runs[run]?.elim world fun r =>
      finishRun r review now { world with runs := world.runs.eraseIdx run })
  | .crash run, world => .ok { world with runs := world.runs.eraseIdx run }
  | .sweepStuck overdue now, world => .ok (sweepStuckAiReview overdue now world)

/-- No draft yet; pages, branches and sources are arbitrary. -/
def opening (db : Database) : World := { db := beforeReview db }

end Cygnus.Review.PreReview
