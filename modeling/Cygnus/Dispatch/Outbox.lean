import Cygnus.Data.Machine
import Cygnus.Dispatch.Execution
import Mathlib.Data.Prod.Lex

/-! The outbox as a system: producers with their database sessions, the job queue, workers and
sweeps. An action is one database transaction, one call to the queue or one step inside an open
session; a commit makes what a session wrote visible. Row locks only remove interleavings and are
left out, except that an insert waits for the transaction that holds its key. -/

namespace Cygnus.Dispatch

open Wiki Text Result Sequence

section Producers

def resolvePostExtractionTask (hasImages : Bool) : TaskName :=
  if hasImages then .captionImagesTask else .ingestMapReduceTask

def resolveRetryTask (sourceType : String) (pipelinePhase currentStatus : Option String) :
    TaskName :=
  if pipelinePhase ∈ [some "refine", some "verify", some "commit"] then .ingestRefineTask
  else if pipelinePhase ∈ [some "map", some "reduce", some "plan_review"] ∨
      currentStatus = some "plan_ready" then .ingestMapReduceTask
  else if sourceType = "url" then .ingestUrlTask
  else .ingestFileTask

/-- The paths that hand a source to a worker. -/
inductive Producer
  /-- `enqueue_source_ingest_file` -/
  | ingestFile
  /-- `enqueue_source_ingest_url` -/
  | ingestUrl
  /-- `enqueue_source_map_reduce`, after a change of scope, department or language -/
  | mapReduce
  /-- `enqueue_source_refine`, and `_auto_trigger_refine` -/
  | refine
  /-- `enqueue_source_retry` -/
  | retry (pipelinePhase currentStatus : Option String)
  /-- `enqueue_source_plan_regeneration` -/
  | planRegeneration (reviewerNote : String)
  /-- `enqueue_post_extraction_pipeline`, and the end of both ingest tasks -/
  | postExtraction (hasImages : Bool)
  /-- the end of `caption_images_task` -/
  | captionsChained

def Producer.handoff (producer : Producer) (source : Source) : Handoff :=
  let sourceId := source.id.text
  match producer with
  | ingestFile => ⟨.ingest, .ingestFileTask, [sourceId], true⟩
  | ingestUrl => ⟨.ingest, .ingestUrlTask, [sourceId], true⟩
  | mapReduce => ⟨.mapReduce, .ingestMapReduceTask, [sourceId], true⟩
  | refine => ⟨.refine, .ingestRefineTask, [sourceId], false⟩
  | retry pipelinePhase currentStatus =>
    let taskName := resolveRetryTask
      (if source.sourceType = "" then "file" else source.sourceType) pipelinePhase currentStatus
    ⟨dispatchStageForTask taskName, taskName, [sourceId], true⟩
  | planRegeneration reviewerNote =>
    ⟨.regeneratePlan, .regeneratePlanTask, [sourceId, reviewerNote], false⟩
  | postExtraction hasImages =>
    ⟨.postExtraction, resolvePostExtractionTask hasImages, [sourceId], false⟩
  | captionsChained => ⟨.mapReduce, .ingestMapReduceTask, [sourceId], false⟩

end Producers

/-- An outbox row inside a session: as it was read, and with what was assigned since. -/
structure Tracked where
  inserted : Bool
  loaded : SourceDispatchExecution
  current : SourceDispatchExecution

/-- An open session on one source, which keeps the source as it was loaded. -/
structure Session where
  id : Uuid
  source : Source
  loadedGeneration : Nat
  row : Option Tracked := none

instance : Row Session := ⟨Session.id⟩

structure World where
  sources : Table Source := []
  executions : Table SourceDispatchExecution := []
  sessions : Table Session := []
  queue : List Job := []
  /-- rows that a sweep has leased, as it read them -/
  leased : List SourceDispatchExecution := []

section Sessions

/-- The session has inserted a row with this key and not yet committed it. -/
def Session.holds (session : Session) (sourceId : Uuid) (generation : Nat) (stage : DispatchStage) :
    Bool :=
  session.row.any fun tracked => tracked.inserted && tracked.current.sourceId = sourceId &&
    tracked.current.generation = generation && tracked.current.stage = stage

/-- The outbox rows that are committed or inside a session. -/
def World.known (world : World) : List SourceDispatchExecution :=
  world.executions ++ world.sessions.filterMap fun session => session.row.map Tracked.current

/-- A session records one handoff; `uuid4` never draws an id again. -/
def recordSourceDispatch (world : World) (session : Session) (handoff : Handoff) (rowId : Uuid)
    (now : Timestamp) : Except DispatchError Session := do
  require session.row.isNone .sessionInUse
  let generation := handoff.generation session.source.dispatchGeneration
  require (∀ other ∈ world.sessions, ¬ other.holds session.source.id generation handoff.stage)
    .blocked
  let source := { session.source with dispatchGeneration := generation }
  match findExecution world.executions source.id generation handoff.stage with
  | some row => return { session with source := source, row := some ⟨false, row, handoff.retarget row⟩ }
  | none =>
    require (∀ row ∈ world.known, row.id ≠ rowId)
      (.integrityError "source_dispatch_executions_pkey")
    let row := handoff.newRow rowId source.id generation now
    return { session with source := source, row := some ⟨true, row, row⟩ }

/-- A flush writes the columns that were assigned another value. -/
def writeColumn {α : Type} [DecidableEq α] (loaded current committed : α) : α :=
  if current = loaded then committed else current

def writeBack (loaded current committed : SourceDispatchExecution) : SourceDispatchExecution :=
  { committed with
    taskName := writeColumn loaded.taskName current.taskName committed.taskName,
    taskArgs := writeColumn loaded.taskArgs current.taskArgs committed.taskArgs,
    dispatchStatus :=
      writeColumn loaded.dispatchStatus current.dispatchStatus committed.dispatchStatus,
    attemptCount := writeColumn loaded.attemptCount current.attemptCount committed.attemptCount,
    leaseToken := writeColumn loaded.leaseToken current.leaseToken committed.leaseToken,
    leaseExpiresAt :=
      writeColumn loaded.leaseExpiresAt current.leaseExpiresAt committed.leaseExpiresAt,
    enqueuedAt := writeColumn loaded.enqueuedAt current.enqueuedAt committed.enqueuedAt,
    nextAttemptAt := writeColumn loaded.nextAttemptAt current.nextAttemptAt committed.nextAttemptAt,
    terminalReason :=
      writeColumn loaded.terminalReason current.terminalReason committed.terminalReason,
    lastError := writeColumn loaded.lastError current.lastError committed.lastError,
    completedAt := writeColumn loaded.completedAt current.completedAt committed.completedAt }

/-- `ck_source_dispatch_execution_terminal_reason`. -/
def SourceDispatchExecution.hasReason (row : SourceDispatchExecution) : Bool :=
  row.dispatchStatus.isTerminal == row.terminalReason.isSome

def commitRow (executions : Table SourceDispatchExecution) (tracked : Tracked) :
    Except DispatchError (Table SourceDispatchExecution) :=
  if tracked.inserted then do
    require tracked.current.hasReason
      (.integrityError "ck_source_dispatch_execution_terminal_reason")
    executions.insert (.integrityError "source_dispatch_executions_pkey") tracked.current
  else if tracked.current = tracked.loaded then return executions
  else
    match executions.get tracked.loaded.id with
    | none => throw .staleData
    | some committed => do
      let row := writeBack tracked.loaded tracked.current committed
      require row.hasReason (.integrityError "ck_source_dispatch_execution_terminal_reason")
      return executions.put row

def commitSource (sources : Table Source) (session : Session) :
    Except DispatchError (Table Source) :=
  if session.source.dispatchGeneration = session.loadedGeneration then return sources
  else
    match sources.get session.source.id with
    | none => throw .staleData
    | some source =>
      return sources.put { source with dispatchGeneration := session.source.dispatchGeneration }

/-- The session stays open, with what it has written as its loaded state. -/
def Session.committed (session : Session) : Session :=
  { session with
    loadedGeneration := session.source.dispatchGeneration,
    row := session.row.map fun tracked => ⟨false, tracked.current, tracked.current⟩ }

def commitSession (world : World) (session : Session) : Except DispatchError World := do
  require ((world.sources.get session.source.id).isSome ∨ session.row.isNone)
    (.integrityError "source_dispatch_executions_source_id_fkey")
  let sources ← commitSource world.sources session
  let executions ← match session.row with
    | none => pure world.executions
    | some tracked => commitRow world.executions tracked
  return { world with
    sources := sources, executions := executions, sessions := world.sessions.put session.committed }

end Sessions

section Workers

/-- The stage each task passes to `claim_source_dispatch`. -/
def TaskName.claimStage : TaskName → DispatchStage
  | ingestFileTask => .ingest
  | ingestUrlTask => .ingest
  | captionImagesTask => .postExtraction
  | ingestMapReduceTask => .mapReduce
  | ingestRefineTask => .refine
  | regeneratePlanTask => .regeneratePlan

/-- What a task needs of its source before it claims. -/
def TaskName.ready : TaskName → Source → Bool
  | ingestFileTask, source => source.minioKey.any (· ≠ "")
  | ingestMapReduceTask, source => source.fullText.any (· ≠ "")
  | ingestRefineTask, source => source.fullText.any (· ≠ "")
  | _, _ => true

/-- How a task begins. On `SourceDispatchSuperseded` it rolls back and returns. -/
inductive Entry
  | refused
  | skipped
  | fenced (message : String)
  | unfenced
  | claimed (claim : SourceDispatchClaim) (executions : Table SourceDispatchExecution)
  deriving DecidableEq

def enterTask (executions : Table SourceDispatchExecution) (source : Source) (job : Job)
    (leaseToken : String) (now : Timestamp) : Entry :=
  if !job.taskName.ready source then .refused
  else if source.deleteRequestedAt.isSome then .skipped
  else
    match claimSourceDispatch executions source job.taskName.claimStage job.jobId leaseToken now with
    | .nothing => .unfenced
    | .superseded message _ => .fenced message
    | .claimed claim executions => .claimed claim executions

/-- The worker has loaded the source that the job names. -/
def Job.loads (job : Job) (source : Source) : Prop :=
  (job.args.head?.bind Uuid.parse) = some source.id

instance (job : Job) (source : Source) : Decidable (job.loads source) :=
  inferInstanceAs (Decidable (_ = _))

end Workers

section Sweep

def isSuperseded (sources : Table Source) (row : SourceDispatchExecution) : Bool :=
  match sources.get row.sourceId with
  | none => true
  | some source => source.deleteRequestedAt.isSome || row.generation < source.dispatchGeneration

def leaseExpired (row : SourceDispatchExecution) (now : Timestamp) : Bool :=
  row.leaseExpiresAt.all (· ≤ now)

def dispatchIsDue (row : SourceDispatchExecution) (now : Timestamp) : Bool :=
  match row.dispatchStatus with
  | .pending => row.nextAttemptAt.all (· ≤ now)
  | .dispatching | .enqueued | .running => leaseExpired row now
  | _ => false

/-- A source that is gone supersedes nothing here: its rows went with it. -/
def fenceSuperseded (sources : Table Source) (now : Timestamp) (row : SourceDispatchExecution) :
    SourceDispatchExecution :=
  if !row.dispatchStatus.isTerminal && (sources.get row.sourceId).any fun source =>
      source.deleteRequestedAt.isSome || row.generation < source.dispatchGeneration then
    row.finish .stale "superseded"
      (some "superseded by a newer execution generation or source deletion") now
  else row

def failOrphaned (sources : Table Source) (now : Timestamp) (row : SourceDispatchExecution) :
    SourceDispatchExecution :=
  if row.dispatchStatus = .running && leaseExpired row now &&
      (sources.get row.sourceId).any (·.status = "error") then
    row.finish .failed "worker_lease_expired"
      (some "worker died without a terminal state; lease expired") now
  else row

def SourceDispatchExecution.leaseForSweep (row : SourceDispatchExecution) (now : Timestamp) :
    SourceDispatchExecution :=
  { row with
    dispatchStatus := .dispatching, attemptCount := row.attemptCount + 1,
    leaseExpiresAt := some (now + dispatchLease), nextAttemptAt := none, terminalReason := none,
    lastError := none }

def SourceDispatchExecution.age (row : SourceDispatchExecution) : Timestamp ×ₗ Uuid :=
  toLex (row.createdAt, row.id)

/-- The due rows of current generations, oldest first; rows locked elsewhere are passed over. -/
def dueExecutions (world : World) (limit : Nat) (locked : List Uuid) (now : Timestamp) :
    List SourceDispatchExecution :=
  (sortedBy SourceDispatchExecution.age (world.executions.filter fun row =>
    dispatchIsDue row now && row.id ∉ locked && (world.sources.get row.sourceId).any fun source =>
      source.deleteRequestedAt.isNone && source.dispatchGeneration = row.generation)).take limit

def claimDueExecutions (world : World) (limit : Nat) (locked : List Uuid) (now : Timestamp) :
    World :=
  let rows := (dueExecutions world limit locked now).map fun row => row.leaseForSweep now
  { world with
    executions := rows.foldl (fun executions row => executions.put row) world.executions,
    leased := world.leased ++ rows }

/-- `_acknowledge_enqueue` or `_record_enqueue_failure`, for the row as the sweep leased it. -/
def settleEnqueue (sources : Table Source) (row claim : SourceDispatchExecution) (reply : PoolReply)
    (now : Timestamp) : SourceDispatchExecution :=
  match reply with
  | .accepted =>
    if isSuperseded sources row then
      row.finish .stale "superseded" (some "fenced: source moved on before acknowledgement") now
    else row.acknowledge now
  | .raised error _ =>
    if isSuperseded sources row then
      row.finish .stale "superseded" (some "fenced: source moved on before enqueue retry") now
    else if maxDispatchEnqueueAttempts ≤ claim.attemptCount then
      row.finish .failed "enqueue_retry_exhausted" (some error) now
    else
      { row with
        dispatchStatus := .pending, lastError := some error,
        nextAttemptAt := some (now + retryDelay claim.attemptCount), leaseExpiresAt := none,
        terminalReason := none }

def ownsClaim (row claim : SourceDispatchExecution) : Bool :=
  row.dispatchStatus = .dispatching && row.attemptCount = claim.attemptCount

end Sweep

inductive Action
  /-- A source is created, before any cycle. -/
  | addSource (source : Source)
  /-- Any other write to the columns of a source. -/
  | editSource (source : Source)
  /-- The source row is removed, and its outbox rows with it. -/
  | removeSource (sourceId : Uuid)
  | load (sessionId sourceId : Uuid)
  | record (sessionId : Uuid) (producer : Producer) (rowId : Uuid) (now : Timestamp)
  | enqueue (sessionId : Uuid) (reply : PoolReply) (now : Timestamp)
  | commit (sessionId : Uuid)
  | close (sessionId : Uuid)
  /-- A worker enters the task of a queued job, with the source its session loaded. -/
  | start (sessionId : Uuid) (job : Job) (leaseToken : String) (now : Timestamp)
  | mark (claim : SourceDispatchClaim) (mark : Mark) (now : Timestamp)
  | renew (claim : SourceDispatchClaim) (now : Timestamp)
  | sweepFence (now : Timestamp)
  | sweepLease (limit : Nat) (locked : List Uuid) (now : Timestamp)
  | sweepEnqueue (row : SourceDispatchExecution) (reply : PoolReply)
  | sweepSettle (row : SourceDispatchExecution) (reply : PoolReply) (now : Timestamp)
  /-- A job that bypasses the outbox; the queue draws its id. -/
  | enqueueDirect (job : Job)
  /-- The queue forgets a job that is done. -/
  | forget (jobId : String)

def getSession (world : World) (sessionId : Uuid) : Except DispatchError Session :=
  match world.sessions.get sessionId with
  | some session => .ok session
  | none => .error .notFound

def openSession (world : World) (sessionId sourceId : Uuid) : Except DispatchError World :=
  match world.sources.get sourceId with
  | none => throw .notFound
  | some source => do
    let sessions ← world.sessions.insert .sessionInUse
      { id := sessionId, source := source, loadedGeneration := source.dispatchGeneration }
    return { world with sessions := sessions }

def enqueueTracked (world : World) (session : Session) (reply : PoolReply) (now : Timestamp) :
    Except DispatchError World :=
  match session.row with
  | none => throw .notFound
  | some tracked =>
    let (row, queue) := enqueueDispatchExecution world.queue tracked.current reply now
    return { world with
      queue := queue,
      sessions := world.sessions.put { session with row := some { tracked with current := row } } }

def startJob (world : World) (session : Session) (job : Job) (leaseToken : String)
    (now : Timestamp) : Except DispatchError World := do
  require (job ∈ world.queue ∧ job.loads session.source) .notFound
  match enterTask world.executions session.source job leaseToken now with
  | .claimed _ executions => return { world with executions := executions }
  | _ => return world

/-- A write to one outbox row, if it is still there and `owns` holds of it. -/
def updateOwned (world : World) (rowId : Uuid) (owns : SourceDispatchExecution → Bool)
    (write : SourceDispatchExecution → SourceDispatchExecution) : World :=
  match world.executions.get rowId with
  | none => world
  | some row =>
    if owns row then { world with executions := world.executions.put (write row) } else world

def perform (action : Action) (world : World) : Except DispatchError World :=
  match action with
  | .addSource source => do
    let sources ← world.sources.insert (.integrityError "sources_pkey")
      { source with dispatchGeneration := 0 }
    return { world with sources := sources }
  | .editSource source =>
    match world.sources.get source.id with
    | none => throw .notFound
    | some committed => return { world with
        sources := world.sources.put
          { source with dispatchGeneration := committed.dispatchGeneration } }
  | .removeSource sourceId => return { world with
      sources := world.sources.filter (·.id ≠ sourceId),
      executions := world.executions.filter (·.sourceId ≠ sourceId) }
  | .load sessionId sourceId => openSession world sessionId sourceId
  | .record sessionId producer rowId now => do
    let session ← getSession world sessionId
    let session ← recordSourceDispatch world session (producer.handoff session.source) rowId now
    return { world with sessions := world.sessions.put session }
  | .enqueue sessionId reply now => do
    let session ← getSession world sessionId
    enqueueTracked world session reply now
  | .commit sessionId => do
    let session ← getSession world sessionId
    commitSession world session
  | .close sessionId => return { world with sessions := world.sessions.filter (·.id ≠ sessionId) }
  | .start sessionId job leaseToken now => do
    let session ← getSession world sessionId
    startJob world session job leaseToken now
  | .mark claim mark now =>
    return updateOwned world claim.dispatchId (claimOwnsExecution · claim) (mark.apply · now)
  | .renew claim now =>
    return updateOwned world claim.dispatchId
      (fun row => row.dispatchStatus = .running && row.leaseToken = some claim.leaseToken &&
        (world.sources.get claim.sourceId).any fun source =>
          source.deleteRequestedAt.isNone && source.dispatchGeneration = claim.generation)
      (fun row => { row with leaseExpiresAt := some (now + dispatchLease) })
  | .sweepFence now => return { world with
      executions := world.executions.map fun row =>
        failOrphaned world.sources now (fenceSuperseded world.sources now row) }
  | .sweepLease limit locked now => do
    require (1 ≤ limit) (.valueError "limit must be positive")
    return claimDueExecutions world limit locked now
  | .sweepEnqueue row reply => do
    require (row ∈ world.leased) .notFound
    return { world with
      queue := if reply.queues then enqueueJob world.queue row.job else world.queue }
  | .sweepSettle row reply now => do
    require (row ∈ world.leased) .notFound
    return updateOwned world row.id (ownsClaim · row)
      fun current => settleEnqueue world.sources current row reply now
  | .enqueueDirect job => do
    require (parseDispatchJobId job.jobId = none) (.valueError "job id of the outbox")
    return { world with queue := enqueueJob world.queue job }
  | .forget jobId => return { world with queue := world.queue.filter (·.jobId ≠ jobId) }

end Cygnus.Dispatch
