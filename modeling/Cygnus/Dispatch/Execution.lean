import Cygnus.Wiki.Models

/-! Outbox rows of the source pipeline: one row for each source, generation and stage. -/

namespace Cygnus.Dispatch

open Wiki Text Result Sequence

inductive DispatchStage
  | ingest
  | postExtraction
  | mapReduce
  | refine
  | regeneratePlan
  deriving DecidableEq

def DispatchStage.value : DispatchStage → String
  | ingest => "ingest"
  | postExtraction => "post_extraction"
  | mapReduce => "map_reduce"
  | refine => "refine"
  | regeneratePlan => "regenerate_plan"

inductive DispatchStatus
  | pending
  | dispatching
  | enqueued
  | running
  | completed
  | stale
  | failed
  deriving DecidableEq

def DispatchStatus.isTerminal : DispatchStatus → Bool
  | completed | stale | failed => true
  | pending | dispatching | enqueued | running => false

inductive TaskName
  | ingestFileTask
  | ingestUrlTask
  | captionImagesTask
  | ingestMapReduceTask
  | ingestRefineTask
  | regeneratePlanTask
  deriving DecidableEq

/-- `_TASK_STAGE`. -/
def dispatchStageForTask : TaskName → DispatchStage
  | .ingestFileTask => .ingest
  | .ingestUrlTask => .ingest
  | .captionImagesTask => .postExtraction
  | .ingestMapReduceTask => .mapReduce
  | .ingestRefineTask => .refine
  | .regeneratePlanTask => .regeneratePlan

def seconds (n : Nat) : Nat := n * 1000000

def dispatchLease : Nat := seconds 60
def enqueuedRecovery : Nat := seconds 300
def maxDispatchEnqueueAttempts : Nat := 5

structure SourceDispatchExecution where
  id : Uuid
  sourceId : Uuid
  generation : Nat
  stage : DispatchStage
  taskName : TaskName
  taskArgs : List String
  jobId : String
  dispatchStatus : DispatchStatus := .pending
  attemptCount : Nat := 0
  leaseToken : Option String := none
  leaseExpiresAt : Option Timestamp := none
  enqueuedAt : Option Timestamp := none
  nextAttemptAt : Option Timestamp := none
  terminalReason : Option String := none
  lastError : Option String := none
  completedAt : Option Timestamp := none
  createdAt : Timestamp
  deriving DecidableEq

instance : Row SourceDispatchExecution := ⟨SourceDispatchExecution.id⟩

inductive DispatchError
  | notFound
  | blocked
  | sessionInUse
  | staleData
  | integrityError (constraint : String)
  | valueError (message : String)
  deriving DecidableEq

section JobId

def dispatchJobPrefix : String := "source-dispatch:"

def sourceStageJobId (sourceId : Uuid) (stage : DispatchStage) (generation : Nat) : String :=
  dispatchJobPrefix ++ sourceId.text ++ ":" ++ stage.value ++ ":" ++ toString generation

def parseDispatchJobId (jobId : String) : Option (Uuid × String × Int) :=
  if dispatchJobPrefix.toList.isPrefixOf jobId.toList then
    match split ':' jobId with
    | [_, rawSource, stage, rawGeneration] => do
      let sourceId ← Uuid.parse rawSource
      let generation ← parseInt rawGeneration
      return (sourceId, stage, generation)
    | _ => none
  else none

theorem DispatchStage.value_injective : Function.Injective value := by
  intro a b h
  cases a <;> cases b <;> simp [value] at h ⊢

theorem toList_sourceStageJobId (sourceId : Uuid) (stage : DispatchStage) (generation : Nat) :
    (sourceStageJobId sourceId stage generation).toList =
      "source-dispatch".toList ++ ':' :: (sourceId.text.toList ++
        ':' :: (stage.value.toList ++ ':' :: (toString generation).toList)) := by
  simp [sourceStageJobId, dispatchJobPrefix, String.toList_append]

theorem split_sourceStageJobId (sourceId : Uuid) (stage : DispatchStage) (generation : Nat) :
    split ':' (sourceStageJobId sourceId stage generation) =
      ["source-dispatch", sourceId.text, stage.value, toString generation] := by
  have hstage : ':' ∉ stage.value.toList := by cases stage <;> decide
  have hgeneration : ':' ∉ (toString generation).toList := by
    intro hmem
    rw [Nat.toString_eq_repr, Nat.toList_repr] at hmem
    exact absurd (Nat.isDigit_of_mem_toDigits (by decide) (by decide) hmem) (by decide)
  rw [split, toList_sourceStageJobId, List.splitOn_append_cons_self_of_not_mem (by decide),
    List.splitOn_append_cons_self_of_not_mem (Uuid.not_mem_text (by decide)),
    List.splitOn_append_cons_self_of_not_mem hstage, List.splitOn_eq_singleton hgeneration]
  simp only [List.map_cons, List.map_nil, String.ofList_toList]

/-- Every job id the outbox builds is read back. -/
theorem parseDispatchJobId_sourceStageJobId (sourceId : Uuid) (stage : DispatchStage)
    (generation : Nat) : parseDispatchJobId (sourceStageJobId sourceId stage generation) =
      some (sourceId, stage.value, (generation : Int)) := by
  have hstart : dispatchJobPrefix.toList.isPrefixOf
      (sourceStageJobId sourceId stage generation).toList := by
    rw [List.isPrefixOf_iff_prefix]
    simp only [sourceStageJobId, String.toList_append, List.append_assoc]
    exact List.prefix_append _ _
  rw [parseDispatchJobId, if_pos hstart, split_sourceStageJobId]
  simp only [Uuid.parse_text, parseInt_toString]
  rfl

theorem sourceStageJobId_inj {s s' : Uuid} {stage stage' : DispatchStage} {g g' : Nat}
    (h : sourceStageJobId s stage g = sourceStageJobId s' stage' g') :
    s = s' ∧ stage = stage' ∧ g = g' := by
  have hparse := congrArg parseDispatchJobId h
  simp only [parseDispatchJobId_sourceStageJobId, Option.some.injEq, Prod.mk.injEq,
    Nat.cast_inj] at hparse
  exact ⟨hparse.1, DispatchStage.value_injective hparse.2.1, hparse.2.2⟩

end JobId

section Record

/-- The arguments of `record_source_dispatch`. -/
structure Handoff where
  stage : DispatchStage
  taskName : TaskName
  taskArgs : List String
  newGeneration : Bool := false

/-- The cycle a handoff belongs to, for the generation the source was loaded with. -/
def Handoff.generation (handoff : Handoff) (dispatchGeneration : Nat) : Nat :=
  if handoff.newGeneration then dispatchGeneration + 1
  else if dispatchGeneration < 1 then 1
  else dispatchGeneration

def findExecution (executions : Table SourceDispatchExecution) (sourceId : Uuid) (generation : Nat)
    (stage : DispatchStage) : Option SourceDispatchExecution :=
  executions.find? fun row =>
    row.sourceId = sourceId && row.generation = generation && row.stage = stage

def Handoff.newRow (handoff : Handoff) (rowId sourceId : Uuid) (generation : Nat) (now : Timestamp) :
    SourceDispatchExecution :=
  { id := rowId, sourceId := sourceId, generation := generation, stage := handoff.stage,
    taskName := handoff.taskName, taskArgs := handoff.taskArgs,
    jobId := sourceStageJobId sourceId handoff.stage generation, createdAt := now }

/-- A row that is recorded again takes the new target, unless it is terminal. -/
def Handoff.retarget (handoff : Handoff) (row : SourceDispatchExecution) : SourceDispatchExecution :=
  if row.dispatchStatus.isTerminal then row
  else { row with taskName := handoff.taskName, taskArgs := handoff.taskArgs }

end Record

section Enqueue

structure Job where
  jobId : String
  taskName : TaskName
  args : List String
  deriving DecidableEq

def SourceDispatchExecution.job (row : SourceDispatchExecution) : Job :=
  ⟨row.jobId, row.taskName, row.taskArgs⟩

/-- `pool.enqueue_job`: an id that is known already is not queued twice. -/
def enqueueJob (queue : List Job) (job : Job) : List Job :=
  if queue.any (·.jobId = job.jobId) then queue else queue ++ [job]

/-- How the call to the pool ends. One that raises may have queued the job all the same. -/
inductive PoolReply
  | accepted
  | raised (error : String) (queued : Bool)

def PoolReply.queues : PoolReply → Bool
  | accepted => true
  | raised _ queued => queued

def retryDelay (attemptCount : Nat) : Nat := seconds (min (30 * 2 ^ (attemptCount - 1)) 300)

def SourceDispatchExecution.finish (row : SourceDispatchExecution) (status : DispatchStatus)
    (reason : String) (lastError : Option String) (now : Timestamp) : SourceDispatchExecution :=
  { row with
    dispatchStatus := status, terminalReason := some reason, lastError := lastError,
    completedAt := some now, leaseExpiresAt := none, nextAttemptAt := none }

def SourceDispatchExecution.acknowledge (row : SourceDispatchExecution) (now : Timestamp) :
    SourceDispatchExecution :=
  { row with
    dispatchStatus := .enqueued, enqueuedAt := row.enqueuedAt.or (some now),
    leaseExpiresAt := some (now + enqueuedRecovery), nextAttemptAt := none, terminalReason := none,
    lastError := none }

/-- The row and the queue after the call; a terminal row is left alone. -/
def enqueueDispatchExecution (queue : List Job) (row : SourceDispatchExecution) (reply : PoolReply)
    (now : Timestamp) : SourceDispatchExecution × List Job :=
  if row.dispatchStatus.isTerminal then (row, queue)
  else
    let queue := if reply.queues then enqueueJob queue row.job else queue
    match reply with
    | .accepted => (row.acknowledge now, queue)
    | .raised error _ =>
      let row := { row with
        dispatchStatus := .pending, attemptCount := row.attemptCount + 1, lastError := some error,
        leaseExpiresAt := none, terminalReason := none }
      if maxDispatchEnqueueAttempts ≤ row.attemptCount then
        ({ row with
          dispatchStatus := .failed, terminalReason := some "enqueue_retry_exhausted",
          completedAt := some now }, queue)
      else ({ row with nextAttemptAt := some (now + retryDelay row.attemptCount) }, queue)

end Enqueue

section Claim

structure SourceDispatchClaim where
  dispatchId : Uuid
  sourceId : Uuid
  generation : Nat
  stage : DispatchStage
  taskName : TaskName
  taskArgs : List String
  jobId : String
  attemptCount : Nat
  leaseToken : String
  deriving DecidableEq

def buildClaim (row : SourceDispatchExecution) (leaseToken : String) : SourceDispatchClaim :=
  { dispatchId := row.id, sourceId := row.sourceId, generation := row.generation,
    stage := row.stage, taskName := row.taskName, taskArgs := row.taskArgs, jobId := row.jobId,
    attemptCount := row.attemptCount, leaseToken := leaseToken }

def SourceDispatchExecution.markStale (row : SourceDispatchExecution) (reason : String)
    (now : Timestamp) : SourceDispatchExecution :=
  row.finish .stale reason (some "fenced: execution is no longer current source truth") now

def markStaleExecution (executions : Table SourceDispatchExecution) (sourceId : Uuid)
    (generation : Nat) (stage : DispatchStage) (reason : String) (now : Timestamp) :
    Table SourceDispatchExecution :=
  match findExecution executions sourceId generation stage with
  | none => executions
  | some row =>
    if row.dispatchStatus.isTerminal then executions else executions.put (row.markStale reason now)

/-- `claim_source_dispatch` returns nothing, returns a claim or raises `SourceDispatchSuperseded`. -/
inductive ClaimResult
  | nothing
  | claimed (claim : SourceDispatchClaim) (executions : Table SourceDispatchExecution)
  | superseded (message : String) (executions : Table SourceDispatchExecution)
  deriving DecidableEq

def SourceDispatchExecution.lease (row : SourceDispatchExecution) (leaseToken : String)
    (now : Timestamp) : SourceDispatchExecution :=
  { row with
    dispatchStatus := .running, leaseToken := some leaseToken,
    leaseExpiresAt := some (now + dispatchLease), nextAttemptAt := none, terminalReason := none,
    lastError := none }

/-- The claim on the row of the generation the source was loaded with. -/
def claimCurrent (executions : Table SourceDispatchExecution) (source : Source)
    (stage : DispatchStage) (jobId leaseToken : String) (now : Timestamp) : ClaimResult :=
  match findExecution executions source.id source.dispatchGeneration stage with
  | none => .nothing
  | some row =>
    if row.dispatchStatus.isTerminal then .nothing
    else if jobId ≠ "" ∧ row.jobId ≠ jobId then
      .superseded (s!"job {jobId} does not match execution {row.jobId} for " ++
        s!"source {source.id.text} {stage.value}; fencing foreign attempt") executions
    else
      .claimed (buildClaim row leaseToken) (executions.put (row.lease leaseToken now))

def claimSourceDispatch (executions : Table SourceDispatchExecution) (source : Source)
    (stage : DispatchStage) (jobId leaseToken : String) (now : Timestamp) : ClaimResult :=
  if source.dispatchGeneration < 1 then .nothing
  else match parseDispatchJobId jobId with
    | none => claimCurrent executions source stage jobId leaseToken now
    | some (parsedSource, parsedStage, parsedGeneration) =>
      if parsedSource.text = source.id.text ∧ parsedStage = stage.value ∧
          parsedGeneration < source.dispatchGeneration then
        .superseded (s!"source {source.id.text} generation moved {parsedGeneration} → " ++
            s!"{source.dispatchGeneration}; fencing stale {stage.value} attempt")
          (markStaleExecution executions source.id parsedGeneration.toNat stage
            "superseded_by_generation" now)
      else claimCurrent executions source stage jobId leaseToken now

def claimOwnsExecution (row : SourceDispatchExecution) (claim : SourceDispatchClaim) : Bool :=
  !row.dispatchStatus.isTerminal && row.leaseToken = some claim.leaseToken

/-- The terminal marks of a worker. -/
inductive Mark
  | complete (reason : String)
  | fail (error reason : String)
  | stale (reason : String)

def Mark.apply (mark : Mark) (row : SourceDispatchExecution) (now : Timestamp) :
    SourceDispatchExecution :=
  match mark with
  | complete reason => row.finish .completed reason none now
  | fail error reason => row.finish .failed reason (some (String.ofList (error.toList.take 1000))) now
  | stale reason => row.markStale reason now

end Claim

end Cygnus.Dispatch
