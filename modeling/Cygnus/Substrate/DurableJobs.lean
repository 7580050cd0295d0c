import Cygnus.Data.Document
import Cygnus.Data.PosixPath
import Cygnus.Data.Text

/-! Durable workflow jobs, and the store that keeps each in a file. -/

namespace Cygnus.DurableJobs

open Result Text Sequence Posix

inductive JobError
  | valueError (message : String)
  | keyError (key : String)
  | typeError
  | attributeError
  | osError
  | decodeError
  deriving DecidableEq

/-- Python's conversions where no job's own file calls on them, and its datetimes `τ`. -/
structure Python (R τ : Type) where
  repr : Document R → String
  int : Document R → Except JobError Int
  dict : Document R → Except JobError (Dict String (Document R))
  nonzero : R → Bool
  isoformat : τ → String
  fromisoformat : String → Except JobError τ

namespace Python

variable {R τ : Type} (py : Python R τ)

/-- `str(value)`. -/
def text : Document R → String
  | .str s => s
  | value => py.repr value

/-- `int(value)`. -/
def toInt : Document R → Except JobError Int
  | .int n => .ok n
  | .bool b => .ok b.toInt
  | value => py.int value

/-- `dict(value)`. -/
def toDict : Document R → Except JobError (Dict String (Document R))
  | .object fields => .ok fields
  | value => py.dict value

/-- `bool(value)`. -/
def truth : Document R → Bool
  | .null => false
  | .bool b => b
  | .int n => n ≠ 0
  | .real x => py.nonzero x
  | .str s => s ≠ ""
  | .list items => !items.isEmpty
  | .object fields => !fields.isEmpty

end Python

/-- `payload[key]`. -/
def item {R : Type} (payload : Dict String (Document R)) (key : String) :
    Except JobError (Document R) :=
  demand (payload.lookup key) (.keyError key)

inductive PipelinePhase
  | ingest
  | normalize
  | mapReduce
  | plan
  | review
  | publish
  | feedback
  deriving DecidableEq

namespace PipelinePhase

def value : PipelinePhase → String
  | ingest => "ingest"
  | normalize => "normalize"
  | mapReduce => "map_reduce"
  | plan => "plan"
  | review => "review"
  | publish => "publish"
  | feedback => "feedback"

def phaseSequence : List PipelinePhase :=
  [ingest, normalize, mapReduce, plan, review, publish, feedback]

def phaseIndex (phase : PipelinePhase) : Nat := phaseSequence.idxOf phase

def coercePhase {R τ : Type} (py : Python R τ) (value : String) : Except JobError PipelinePhase :=
  demand (phaseSequence.find? fun phase => phase.value = value)
    (.valueError s!"{py.repr (.str value)} is not a valid PipelinePhase")

theorem coercePhase_value {R τ : Type} (py : Python R τ) (phase : PipelinePhase) :
    coercePhase py phase.value = .ok phase := by
  cases phase <;> rfl

end PipelinePhase

open PipelinePhase

def expectedPhases (currentPhase : PipelinePhase) (isComplete : Bool) : List PipelinePhase :=
  if isComplete then phaseSequence else phaseSequence.take currentPhase.phaseIndex

structure PipelineCheckpoint where
  workflowId : String
  currentPhase : PipelinePhase := .ingest
  completedPhases : List PipelinePhase := []
  isComplete : Bool := false
  nonblank : strip workflowId ≠ ""
  ended : isComplete = true → currentPhase = .feedback
  completed : completedPhases = expectedPhases currentPhase isComplete

namespace PipelineCheckpoint

/-- The constructor with its `__post_init__`. -/
def make (workflowId : String) (currentPhase : PipelinePhase)
    (completedPhases : List PipelinePhase) (isComplete : Bool) :
    Except JobError PipelineCheckpoint :=
  if hblank : strip workflowId = "" then .error (.valueError "workflow_id must not be blank")
  else if ¬ completedPhases.Nodup then
    .error (.valueError "completed phases must not contain duplicates")
  else if hended : isComplete = true ∧ currentPhase ≠ .feedback then
    .error (.valueError "completed checkpoint must end at feedback phase")
  else if hcompleted :
      sortedBy phaseIndex completedPhases = expectedPhases currentPhase isComplete then
    .ok {
      workflowId := workflowId
      currentPhase := currentPhase
      completedPhases := sortedBy phaseIndex completedPhases
      isComplete := isComplete
      nonblank := hblank
      ended := fun hcomplete => by_contra fun hne => hended ⟨hcomplete, hne⟩
      completed := hcompleted }
  else
    let expected := (expectedPhases currentPhase isComplete).map value
    .error (.valueError
      ("completed phases do not match pipeline truth for the current phase; expected: " ++
        if expected.isEmpty then "none" else ", ".intercalate expected))

def resumePhase (checkpoint : PipelineCheckpoint) : Option PipelinePhase :=
  if checkpoint.isComplete then none else some checkpoint.currentPhase

variable {R τ : Type} (py : Python R τ)

def toDict (checkpoint : PipelineCheckpoint) : Dict String (Document R) :=
  [("workflow_id", .str checkpoint.workflowId),
    ("current_phase", .str checkpoint.currentPhase.value),
    ("completed_phases", .list (checkpoint.completedPhases.map fun phase => .str phase.value)),
    ("resume_phase", checkpoint.resumePhase.elim .null fun phase => .str phase.value),
    ("is_complete", .bool checkpoint.isComplete)]

/-- What a loop over the stored phases goes through: text by characters, an object by keys. -/
def rawPhases : Document R → Except JobError (List (Document R))
  | .list items => .ok items
  | .str s => .ok (s.toList.map fun c => .str (String.singleton c))
  | .object fields => .ok ((Dict.keys fields).map .str)
  | _ => .error (.valueError "completed_phases must be a sequence of phase names")

def phaseOf : Document R → Except JobError PipelinePhase
  | .str s => coercePhase py s
  | rawPhase => .error (.valueError
      s!"completed_phases entries must be phase names, got {py.repr rawPhase}")

def fromDict (payload : Dict String (Document R)) : Except JobError PipelineCheckpoint := do
  let raw ← rawPhases ((payload.lookup "completed_phases").getD (.list []))
  let completedPhases ← raw.mapM (phaseOf py)
  let workflowId ← item payload "workflow_id"
  let currentPhase ← item payload "current_phase"
  let currentPhase ← coercePhase py (py.text currentPhase)
  make (py.text workflowId) currentPhase completedPhases
    (py.truth ((payload.lookup "is_complete").getD (.bool false)))

end PipelineCheckpoint

inductive QueueStatus
  | pending
  | active
  | failed
  | resumed
  | completed
  deriving DecidableEq

namespace QueueStatus

def value : QueueStatus → String
  | pending => "pending"
  | active => "active"
  | failed => "failed"
  | resumed => "resumed"
  | completed => "completed"

def allowedStatusTransitions : QueueStatus → List QueueStatus
  | pending => [active]
  | active => [failed, completed]
  | failed => [resumed]
  | resumed => [active]
  | completed => []

def ofValue {R τ : Type} (py : Python R τ) (value : String) : Except JobError QueueStatus :=
  demand ([pending, active, failed, resumed, completed].find? fun status => status.value = value)
    (.valueError s!"{py.repr (.str value)} is not a valid QueueStatus")

theorem ofValue_value {R τ : Type} (py : Python R τ) (status : QueueStatus) :
    ofValue py status.value = .ok status := by
  cases status <;> rfl

end QueueStatus

structure JobFields (R τ : Type) where
  jobId : String
  workflowId : String
  workflowName : String
  queueName : String
  checkpoint : PipelineCheckpoint
  workflowPayload : Dict String (Document R)
  queueStatus : QueueStatus := .pending
  attemptCount : Int := 0
  createdAt : τ
  updatedAt : τ
  lastError : Option String := none

/-- `__post_init__`. -/
def JobFields.postInit {R τ : Type} (job : JobFields R τ) : Except JobError Unit := do
  require (strip job.jobId ≠ "") (.valueError "job_id must not be blank")
  require (strip job.workflowId ≠ "") (.valueError "workflow_id must not be blank")
  require (strip job.workflowName ≠ "") (.valueError "workflow_name must not be blank")
  require (strip job.queueName ≠ "") (.valueError "queue_name must not be blank")
  require (job.checkpoint.workflowId = job.workflowId)
    (.valueError "checkpoint workflow_id must match job workflow_id")
  require (0 ≤ job.attemptCount) (.valueError "attempt_count must not be negative")
  require (job.lastError.map strip ≠ some "")
    (.valueError "last_error must not be blank when provided")

structure DurableWorkflowJob (R τ : Type) extends JobFields R τ where
  valid : toJobFields.postInit = .ok ()

namespace DurableWorkflowJob

variable {R τ : Type} (py : Python R τ)

def make (fields : JobFields R τ) : Except JobError (DurableWorkflowJob R τ) :=
  match h : fields.postInit with
  | .ok () => .ok ⟨fields, h⟩
  | .error error => .error error

/-- The error that a job keeps: a failed one must have it. -/
def keptError (target : QueueStatus) (error : Option String) :
    Except JobError (Option String) :=
  if target ≠ .failed then .ok none
  else if strip (error.getD "") = "" then
    .error (.valueError "failed queue transition requires a non-blank error")
  else .ok (some (strip (error.getD "")))

/-- The job in its next state; `now` is the clock's reading. -/
def transitionTo (job : DurableWorkflowJob R τ) (target : QueueStatus) (error : Option String)
    (now : τ) : Except JobError (DurableWorkflowJob R τ) := do
  let allowed := job.queueStatus.allowedStatusTransitions
  let texts := (sortedBy QueueStatus.value allowed).map QueueStatus.value
  let listed := if texts.isEmpty then "none" else ", ".intercalate texts
  require (target ∈ allowed) (.valueError
    (s!"invalid queue transition: {job.queueStatus.value} -> {target.value}; " ++
      s!"allowed targets: {listed}"))
  let attemptCount := if target = .active then job.attemptCount + 1 else job.attemptCount
  let lastError ← keptError target error
  make { job.toJobFields with
    queueStatus := target
    attemptCount := attemptCount
    updatedAt := now
    lastError := lastError }

def toDict (job : DurableWorkflowJob R τ) : Dict String (Document R) :=
  [("job_id", .str job.jobId),
    ("workflow_id", .str job.workflowId),
    ("workflow_name", .str job.workflowName),
    ("queue_name", .str job.queueName),
    ("queue_status", .str job.queueStatus.value),
    ("attempt_count", .int job.attemptCount),
    ("checkpoint", .object job.checkpoint.toDict),
    ("workflow_payload", .object job.workflowPayload),
    ("resume_phase", job.checkpoint.resumePhase.elim .null fun phase => .str phase.value),
    ("created_at", .str (py.isoformat job.createdAt)),
    ("updated_at", .str (py.isoformat job.updatedAt)),
    ("last_error", job.lastError.elim .null .str)]

/-- The constructor on a stored `last_error`: only a text can be stripped. -/
def makeWithError (fields : JobFields R τ) : Document R →
    Except JobError (DurableWorkflowJob R τ)
  | .null => make { fields with lastError := none }
  | .str error => make { fields with lastError := some error }
  | _ => do
    JobFields.postInit { fields with lastError := none }
    throw .attributeError

def fromDict (payload : Dict String (Document R)) : Except JobError (DurableWorkflowJob R τ) := do
  let jobId ← item payload "job_id"
  let workflowId ← item payload "workflow_id"
  let workflowName ← item payload "workflow_name"
  let queueName ← item payload "queue_name"
  let queueStatus ← item payload "queue_status"
  let queueStatus ← QueueStatus.ofValue py (py.text queueStatus)
  let attemptCount ← py.toInt ((payload.lookup "attempt_count").getD (.int 0))
  let checkpoint ← item payload "checkpoint"
  let checkpoint ← py.toDict checkpoint
  let checkpoint ← PipelineCheckpoint.fromDict py checkpoint
  let workflowPayload ← py.toDict ((payload.lookup "workflow_payload").getD (.object []))
  let createdAt ← item payload "created_at"
  let createdAt ← py.fromisoformat (py.text createdAt)
  let updatedAt ← item payload "updated_at"
  let updatedAt ← py.fromisoformat (py.text updatedAt)
  makeWithError {
    jobId := py.text jobId
    workflowId := py.text workflowId
    workflowName := py.text workflowName
    queueName := py.text queueName
    checkpoint := checkpoint
    workflowPayload := workflowPayload
    queueStatus := queueStatus
    attemptCount := attemptCount
    createdAt := createdAt
    updatedAt := updatedAt } ((payload.lookup "last_error").getD .null)

end DurableWorkflowJob

/-- What `json.loads` makes of a file's text, where it makes anything. -/
abbrev Contents (R : Type) := Option (Document R)

/-- `from_dict(json.loads(text))`. -/
def parse {R τ : Type} (py : Python R τ) : Contents R → Except JobError (DurableWorkflowJob R τ)
  | some (.object payload) => DurableWorkflowJob.fromDict py payload
  | some _ => .error .typeError
  | none => .error .decodeError

/-- An operation that raises keeps what it wrote before. -/
abbrev Storing (R α : Type) := ExceptT JobError (StateM (Disk (Contents R))) α

def fromExcept {R α : Type} (result : Except JobError α) : Storing R α := ExceptT.mk (pure result)

structure FileDurableJobStore where
  rootDir : Path

namespace FileDurableJobStore

variable {R τ : Type} (py : Python R τ) (store : FileDurableJobStore)

def pathFor (jobId : String) : Except JobError Path := do
  require (strip jobId ≠ "") (.valueError "job_id must not be blank")
  return join store.rootDir (jobId.toList ++ ".json".toList)

/-- The job that a disk's file of this name holds. -/
def jobAt (disk : Disk (Contents R)) (jobId : String) :
    Except JobError (DurableWorkflowJob R τ) := do
  let path ← store.pathFor jobId
  let contents ← demand (disk.read path) .osError
  parse py contents

def load (jobId : String) : Storing R (DurableWorkflowJob R τ) := do
  let disk ← get
  fromExcept (store.jobAt py disk jobId)

def save (job : DurableWorkflowJob R τ) : Storing R (DurableWorkflowJob R τ) := do
  let path ← fromExcept (store.pathFor job.jobId)
  let disk ← get
  let disk ← fromExcept (demand
    (disk.write path (some (Document.object (job.toDict py)).sortKeys)) .osError)
  set disk
  return job

def enqueue (job : DurableWorkflowJob R τ) : Storing R (DurableWorkflowJob R τ) :=
  store.save py job

def update (jobId : String) (target : QueueStatus) (error : Option String) (now : τ) :
    Storing R (DurableWorkflowJob R τ) := do
  let job ← store.load py jobId
  let job ← fromExcept (job.transitionTo target error now)
  store.save py job

def activate (jobId : String) (now : τ) : Storing R (DurableWorkflowJob R τ) :=
  store.update py jobId .active none now

def fail (jobId error : String) (now : τ) : Storing R (DurableWorkflowJob R τ) :=
  store.update py jobId .failed (some error) now

def resume (jobId : String) (now : τ) : Storing R (DurableWorkflowJob R τ) :=
  store.update py jobId .resumed none now

def complete (jobId : String) (now : τ) : Storing R (DurableWorkflowJob R τ) :=
  store.update py jobId .completed none now

end FileDurableJobStore

/-- The operations that write. -/
inductive Operation (R τ : Type)
  | save (job : DurableWorkflowJob R τ)
  | activate (jobId : String) (now : τ)
  | fail (jobId error : String) (now : τ)
  | resume (jobId : String) (now : τ)
  | complete (jobId : String) (now : τ)

namespace Operation

variable {R τ : Type} (py : Python R τ) (store : FileDurableJobStore)

def jobId : Operation R τ → String
  | save job => job.jobId
  | activate jobId _ => jobId
  | fail jobId _ _ => jobId
  | resume jobId _ => jobId
  | complete jobId _ => jobId

def perform : Operation R τ → Storing R (DurableWorkflowJob R τ)
  | save job => store.save py job
  | activate jobId now => store.activate py jobId now
  | fail jobId error now => store.fail py jobId error now
  | resume jobId now => store.resume py jobId now
  | complete jobId now => store.complete py jobId now

def result (disk : Disk (Contents R)) (op : Operation R τ) :
    Except JobError (DurableWorkflowJob R τ) :=
  ((op.perform py store).run.run disk).1

def after (disk : Disk (Contents R)) (op : Operation R τ) : Disk (Contents R) :=
  ((op.perform py store).run.run disk).2

def run (disk : Disk (Contents R)) (ops : List (Operation R τ)) : Disk (Contents R) :=
  ops.foldl (after py store) disk

end Operation

end Cygnus.DurableJobs
