import Cygnus.Data.Machine
import Cygnus.Dispatch.Execution
import Mathlib.Data.Prod.Lex

/-! Deletion of sources. A request tombstones the source and commits an intent; a sweep cleans the
storage prefix outside any transaction, and then removes the row. An action is one read of an open
request, one commit, or one call to the storage; a crash drops what was in memory. -/

namespace Cygnus.Deletion

open Wiki Dispatch Result Sequence

inductive DeletionStatus
  | pending
  | inProgress
  | completed
  | failed
  deriving DecidableEq

def maxSourceDeletionAttempts : Nat := 10
def sourceDeletionBackoff : Nat := seconds 120

structure SourceDeletion where
  id : Uuid
  sourceId : Option Uuid
  requestedByEmployeeId : Option Uuid
  storagePrefix : String
  status : DeletionStatus := .pending
  attemptCount : Nat := 0
  lastError : Option String := none
  requestedAt : Timestamp
  startedAt : Option Timestamp := none
  completedAt : Option Timestamp := none
  updatedAt : Timestamp
  deriving DecidableEq

instance : Row SourceDeletion := ⟨SourceDeletion.id⟩

inductive DeletionError
  | notFound
  | blocked
  | sessionInUse
  | staleData
  | multipleResults
  | integrityError (constraint : String)
  | valueError (message : String)
  deriving DecidableEq

def sourceStoragePrefix (sourceId : Uuid) : String := "sources/" ++ sourceId.text ++ "/"

/-- An exception, with the name of its type and its text. -/
structure Raised where
  kind : String
  message : String
  deriving DecidableEq

def Raised.error (raised : Raised) : String :=
  raised.kind ++ ": " ++ String.ofList (raised.message.toList.take 900)

section Request

/-- What a request will write to the intent, decided by what it read. -/
inductive IntentWrite
  | insert (row : SourceDeletion)
  | keep
  | retry (read : SourceDeletion)
  deriving DecidableEq

structure Planned where
  now : Timestamp
  fenced : List Uuid
  intent : IntentWrite
  deriving DecidableEq

/-- A transaction around `request_source_deletion`, with the source as it was loaded. -/
structure Request where
  id : Uuid
  source : Source
  planned : Option Planned := none
  deriving DecidableEq

instance : Row Request := ⟨Request.id⟩

/-- Only a tombstone that is new is flushed, and only the flush locks the source row. -/
def Request.locks (request : Request) (sourceId : Uuid) : Bool :=
  request.planned.isSome && request.source.deleteRequestedAt.isNone && request.source.id = sourceId

def newDeletion (rowId sourceId : Uuid) (actorId : Option Uuid) (now : Timestamp) :
    SourceDeletion :=
  { id := rowId, sourceId := some sourceId, requestedByEmployeeId := actorId,
    storagePrefix := sourceStoragePrefix sourceId, requestedAt := now, updatedAt := now }

end Request

section Run

inductive Phase
  | claimed
  | uncleaned (raised : Raised)
  | cleaned
  | unremoved (raised : Raised)
  deriving DecidableEq

/-- A call of `process_source_deletion` after its claim. -/
structure DeletionRun where
  id : Uuid
  rowId : Uuid
  storagePrefix : String
  phase : Phase := .claimed
  deriving DecidableEq

instance : Row DeletionRun := ⟨DeletionRun.id⟩

end Run

inductive Event
  | intended (sourceId : Uuid)
  | claimed (rowId : Uuid)
  | cleaned (storagePrefix : String)
  | removed (sourceId : Uuid)
  deriving DecidableEq

structure World where
  sources : Table Source := []
  executions : Table SourceDispatchExecution := []
  deletions : Table SourceDeletion := []
  requests : Table Request := []
  runs : Table DeletionRun := []
  /-- identifiers handed to `process_source_deletion` and not yet taken up -/
  scheduled : List Uuid := []
  history : List Event := []
  deriving DecidableEq

section Requests

def fencedBy (executions : Table SourceDispatchExecution) (sourceId : Uuid) : List Uuid :=
  (executions.filter fun row => row.sourceId = sourceId && !row.dispatchStatus.isTerminal).map
    (·.id)

/-- The flush of the tombstone waits for the row lock, and finds no row once the source is gone. -/
def flushTombstone (world : World) (request : Request) : Except DeletionError Unit :=
  if request.source.deleteRequestedAt.isSome then .ok ()
  else if ∃ other ∈ world.requests, other.locks request.source.id then .error .blocked
  else if (world.sources.get request.source.id).isNone then .error .staleData
  else .ok ()

def readIntent (deletions : Table SourceDeletion) (sourceId : Uuid) (new : SourceDeletion) :
    Except DeletionError IntentWrite :=
  match deletions.filter (·.sourceId = some sourceId) with
  | [] => .ok (.insert new)
  | [row] => if row.status = .failed then .ok (.retry row) else .ok .keep
  | _ => .error .multipleResults

/-- `request_source_deletion`, up to the caller's commit. -/
def requestSourceDeletion (world : World) (request : Request) (actorId : Option Uuid) (rowId : Uuid)
    (now : Timestamp) : Except DeletionError Request := do
  require request.planned.isNone .sessionInUse
  let sourceId := request.source.id
  flushTombstone world request
  let intent ← readIntent world.deletions sourceId (newDeletion rowId sourceId actorId now)
  return { request with planned := some ⟨now, fencedBy world.executions sourceId, intent⟩ }

def fenceExecutions (executions : Table SourceDispatchExecution) (fenced : List Uuid)
    (now : Timestamp) : Table SourceDispatchExecution :=
  executions.map fun row =>
    if row.id ∈ fenced then
      row.finish .stale "source_deleted"
        (some "source deletion tombstone committed; execution fenced") now
    else row

/-- A source that was loaded with its tombstone is not written again. -/
def tombstone (sources : Table Source) (loaded : Source) (now : Timestamp) : Table Source :=
  sources.map fun row =>
    if row.id = loaded.id && loaded.deleteRequestedAt.isNone then
      { row with deleteRequestedAt := some now }
    else row

/-- A failed intent is set back to pending by primary key, whatever it has become since. -/
def SourceDeletion.retried (read committed : SourceDeletion) (now : Timestamp) : SourceDeletion :=
  { committed with
    status := .pending, updatedAt := now,
    lastError := if read.lastError = none then committed.lastError else none }

def writeIntent (world : World) (now : Timestamp) :
    IntentWrite → Except DeletionError (Table SourceDeletion × List Event)
  | .insert row => do
    let sourceId ← demand row.sourceId .notFound
    require (world.sources.get sourceId).isSome (.integrityError "source_deletions_source_id_fkey")
    let deletions ← world.deletions.insert (.integrityError "source_deletions_pkey") row
    return (deletions, [.intended sourceId])
  | .keep => return (world.deletions, [])
  | .retry read => do
    let committed ← demand (world.deletions.get read.id) .staleData
    return (world.deletions.put (read.retried committed now), [])

def commitRequest (world : World) (request : Request) : Except DeletionError World := do
  let planned ← demand request.planned .notFound
  let (deletions, events) ← writeIntent world planned.now planned.intent
  return { world with
    sources := tombstone world.sources request.source planned.now,
    executions := fenceExecutions world.executions planned.fenced planned.now,
    deletions := deletions,
    requests := world.requests.filter (·.id ≠ request.id),
    history := world.history ++ events }

end Requests

section Sweep

def isRetryDue (row : SourceDeletion) (now : Timestamp) : Bool :=
  if row.status = .failed then row.updatedAt + sourceDeletionBackoff ≤ now else true

def SourceDeletion.age (row : SourceDeletion) : Timestamp ×ₗ Uuid := toLex (row.requestedAt, row.id)

/-- The oldest intents up to the limit, and of those the ones that are due. -/
def dueDeletions (deletions : Table SourceDeletion) (limit : Nat) (now : Timestamp) :
    List SourceDeletion :=
  ((sortedBy SourceDeletion.age (deletions.filter fun row =>
    row.status ≠ .completed && row.sourceId.isSome)).take limit).filter (isRetryDue · now)

def SourceDeletion.claim (row : SourceDeletion) (now : Timestamp) : SourceDeletion :=
  { row with
    status := .inProgress, attemptCount := row.attemptCount + 1,
    startedAt := row.startedAt.or (some now), lastError := none, updatedAt := now }

/-- The source is gone already: nothing is left to clean. -/
def SourceDeletion.close (row : SourceDeletion) (now : Timestamp) : SourceDeletion :=
  { row with
    status := .completed, completedAt := row.completedAt.or (some now), updatedAt := now }

def SourceDeletion.complete (row : SourceDeletion) (now : Timestamp) : SourceDeletion :=
  { row with
    sourceId := none, status := .completed, completedAt := some now, lastError := none,
    updatedAt := now }

def SourceDeletion.fail (row : SourceDeletion) (error : String) (now : Timestamp) :
    SourceDeletion :=
  { row with status := .failed, lastError := some error, updatedAt := now }

def cleanupError (row : SourceDeletion) (raised : Raised) : String :=
  if maxSourceDeletionAttempts ≤ row.attemptCount then
    raised.error ++ " — retry budget exhausted (" ++ toString maxSourceDeletionAttempts ++
      " attempts)"
  else raised.error

/-- The first transaction of `process_source_deletion`. -/
def claimDeletion (world : World) (runId rowId : Uuid) (now : Timestamp) :
    Except DeletionError World := do
  require (rowId ∈ world.scheduled) .notFound
  let world := { world with scheduled := world.scheduled.erase rowId }
  match world.deletions.get rowId with
  | none => return world
  | some row =>
    if row.status = .completed then return world
    else if row.sourceId.isNone then
      return { world with deletions := world.deletions.put (row.close now) }
    else do
      let runs ← world.runs.insert .sessionInUse
        { id := runId, rowId := rowId, storagePrefix := row.storagePrefix }
      return { world with
        deletions := world.deletions.put (row.claim now), runs := runs,
        history := world.history ++ [.claimed rowId] }

/-- `delete_prefix`, which counts a missing object as deleted. -/
def cleanStorage (world : World) (run : DeletionRun) (reply : Option Raised) :
    Except DeletionError World := do
  require (run.phase = .claimed) .notFound
  match reply with
  | some raised => return { world with runs := world.runs.put { run with phase := .uncleaned raised } }
  | none => return { world with
      runs := world.runs.put { run with phase := .cleaned },
      history := world.history ++ [.cleaned run.storagePrefix] }

def World.finish (world : World) (run : DeletionRun) : World :=
  { world with runs := world.runs.filter (·.id ≠ run.id) }

/-- The transactions that record a failure leave a completed intent alone. -/
def recordFailure (world : World) (run : DeletionRun) (now : Timestamp)
    (error : SourceDeletion → String) : World :=
  match world.deletions.get run.rowId with
  | none => world.finish run
  | some row =>
    if row.status = .completed then world.finish run
    else World.finish { world with deletions := world.deletions.put (row.fail (error row) now) } run

def recordRunFailure (world : World) (run : DeletionRun) (now : Timestamp) :
    Except DeletionError World :=
  match run.phase with
  | .uncleaned raised => return recordFailure world run now (cleanupError · raised)
  | .unremoved raised => return recordFailure world run now fun _ => raised.error
  | _ => throw .notFound

/-- `ON DELETE SET NULL` -/
def unlinkSource (deletions : Table SourceDeletion) (sourceId : Uuid) : Table SourceDeletion :=
  deletions.map fun row =>
    if row.sourceId = some sourceId then { row with sourceId := none } else row

/-- `_remove_source_rows` and its commit, where detaching the wiki pages may raise. -/
def removeSource (world : World) (run : DeletionRun) (row : SourceDeletion) (source : Source)
    (reply : Option Raised) (now : Timestamp) : World :=
  match reply with
  | some raised => { world with runs := world.runs.put { run with phase := .unremoved raised } }
  | none => World.finish { world with
      sources := world.sources.filter (·.id ≠ source.id),
      executions := world.executions.filter (·.sourceId ≠ source.id),
      deletions := (unlinkSource world.deletions source.id).put (row.complete now),
      history := world.history ++ [.removed source.id] } run

/-- The last transaction of `process_source_deletion`. -/
def removeSourceRows (world : World) (run : DeletionRun) (reply : Option Raised) (now : Timestamp) :
    Except DeletionError World := do
  require (run.phase = .cleaned) .notFound
  match world.deletions.get run.rowId with
  | none => return world.finish run
  | some row =>
    if row.status = .completed then return world.finish run
    else
      match row.sourceId with
      | none => return World.finish { world with deletions := world.deletions.put (row.close now) } run
      | some sourceId => do
        require (∀ request ∈ world.requests, request.locks sourceId = false) .blocked
        match world.sources.get sourceId with
        | none =>
          return World.finish { world with
            deletions := world.deletions.put { row with
              sourceId := none, status := .completed, completedAt := some now,
              updatedAt := now } } run
        | some source => return removeSource world run row source reply now

end Sweep

inductive Action
  | load (requestId sourceId : Uuid)
  | request (requestId : Uuid) (actorId : Option Uuid) (rowId : Uuid) (now : Timestamp)
  | commit (requestId : Uuid)
  /-- A request whose transaction is rolled back, or whose process dies. -/
  | abort (requestId : Uuid)
  | sweep (limit : Nat) (now : Timestamp)
  /-- The attempt of the request path; its route passes the identifier of the source. -/
  | attempt (rowId : Uuid)
  | claim (runId rowId : Uuid) (now : Timestamp)
  | clean (runId : Uuid) (reply : Option Raised)
  | remove (runId : Uuid) (reply : Option Raised) (now : Timestamp)
  | recordFailure (runId : Uuid) (now : Timestamp)
  | crash (runId : Uuid)

def perform (action : Action) (world : World) : Except DeletionError World :=
  match action with
  | .load requestId sourceId => do
    let source ← demand (world.sources.get sourceId) .notFound
    let requests ← world.requests.insert .sessionInUse { id := requestId, source := source }
    return { world with requests := requests }
  | .request requestId actorId rowId now => do
    let request ← demand (world.requests.get requestId) .notFound
    let request ← requestSourceDeletion world request actorId rowId now
    return { world with requests := world.requests.put request }
  | .commit requestId => do
    let request ← demand (world.requests.get requestId) .notFound
    commitRequest world request
  | .abort requestId => return { world with
      requests := world.requests.filter (·.id ≠ requestId) }
  | .sweep limit now => do
    require (1 ≤ limit) (.valueError "limit must be positive")
    return { world with
      scheduled := world.scheduled ++ (dueDeletions world.deletions limit now).map (·.id) }
  | .attempt rowId => return { world with scheduled := world.scheduled ++ [rowId] }
  | .claim runId rowId now => claimDeletion world runId rowId now
  | .clean runId reply => do
    let run ← demand (world.runs.get runId) .notFound
    cleanStorage world run reply
  | .remove runId reply now => do
    let run ← demand (world.runs.get runId) .notFound
    removeSourceRows world run reply now
  | .recordFailure runId now => do
    let run ← demand (world.runs.get runId) .notFound
    recordRunFailure world run now
  | .crash runId => return { world with runs := world.runs.filter (·.id ≠ runId) }

end Cygnus.Deletion
