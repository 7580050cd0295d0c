import Cygnus.Data.Sequence
import Cygnus.Governance.Ledger

/-! `append_draft_event` on the texts it is called with: states, keys and reasons are arbitrary strings,
stripped before they are compared or stored. -/

namespace Cygnus.Governance.EventLog

open Wiki Text

/-- A JSON object as a payload column holds it. -/
abbrev Payload := { fields : JsonObject // (Json.object fields).DistinctKeys }

instance : Inhabited Payload := ⟨[], .object List.nodup_nil fun _ h => absurd h List.not_mem_nil⟩

/-- A row of `governance_ledger_events`. -/
structure Event where
  id : Uuid
  draftId : Uuid
  sequence : Nat
  eventType : GovernanceEventType
  fromState : Option String
  toState : String
  actorId : Option Uuid
  idempotencyKey : String
  reason : Option String
  payload : Payload

abbrev Log := List Event

inductive LedgerError
  | valueError (message : String)
  | governanceLedgerConflict (message : String)
  | integrityError (constraint : String)
  deriving DecidableEq

/-- A call that raises keeps what it wrote before. -/
abbrev Appending := ExceptT LedgerError (StateM Log)

def check (condition : Prop) [Decidable condition] (error : LedgerError) : Appending Unit :=
  if condition then pure () else throw error

/-- The arguments of `append_draft_event`; `eventId` is the identifier drawn for a new row. -/
structure Call where
  eventId : Uuid
  draftId : Uuid
  eventType : GovernanceEventType
  fromState : Option String
  toState : String
  actorId : Option Uuid
  idempotencyKey : String
  reason : Option String := none
  payload : Option Payload := none

def Call.key (call : Call) : String := strip call.idempotencyKey

/-- `existing_identity == expected_identity`. -/
def Call.sameIdentity (call : Call) (existing : Event) : Bool :=
  existing.draftId = call.draftId && existing.eventType = call.eventType &&
    existing.fromState = call.fromState.map strip && existing.toState = strip call.toState &&
    existing.actorId = call.actorId && existing.reason = call.reason.map strip &&
    Json.eq (.object existing.payload.1) (.object (call.payload.getD default).1)

/-- The history of one draft. -/
def eventsOf (log : Log) (draftId : Uuid) : List Event := log.filter (·.draftId = draftId)

def getLatestDraftEvent (log : Log) (draftId : Uuid) : Option Event :=
  (eventsOf log draftId).argmax Event.sequence

def findKey (log : Log) (key : String) : Option Event := log.find? (·.idempotencyKey = key)

def Call.row (call : Call) (sequence : Nat) : Event :=
  { id := call.eventId, draftId := call.draftId, sequence := sequence, eventType := call.eventType,
    fromState := call.fromState.map strip, toState := strip call.toState, actorId := call.actorId,
    idempotencyKey := call.key, reason := call.reason.map strip,
    payload := call.payload.getD default }

def nextSequence (call : Call) : Option Event → Appending Nat
  | none => do
    check (call.fromState.map strip = none) (.governanceLedgerConflict
      s!"draft_id={call.draftId.text} has no current state; expected from_state=None")
    return 1
  | some current => do
    check (some current.toState = call.fromState.map strip) (.governanceLedgerConflict
      (s!"draft_id={call.draftId.text} state conflict: expected {current.toState}, " ++
        "got " ++ (call.fromState.map strip).getD "None"))
    return current.sequence + 1

section Append

-- the drafts that exist, for the foreign key of new rows
variable (drafts : List Uuid)

def insertEvent (event : Event) : Appending Unit := do
  let log ← get
  check (event.draftId ∈ drafts) (.integrityError "governance_ledger_events_draft_id_fkey")
  check (∀ other ∈ log, other.id ≠ event.id) (.integrityError "governance_ledger_events_pkey")
  set (log ++ [event])

def appendDraftEvent (call : Call) : Appending Event := do
  check (call.key ≠ "") (.valueError "idempotency_key must not be blank")
  check (strip call.toState ≠ "") (.valueError "to_state must not be blank")
  check (call.fromState.map strip ≠ some "")
    (.valueError "from_state must not be blank when provided")
  check (call.reason.map strip ≠ some "") (.valueError "reason must not be blank when provided")
  let log ← get
  match findKey log call.key with
  | some existing =>
    check (call.sameIdentity existing) (.governanceLedgerConflict
      s!"idempotency_key={call.key} is already bound to a different transition")
    return existing
  | none =>
    let sequence ← nextSequence call (getLatestDraftEvent log call.draftId)
    insertEvent drafts (call.row sequence)
    return call.row sequence

/-- One call on a ledger: what it returns or raises, and the ledger it leaves. -/
def append (log : Log) (call : Call) : Except LedgerError Event × Log :=
  (appendDraftEvent drafts call).run.run log

def run (calls : List Call) : Log :=
  calls.foldl (fun log call => (append drafts log call).2) []

end Append

/-- Numbered from one, each event leaving the state the one before it entered. -/
structure Chain (events : List Event) : Prop where
  sequences : events.map Event.sequence = List.range' 1 events.length
  states : events.map Event.fromState =
    (none :: events.map fun e => some e.toState).take events.length

end Cygnus.Governance.EventLog
