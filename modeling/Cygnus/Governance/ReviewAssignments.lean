import Cygnus.Data.JsonText
import Cygnus.Data.Table
import Cygnus.Wiki.Models

/-! The owner of a governance signal: commands that move a versioned row, and the events they leave. -/

namespace Cygnus.Governance.ReviewAssignments

open Result Text
open Wiki (Timestamp)

inductive OwnerState
  | unassigned | assigned | escalated
  deriving DecidableEq, Repr

def OwnerState.value : OwnerState → String
  | .unassigned => "unassigned"
  | .assigned => "assigned"
  | .escalated => "escalated"

inductive ReviewAssignmentAction
  | assign | escalate | release
  deriving DecidableEq, Repr

def ReviewAssignmentAction.value : ReviewAssignmentAction → String
  | .assign => "assign"
  | .escalate => "escalate"
  | .release => "release"

inductive EventType
  | initialized | assigned | reassigned | escalated | released
  deriving DecidableEq, Repr

def EventType.value : EventType → String
  | .initialized => "initialized"
  | .assigned => "assigned"
  | .reassigned => "reassigned"
  | .escalated => "escalated"
  | .released => "released"

inductive GovernanceSignalStatus
  | active | resolved | dismissed
  deriving DecidableEq, Repr

def GovernanceSignalStatus.value : GovernanceSignalStatus → String
  | .active => "active"
  | .resolved => "resolved"
  | .dismissed => "dismissed"

inductive AssignmentError
  | valueError (message : String)
  | reviewAssignmentConflict (message : String)
  | governanceSignalConflict (message : String)
  | integrityError (constraint : String)
  deriving DecidableEq

def refMaxLength : Nat := 220

def reasonMaxLength : Nat := 2000

section Commands

structure ReviewAssignmentCommand where
  commandId : String
  action : ReviewAssignmentAction
  ownerRef : Option String
  reason : String
  expectedVersion : Int
  commandId_ok : commandId ≠ "" ∧ commandId.length ≤ refMaxLength
  reason_ok : reason ≠ "" ∧ reason.length ≤ reasonMaxLength
  version_ok : 1 ≤ expectedVersion
  owner_ok : if action = .release then ownerRef = none else
    ownerRef.isSome ∧ ∀ owner ∈ ownerRef, owner ≠ "" ∧ owner.length ≤ refMaxLength
  deriving DecidableEq

/-- The fields as a caller gives them. -/
structure CommandInput where
  commandId : String
  action : ReviewAssignmentAction
  ownerRef : Option String
  reason : String
  expectedVersion : Int

/-- `__post_init__`: the checks of the owner reference for one action. -/
def checkOwner (action : ReviewAssignmentAction) (ownerRef : Option String) :
    Except AssignmentError Unit :=
  if action = .release then
    require (ownerRef = none) (.valueError "release does not accept owner_ref")
  else do
    require (ownerRef.isSome ∧ ∀ owner ∈ ownerRef, owner ≠ "")
      (.valueError s!"{action.value} requires owner_ref")
    require (∀ owner ∈ ownerRef, owner.length ≤ refMaxLength)
      (.valueError s!"owner_ref must be at most {refMaxLength} characters")

theorem checkOwner_ok {action : ReviewAssignmentAction} {ownerRef : Option String}
    (h : checkOwner action ownerRef = .ok ()) :
    if action = .release then ownerRef = none else
      ownerRef.isSome ∧ ∀ owner ∈ ownerRef, owner ≠ "" ∧ owner.length ≤ refMaxLength := by
  unfold checkOwner at h
  split
  · rename_i hrelease
    rw [if_pos hrelease, require_ok] at h
    exact h
  · rename_i hrelease
    rw [if_neg hrelease] at h
    simp only [bind_ok, require_ok] at h
    obtain ⟨-, ⟨hsome, hne⟩, hlength⟩ := h
    exact ⟨hsome, fun owner howner => ⟨hne owner howner, hlength owner howner⟩⟩

def ReviewAssignmentCommand.postInit (input : CommandInput) :
    Except AssignmentError ReviewAssignmentCommand :=
  let commandId := strip input.commandId
  let reason := strip input.reason
  let ownerRef := input.ownerRef.map strip
  if hblank : commandId = "" then .error (.valueError "command_id must not be blank")
  else if hlong : refMaxLength < commandId.length then
    .error (.valueError s!"command_id must be at most {refMaxLength} characters")
  else if hreason : reason = "" then .error (.valueError "reason must not be blank")
  else if hreasonLong : reasonMaxLength < reason.length then
    .error (.valueError s!"reason must be at most {reasonMaxLength} characters")
  else if hversion : input.expectedVersion < 1 then
    .error (.valueError "expected_version must be at least 1")
  else match howner : checkOwner input.action ownerRef with
    | .error error => .error error
    | .ok () => .ok {
        commandId := commandId
        action := input.action
        ownerRef := ownerRef
        reason := reason
        expectedVersion := input.expectedVersion
        commandId_ok := ⟨hblank, Nat.le_of_not_lt hlong⟩
        reason_ok := ⟨hreason, Nat.le_of_not_lt hreasonLong⟩
        version_ok := Int.not_lt.mp hversion
        owner_ok := checkOwner_ok howner }

theorem ReviewAssignmentCommand.ownerRef_none (command : ReviewAssignmentCommand) :
    command.ownerRef = none ↔ command.action = .release := by
  have howner := command.owner_ok
  split at howner
  · rename_i hrelease
    exact iff_of_true howner hrelease
  · rename_i hrelease
    refine iff_of_false ?_ hrelease
    intro hnone
    rw [hnone] at howner
    simp at howner

end Commands

section Rows

structure GovernanceSignal where
  id : Uuid
  signalRef : String
  status : GovernanceSignalStatus
  resolvedAt : Option Timestamp
  version : Nat

structure GovernanceReviewAssignment where
  id : Uuid
  signalId : Uuid
  lifecycleState : OwnerState
  ownerRef : Option String
  escalationReason : Option String
  version : Nat
  createdAt : Timestamp
  updatedAt : Timestamp

structure GovernanceReviewAssignmentEvent where
  id : Uuid
  assignmentId : Uuid
  sequence : Nat
  commandId : String
  requestFingerprint : String
  eventType : EventType
  fromState : Option OwnerState
  toState : OwnerState
  actorId : Uuid
  ownerRef : Option String
  reason : String
  occurredAt : Timestamp

instance : Row GovernanceSignal := ⟨GovernanceSignal.id⟩

instance : Row GovernanceReviewAssignment := ⟨GovernanceReviewAssignment.id⟩

instance : Row GovernanceReviewAssignmentEvent := ⟨GovernanceReviewAssignmentEvent.id⟩

structure Store where
  signals : Table GovernanceSignal
  assignments : Table GovernanceReviewAssignment
  events : Table GovernanceReviewAssignmentEvent

def Store.empty : Store := ⟨[], [], []⟩

/-- The join that a command starts with. -/
def Store.assigned (store : Store) (signalRef : String) :
    Option (GovernanceSignal × GovernanceReviewAssignment) := do
  let signal ← store.signals.find? fun signal => signal.signalRef = signalRef
  let assignment ← store.assignments.find? fun assignment => assignment.signalId = signal.id
  return (signal, assignment)

def Store.eventOf (store : Store) (commandId : String) : Option GovernanceReviewAssignmentEvent :=
  store.events.find? fun event => event.commandId = commandId

/-- `list_review_assignment_events`, in the order of insertion. -/
def Store.history (store : Store) (assignmentId : Uuid) : List GovernanceReviewAssignmentEvent :=
  store.events.filter fun event => event.assignmentId = assignmentId

def insertEvent (event : GovernanceReviewAssignmentEvent) (store : Store) :
    Except AssignmentError Store := do
  require (store.eventOf event.commandId).isNone
    (.integrityError "governance_review_assignment_events_command_id_key")
  require (∀ other ∈ store.history event.assignmentId, other.sequence ≠ event.sequence)
    (.integrityError "uq_governance_review_assignment_events_sequence")
  let events ← store.events.insert
    (AssignmentError.integrityError "governance_review_assignment_events_pkey") event
  return { store with events := events }

end Rows

section Signals

/-- The row that `create_governance_signal` adds. -/
def insertSignal (signal : GovernanceSignal) (store : Store) : Except AssignmentError Store := do
  require (∀ other ∈ store.signals, other.signalRef ≠ signal.signalRef)
    (.integrityError "governance_signals_signal_ref_key")
  let signals ← store.signals.insert (AssignmentError.integrityError "governance_signals_pkey") signal
  return { store with signals := signals }

def resolveGovernanceSignal (signalRef : String) (resolvedAt : Timestamp) (store : Store) :
    Except AssignmentError Store := do
  let normalized := strip signalRef
  require (normalized ≠ "") (.valueError "signal_ref must not be blank")
  match store.signals.find? fun signal => signal.signalRef = normalized with
  | none => return store
  | some signal =>
    if signal.status = .resolved then return store
    else
      require (signal.status = .active) (.governanceSignalConflict
        s!"signal_ref={normalized} cannot resolve from status={signal.status.value}")
      return { store with
        signals := store.signals.put
          { signal with
            status := .resolved, resolvedAt := some resolvedAt, version := signal.version + 1 } }

end Signals

section Fingerprints

variable (sha256 : String → String)

def fingerprint (payload : Json) : String := sha256 (Json.dumps payload)

def initialFingerprint (signalRef : String) : String :=
  fingerprint sha256 <| .object [
    ("action", .str "initialize"), ("signal_ref", .str signalRef), ("owner_ref", .null)]

def commandFingerprint (signalRef : String) (command : ReviewAssignmentCommand) : String :=
  fingerprint sha256 <| .object [
    ("signal_ref", .str signalRef),
    ("action", .str command.action.value),
    ("owner_ref", Json.ofOption .str command.ownerRef),
    ("reason", .str command.reason),
    ("expected_version", .int command.expectedVersion)]

end Fingerprints

section Payloads

structure ReviewAssignmentMutationResult where
  assignment : GovernanceReviewAssignment
  event : GovernanceReviewAssignmentEvent
  signalRef : String
  replayed : Bool := false

structure AssignmentPayload where
  id : String
  signalRef : String
  ownerRef : Option String
  lifecycleState : String
  escalationReason : Option String
  version : Nat
  traceRef : String
  persisted : Bool
  createdAt : String
  updatedAt : String
  deriving DecidableEq

structure EventPayload where
  id : String
  eventType : String
  fromState : Option String
  toState : String
  actorId : String
  ownerRef : Option String
  reason : String
  sequence : Nat
  traceRef : String
  persisted : Bool
  occurredAt : String
  deriving DecidableEq

structure ResultPayload where
  assignment : AssignmentPayload
  event : EventPayload
  replayed : Bool
  deriving DecidableEq

variable (isoformat : Timestamp → String)

def reviewAssignmentToDict (assignment : GovernanceReviewAssignment) (signalRef : String) :
    AssignmentPayload where
  id := assignment.id.text
  signalRef := signalRef
  ownerRef := assignment.ownerRef
  lifecycleState := assignment.lifecycleState.value
  escalationReason := assignment.escalationReason
  version := assignment.version
  traceRef := s!"review-assignment:{assignment.id.text}"
  persisted := true
  createdAt := isoformat assignment.createdAt
  updatedAt := isoformat assignment.updatedAt

def reviewAssignmentEventToDict (event : GovernanceReviewAssignmentEvent) : EventPayload where
  id := event.id.text
  eventType := event.eventType.value
  fromState := event.fromState.map OwnerState.value
  toState := event.toState.value
  actorId := event.actorId.text
  ownerRef := event.ownerRef
  reason := event.reason
  sequence := event.sequence
  traceRef := s!"review-assignment-event:{event.id.text}"
  persisted := true
  occurredAt := isoformat event.occurredAt

def ReviewAssignmentMutationResult.toDict (result : ReviewAssignmentMutationResult) :
    ResultPayload :=
  let payload := reviewAssignmentToDict isoformat result.assignment result.signalRef
  { assignment :=
      -- A replay shows the row as the event left it.
      if result.replayed then
        { payload with
          lifecycleState := result.event.toState.value
          ownerRef := result.event.ownerRef
          escalationReason :=
            if result.event.toState = .escalated then some result.event.reason else none
          version := result.event.sequence
          updatedAt := isoformat result.event.occurredAt }
      else payload
    event := reviewAssignmentEventToDict isoformat result.event
    replayed := result.replayed }

end Payloads

section Operations

variable (sha256 : String → String)

/-- `initialize_review_assignment`; the ids and the time are those the database draws. -/
def initializeReviewAssignment (signalId actorId assignmentId eventId : Uuid) (now : Timestamp)
    (store : Store) : Except AssignmentError Store := do
  let signal ← demand (store.signals.get signalId)
    (.integrityError "governance_review_assignments_signal_id_fkey")
  require (∀ other ∈ store.assignments, other.signalId ≠ signal.id)
    (.integrityError "uq_governance_review_assignments_signal")
  let assignments ← store.assignments.insert
    (AssignmentError.integrityError "governance_review_assignments_pkey") {
      id := assignmentId
      signalId := signal.id
      lifecycleState := .unassigned
      ownerRef := none
      escalationReason := none
      version := 1
      createdAt := now
      updatedAt := now }
  insertEvent {
    id := eventId
    assignmentId := assignmentId
    sequence := 1
    commandId := s!"review-assignment:init:{signal.id.text}"
    requestFingerprint := initialFingerprint sha256 signal.signalRef
    eventType := .initialized
    fromState := none
    toState := .unassigned
    actorId := actorId
    ownerRef := none
    reason := "Review assignment initialized without an owner."
    occurredAt := now } { store with assignments := assignments }

/-- What `_transition` answers with: the state, the event type, the owner and the reason. -/
structure Transition where
  toState : OwnerState
  eventType : EventType
  ownerRef : Option String
  escalationReason : Option String

def transition (assignment : GovernanceReviewAssignment) (command : ReviewAssignmentCommand) :
    Except AssignmentError Transition :=
  match command.action with
  | .assign => do
    require (¬ (assignment.lifecycleState = .assigned ∧ assignment.ownerRef = command.ownerRef))
      (.reviewAssignmentConflict ("review assignment is already assigned to owner_ref=" ++
        command.ownerRef.getD "None"))
    return ⟨.assigned, if assignment.lifecycleState = .unassigned then .assigned else .reassigned,
      command.ownerRef, none⟩
  | .escalate => do
    require (¬ (assignment.lifecycleState = .escalated ∧ assignment.ownerRef = command.ownerRef))
      (.reviewAssignmentConflict ("review assignment is already escalated to owner_ref=" ++
        command.ownerRef.getD "None"))
    return ⟨.escalated, .escalated, command.ownerRef, some command.reason⟩
  | .release => do
    require (assignment.lifecycleState ≠ .unassigned)
      (.reviewAssignmentConflict "review assignment is already unassigned")
    return ⟨.unassigned, .released, none, none⟩

/-- The arguments of `apply_review_assignment_command`, with the event's id and `now`. -/
structure CommandCall where
  signalRef : String
  command : ReviewAssignmentCommand
  actorId : Uuid
  eventId : Uuid
  now : Timestamp

/-- The row after a transition. -/
def moved (assignment : GovernanceReviewAssignment) (next : Transition) (now : Timestamp) :
    GovernanceReviewAssignment :=
  { assignment with
    lifecycleState := next.toState
    ownerRef := next.ownerRef
    escalationReason := next.escalationReason
    version := assignment.version + 1
    updatedAt := now }

/-- The event of a transition. -/
def eventOf (call : CommandCall) (assignment : GovernanceReviewAssignment) (next : Transition) :
    GovernanceReviewAssignmentEvent where
  id := call.eventId
  assignmentId := assignment.id
  sequence := assignment.version + 1
  commandId := call.command.commandId
  requestFingerprint := commandFingerprint sha256 (strip call.signalRef) call.command
  eventType := next.eventType
  fromState := some assignment.lifecycleState
  toState := next.toState
  actorId := call.actorId
  ownerRef := next.ownerRef
  reason := call.command.reason
  occurredAt := call.now

def applyReviewAssignmentCommand (call : CommandCall) (store : Store) :
    Except AssignmentError (Store × Option ReviewAssignmentMutationResult) := do
  let normalized := strip call.signalRef
  require (normalized ≠ "") (.valueError "signal_ref must not be blank")
  match store.assigned normalized with
  | none => return (store, none)
  | some (signal, assignment) =>
    match store.eventOf call.command.commandId with
    | some existing =>
      require (existing.assignmentId = assignment.id ∧
          existing.requestFingerprint = commandFingerprint sha256 normalized call.command)
        (.reviewAssignmentConflict (s!"command_id={call.command.commandId} is already bound to " ++
          "another review assignment command"))
      return (store, some ⟨assignment, existing, signal.signalRef, true⟩)
    | none =>
      require (signal.status = .active) (.reviewAssignmentConflict
        s!"signal_ref={normalized} cannot be assigned from status={signal.status.value}")
      require (assignment.version = call.command.expectedVersion) (.reviewAssignmentConflict
        (s!"expected_version={call.command.expectedVersion} does not match " ++
          s!"current version={assignment.version}"))
      let next ← transition assignment call.command
      let event := eventOf sha256 call assignment next
      let store' ← insertEvent event
        { store with assignments := store.assignments.put (moved assignment next call.now) }
      return (store', some ⟨moved assignment next call.now, event, signal.signalRef, false⟩)

end Operations

end Cygnus.Governance.ReviewAssignments
