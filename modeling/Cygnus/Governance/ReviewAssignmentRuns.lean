import Cygnus.Data.Machine
import Cygnus.Governance.ReviewAssignments
import Mathlib.Data.List.Chain

/-! The history of every assignment, and the answer that a repeated command gets. -/

namespace Cygnus.Governance.ReviewAssignments

open Result Machine Text Table
open Wiki (Timestamp)

section Histories

/-- The events of a row: numbered from one to its version, each from the state the one before it led to,
the last one with the row's state and owner. -/
structure History (assignment : GovernanceReviewAssignment)
    (events : List GovernanceReviewAssignmentEvent) : Prop where
  sequences : events.map (·.sequence) = List.range' 1 assignment.version
  first : ∀ event ∈ events.head?, event.fromState = none
  chained : events.IsChain fun event next => next.fromState = some event.toState
  last : ∃ event, events.getLast? = some event ∧ event.toState = assignment.lifecycleState ∧
    event.ownerRef = assignment.ownerRef
  owner : assignment.ownerRef = none ↔ assignment.lifecycleState = .unassigned
  escalation : assignment.escalationReason.isSome ↔ assignment.lifecycleState = .escalated

/-- A transition gives an owner unless it releases, and a reason if it escalates. -/
theorem transition_ok {assignment : GovernanceReviewAssignment} {command : ReviewAssignmentCommand}
    {next : Transition} (h : transition assignment command = .ok next) :
    (next.ownerRef = none ↔ next.toState = .unassigned) ∧
      next.escalationReason = if next.toState = .escalated then some command.reason else none := by
  have howner := command.ownerRef_none
  unfold transition at h
  split at h
  all_goals
    rename_i haction
    simp only [bind_ok, pure_ok] at h
    obtain ⟨-, -, rfl⟩ := h
    simp [howner, haction]

theorem History.snoc {sha256 : String → String} {assignment : GovernanceReviewAssignment}
    {events : List GovernanceReviewAssignmentEvent} {call : CommandCall} {next : Transition}
    (h : History assignment events) (hnext : transition assignment call.command = .ok next) :
    History (moved assignment next call.now)
      (events ++ [eventOf sha256 call assignment next]) := by
  obtain ⟨howner, hreason⟩ := transition_ok hnext
  obtain ⟨last, hlast, hstate, -⟩ := h.last
  refine ⟨?_, ?_, ?_, ?_, howner, ?_⟩
  · rw [List.map_append, h.sequences, moved, List.range'_concat]
    simp [eventOf, Nat.add_comm]
  · intro event hevent
    have hne : events ≠ [] := by
      rintro rfl
      cases hlast
    rw [List.head?_append_of_ne_nil _ hne] at hevent
    exact h.first event hevent
  · refine h.chained.append (.singleton _) ?_
    intro event hevent added hadded
    rw [hlast, Option.mem_some_iff] at hevent
    rw [List.head?_singleton, Option.mem_some_iff] at hadded
    rw [← hevent, ← hadded, hstate]
    rfl
  · exact ⟨_, List.getLast?_concat .., rfl, rfl⟩
  · show next.escalationReason.isSome ↔ next.toState = .escalated
    rw [hreason]
    split
    · rename_i hescalated
      simp [hescalated]
    · rename_i hother
      simp [hother]

end Histories

section Steps

variable {sha256 : String → String} {store store' : Store}

theorem insertEvent_ok {event : GovernanceReviewAssignmentEvent}
    (h : insertEvent event store = .ok store') :
    store.eventOf event.commandId = none ∧
      store' = { store with events := store.events ++ [event] } := by
  simp only [insertEvent, bind_ok, require_ok, pure_ok] at h
  obtain ⟨-, hfree, -, -, events, hinsert, rfl⟩ := h
  obtain ⟨-, rfl⟩ := insert_ok hinsert
  exact ⟨by simpa using hfree, rfl⟩

theorem history_append (store : Store) (event : GovernanceReviewAssignmentEvent)
    (assignments : Table GovernanceReviewAssignment) (assignmentId : Uuid) :
    Store.history ⟨store.signals, assignments, store.events ++ [event]⟩ assignmentId =
      store.history assignmentId ++ if event.assignmentId = assignmentId then [event] else [] := by
  simp [Store.history, List.filter_append, List.filter_singleton]

theorem assigned_some {signalRef : String} {signal : GovernanceSignal}
    {assignment : GovernanceReviewAssignment}
    (h : store.assigned signalRef = some (signal, assignment)) :
    (store.signals.find? fun row => row.signalRef = signalRef) = some signal ∧
      (store.assignments.find? fun row => row.signalId = signal.id) = some assignment := by
  simp only [Store.assigned, Option.bind_eq_bind, Option.pure_def, Option.bind_eq_some_iff,
    Option.some.injEq, Prod.mk.injEq] at h
  obtain ⟨found, hsignal, row, hrow, rfl, rfl⟩ := h
  exact ⟨hsignal, hrow⟩

/-- A command finds no row, repeats a stored event, or moves the row and adds an event. -/
inductive Outcome (sha256 : String → String) (call : CommandCall) (store : Store) :
    Store → Option ReviewAssignmentMutationResult → Prop
  | missing : store.assigned (strip call.signalRef) = none → Outcome sha256 call store store none
  | replayed {signal assignment event} :
      store.assigned (strip call.signalRef) = some (signal, assignment) →
      store.eventOf call.command.commandId = some event →
      Outcome sha256 call store store (some ⟨assignment, event, signal.signalRef, true⟩)
  | applied {signal assignment next} :
      store.assigned (strip call.signalRef) = some (signal, assignment) →
      store.eventOf call.command.commandId = none →
      (assignment.version : Int) = call.command.expectedVersion →
      transition assignment call.command = .ok next →
      Outcome sha256 call store
        { store with
          assignments := store.assignments.put (moved assignment next call.now)
          events := store.events ++ [eventOf sha256 call assignment next] }
        (some ⟨moved assignment next call.now, eventOf sha256 call assignment next,
          signal.signalRef, false⟩)

theorem apply_ok {call : CommandCall} {result : Option ReviewAssignmentMutationResult}
    (h : applyReviewAssignmentCommand sha256 call store = .ok (store', result)) :
    Outcome sha256 call store store' result := by
  simp only [applyReviewAssignmentCommand, bind_ok] at h
  obtain ⟨-, -, h⟩ := h
  split at h
  · rename_i hnone
    rw [pure_ok] at h
    obtain ⟨rfl, rfl⟩ := Prod.mk.inj h
    exact .missing hnone
  · rename_i signal assignment hassigned
    split at h
    · rename_i event hevent
      simp only [bind_ok, pure_ok] at h
      obtain ⟨-, -, h⟩ := h
      obtain ⟨rfl, rfl⟩ := Prod.mk.inj h
      exact .replayed hassigned hevent
    · rename_i hfree
      simp only [bind_ok, require_ok, pure_ok] at h
      obtain ⟨-, -, -, hversion, next, hnext, added, hinsert, h⟩ := h
      obtain ⟨-, rfl⟩ := insertEvent_ok hinsert
      obtain ⟨rfl, rfl⟩ := Prod.mk.inj h
      exact .applied hassigned hfree hversion hnext

end Steps

section Machine

inductive Action
  | insertSignal (signal : GovernanceSignal)
  | resolve (signalRef : String) (resolvedAt : Timestamp)
  | initializeReview (signalId actorId assignmentId eventId : Uuid) (now : Timestamp)
  | apply (call : CommandCall)

def perform (sha256 : String → String) : Action → Store → Except AssignmentError Store
  | .insertSignal signal, store => insertSignal signal store
  | .resolve signalRef resolvedAt, store => resolveGovernanceSignal signalRef resolvedAt store
  | .initializeReview signalId actorId assignmentId eventId now, store =>
    initializeReviewAssignment sha256 signalId actorId assignmentId eventId now store
  | .apply call, store => (applyReviewAssignmentCommand sha256 call store).map Prod.fst

/-- What one accepted call does to the tables. -/
inductive Change (sha256 : String → String) (store : Store) : Store → Prop
  | none : Change sha256 store store
  | signal {signal} : store.signals.get signal.id = .none →
      Change sha256 store { store with signals := store.signals ++ [signal] }
  | resolved {signal resolved} : signal ∈ store.signals → resolved.id = signal.id →
      resolved.signalRef = signal.signalRef →
      Change sha256 store { store with signals := store.signals.put resolved }
  | initialized {assignment event} : store.assignments.get assignment.id = .none →
      (∀ other ∈ store.assignments, other.signalId ≠ assignment.signalId) →
      event.assignmentId = assignment.id → History assignment [event] →
      store.eventOf event.commandId = .none →
      Change sha256 store
        { store with
          assignments := store.assignments ++ [assignment]
          events := store.events ++ [event] }
  | applied {call assignment next} : assignment ∈ store.assignments →
      store.eventOf call.command.commandId = .none →
      transition assignment call.command = .ok next →
      Change sha256 store
        { store with
          assignments := store.assignments.put (moved assignment next call.now)
          events := store.events ++ [eventOf sha256 call assignment next] }

theorem perform_change {sha256 : String → String} {action : Action} {store store' : Store}
    (hassigned : ∀ {ref signal assignment}, store.assigned ref = some (signal, assignment) →
      assignment ∈ store.assignments)
    (h : perform sha256 action store = .ok store') : Change sha256 store store' := by
  cases action with
  | insertSignal signal =>
    simp only [perform, insertSignal, bind_ok, pure_ok] at h
    obtain ⟨-, -, signals, hinsert, rfl⟩ := h
    obtain ⟨hfree, rfl⟩ := insert_ok hinsert
    exact .signal hfree
  | resolve signalRef resolvedAt =>
    simp only [perform, resolveGovernanceSignal, bind_ok] at h
    obtain ⟨-, -, h⟩ := h
    split at h
    · rw [pure_ok] at h
      exact h ▸ .none
    · rename_i signal hfound
      split at h
      · rw [pure_ok] at h
        exact h ▸ .none
      · simp only [bind_ok, pure_ok] at h
        obtain ⟨-, -, rfl⟩ := h
        exact .resolved (List.mem_of_find?_eq_some hfound) rfl rfl
  | initializeReview signalId actorId assignmentId eventId now =>
    simp only [perform, initializeReviewAssignment, bind_ok, require_ok] at h
    obtain ⟨signal, -, -, hfresh, assignments, hinsert, h⟩ := h
    obtain ⟨hfree, rfl⟩ := insert_ok hinsert
    obtain ⟨hevent, rfl⟩ := insertEvent_ok h
    refine .initialized hfree hfresh rfl ⟨rfl, ?_, .singleton _, ⟨_, rfl, rfl, rfl⟩, ?_, ?_⟩ hevent
    · intro event hmem
      rw [List.head?_cons, Option.mem_some_iff] at hmem
      rw [← hmem]
    · simp
    · simp
  | apply call =>
    obtain ⟨⟨next, result⟩, happly, rfl⟩ := map_ok.mp h
    cases apply_ok happly with
    | missing => exact .none
    | replayed => exact .none
    | applied hassigned' hfree _ hnext => exact .applied (hassigned hassigned') hfree hnext

end Machine

section Invariants

variable {sha256 : String → String} {store store' : Store}

theorem assigned_mem {signalRef : String} {signal : GovernanceSignal}
    {assignment : GovernanceReviewAssignment}
    (h : store.assigned signalRef = some (signal, assignment)) : assignment ∈ store.assignments :=
  List.mem_of_find?_eq_some (assigned_some h).2

structure Sound (store : Store) : Prop where
  signals : store.signals.Keyed
  assignments : store.assignments.Keyed
  owned : ∀ event ∈ store.events, ∃ assignment ∈ store.assignments,
    assignment.id = event.assignmentId
  histories : ∀ assignment ∈ store.assignments,
    History assignment (store.history assignment.id)

theorem Sound.empty : Sound .empty :=
  ⟨List.nodup_nil, List.nodup_nil, fun _ h => (List.not_mem_nil h).elim,
    fun _ h => (List.not_mem_nil h).elim⟩

theorem Change.sound (h : Change sha256 store store') (hsound : Sound store) : Sound store' := by
  cases h with
  | none => exact hsound
  | signal hfree =>
    exact ⟨hsound.signals.append hfree, hsound.assignments, hsound.owned, hsound.histories⟩
  | resolved =>
    exact ⟨hsound.signals.put _, hsound.assignments, hsound.owned, hsound.histories⟩
  | @initialized assignment event hfree _ hevent hhistory =>
    refine ⟨hsound.signals, hsound.assignments.append hfree, ?_, ?_⟩
    · intro other hother
      rcases List.mem_append.mp hother with hold | hnew
      · obtain ⟨owner, howner, heq⟩ := hsound.owned other hold
        exact ⟨owner, List.mem_append_left _ howner, heq⟩
      · rw [List.mem_singleton.mp hnew]
        exact ⟨assignment, List.mem_append_right _ List.mem_cons_self, hevent.symm⟩
    · intro row hrow
      rw [history_append]
      rcases List.mem_append.mp hrow with hold | hnew
      · have hne : event.assignmentId ≠ row.id := by
          rw [hevent]
          exact fun heq => get_eq_none.mp hfree row hold heq.symm
        rw [if_neg hne, List.append_nil]
        exact hsound.histories row hold
      · rw [List.mem_singleton.mp hnew, if_pos hevent]
        -- No event carries the id of the new row yet.
        have hempty : store.history assignment.id = [] := by
          rw [Store.history, List.filter_eq_nil_iff]
          intro other hother heq
          obtain ⟨owner, howner, hid⟩ := hsound.owned other hother
          exact get_eq_none.mp hfree owner howner (hid.trans (by simpa using heq))
        rw [hempty]
        exact hhistory
  | @applied call assignment next hmem _ hnext =>
    refine ⟨hsound.signals, hsound.assignments.put _, ?_, ?_⟩
    · intro other hother
      have hkeys : ∀ id ∈ store.assignments.map Row.key,
          ∃ row ∈ store.assignments.put (moved assignment next call.now), row.id = id := by
        intro id hid
        rw [← keys_put (moved assignment next call.now)] at hid
        exact List.mem_map.mp hid
      rcases List.mem_append.mp hother with hold | hnew
      · obtain ⟨owner, howner, heq⟩ := hsound.owned other hold
        exact hkeys _ (heq ▸ List.mem_map_of_mem howner)
      · rw [List.mem_singleton.mp hnew]
        exact hkeys _ (List.mem_map_of_mem hmem)
    · intro row hrow
      rw [history_append]
      rcases mem_put hrow with rfl | ⟨hold, hne⟩
      · have hid : (eventOf sha256 call assignment next).assignmentId =
            (moved assignment next call.now).id := rfl
        rw [if_pos hid]
        exact (hsound.histories assignment hmem).snoc hnext
      · rw [if_neg (fun heq => hne heq.symm), List.append_nil]
        exact hsound.histories row hold

/-- What a stored row answers with stays: signals and rows keep their names, versions grow, and an event
is never replaced. -/
structure Extends (store store' : Store) : Prop where
  assigned : ∀ {ref signal assignment}, store.assigned ref = some (signal, assignment) →
    ∃ signal' assignment', store'.assigned ref = some (signal', assignment') ∧
      signal'.signalRef = signal.signalRef ∧ assignment'.id = assignment.id ∧
      assignment'.createdAt = assignment.createdAt ∧ assignment.version ≤ assignment'.version
  events : ∀ {commandId event}, store.eventOf commandId = some event →
    store'.eventOf commandId = some event

theorem Extends.refl (store : Store) : Extends store store :=
  ⟨fun h => ⟨_, _, h, rfl, rfl, rfl, Nat.le_refl _⟩, fun h => h⟩

theorem Extends.trans {store₁ store₂ store₃ : Store} (h : Extends store₁ store₂)
    (h' : Extends store₂ store₃) : Extends store₁ store₃ := by
  refine ⟨?_, fun hevent => h'.events (h.events hevent)⟩
  intro ref signal assignment hassigned
  obtain ⟨signal₂, assignment₂, hassigned₂, href, hid, hcreated, hversion⟩ := h.assigned hassigned
  obtain ⟨signal₃, assignment₃, hassigned₃, href', hid', hcreated', hversion'⟩ :=
    h'.assigned hassigned₂
  exact ⟨signal₃, assignment₃, hassigned₃, href'.trans href, hid'.trans hid,
    hcreated'.trans hcreated, hversion.trans hversion'⟩

theorem eventOf_append {events : Table GovernanceReviewAssignmentEvent} {commandId : String}
    {event added : GovernanceReviewAssignmentEvent} {signals assignments}
    (h : store.eventOf commandId = some event) (hevents : store.events = events) :
    Store.eventOf ⟨signals, assignments, events ++ [added]⟩ commandId = some event := by
  rw [Store.eventOf, List.find?_append, ← hevents]
  rw [Store.eventOf] at h
  rw [h, Option.some_or]

theorem assigned_of {signalRef : String} {signal : GovernanceSignal}
    {assignment : GovernanceReviewAssignment}
    (hsignal : (store.signals.find? fun row => row.signalRef = signalRef) = some signal)
    (hassignment :
      (store.assignments.find? fun row => row.signalId = signal.id) = some assignment) :
    store.assigned signalRef = some (signal, assignment) := by
  rw [Store.assigned, hsignal, Option.bind_eq_bind, Option.bind_some, hassignment]
  rfl

theorem Change.extends (h : Change sha256 store store') (hsound : Sound store) :
    Extends store store' := by
  cases h with
  | none => exact .refl store
  | signal =>
    refine ⟨?_, fun hevent => hevent⟩
    intro ref found assignment hassigned
    obtain ⟨hsignal, hassignment⟩ := assigned_some hassigned
    refine ⟨found, assignment, assigned_of ?_ hassignment, rfl, rfl, rfl, Nat.le_refl _⟩
    rw [List.find?_append, hsignal, Option.some_or]
  | @resolved signal resolved hmem hid href =>
    refine ⟨?_, fun hevent => hevent⟩
    intro ref found assignment hassigned
    obtain ⟨hsignal, hassignment⟩ := assigned_some hassigned
    have hold : store.signals.get (Row.key resolved) = some signal := by
      rw [show Row.key resolved = Row.key signal from hid]
      exact hsound.signals.get_of_mem hmem
    have hfind := find_put (p := fun row => decide (row.signalRef = ref)) hsound.signals hold
      (by rw [href])
    rw [hsignal, Option.map_some] at hfind
    split at hfind
    · rename_i hkey
      have hsame : found = signal := hsound.signals.eq_of_key
        (List.mem_of_find?_eq_some hsignal) hmem (hkey.trans hid)
      refine ⟨resolved, assignment, assigned_of hfind ?_, ?_, rfl, rfl, Nat.le_refl _⟩
      · rw [hid, ← hsame]
        exact hassignment
      · rw [href, hsame]
    · exact ⟨found, assignment, assigned_of hfind hassignment, rfl, rfl, rfl, Nat.le_refl _⟩
  | initialized =>
    refine ⟨?_, fun hevent => eventOf_append hevent rfl⟩
    intro ref found assignment hassigned
    obtain ⟨hsignal, hassignment⟩ := assigned_some hassigned
    refine ⟨found, assignment, assigned_of hsignal ?_, rfl, rfl, rfl, Nat.le_refl _⟩
    rw [List.find?_append, hassignment, Option.some_or]
  | @applied call moving next hmem _ _ =>
    refine ⟨?_, fun hevent => eventOf_append hevent rfl⟩
    intro ref found assignment hassigned
    obtain ⟨hsignal, hassignment⟩ := assigned_some hassigned
    have hold : store.assignments.get (Row.key (moved moving next call.now)) = some moving :=
      hsound.assignments.get_of_mem hmem
    have hfind := find_put (p := fun row => decide (row.signalId = found.id)) hsound.assignments hold
      rfl
    rw [hassignment, Option.map_some] at hfind
    split at hfind
    · rename_i hkey
      have hsame : assignment = moving := hsound.assignments.eq_of_key
        (List.mem_of_find?_eq_some hassignment) hmem hkey
      rw [hsame]
      exact ⟨found, _, assigned_of hsignal hfind, rfl, rfl, rfl, Nat.le_succ _⟩
    · exact ⟨found, assignment, assigned_of hsignal hfind, rfl, rfl, rfl, Nat.le_refl _⟩

end Invariants

section Runs

variable (sha256 : String → String) (isoformat : Timestamp → String)

/-- The command is applied in this state, with this answer. -/
def Applies (store : Store) (call : CommandCall) (result : ReviewAssignmentMutationResult) : Prop :=
  ∃ store', applyReviewAssignmentCommand sha256 call store = .ok (store', some result) ∧
    result.replayed = false

/-- The command repeated in this state changes nothing and is answered with the same assignment. -/
def Replays (store : Store) (call : CommandCall) (result : ReviewAssignmentMutationResult) : Prop :=
  ∀ retry : CommandCall, retry.command = call.command →
    strip retry.signalRef = strip call.signalRef →
      ∃ answer, applyReviewAssignmentCommand sha256 retry store = .ok (store, some answer) ∧
        answer.replayed = true ∧
        (answer.toDict isoformat).assignment = (result.toDict isoformat).assignment

/-- Every command applied from now on for that row expects another version. -/
def Spent (store : Store) (call : CommandCall) (result : ReviewAssignmentMutationResult) : Prop :=
  ∀ call' result', Applies sha256 store call' result' →
    result'.assignment.id = result.assignment.id →
      call'.command.expectedVersion ≠ call.command.expectedVersion

/-- What the tables keep of an applied command. -/
structure Recorded (store : Store) (call : CommandCall) (result : ReviewAssignmentMutationResult) :
    Prop where
  named : strip call.signalRef ≠ ""
  assigned : ∃ signal assignment, store.assigned (strip call.signalRef) = some (signal, assignment) ∧
    signal.signalRef = result.signalRef ∧ assignment.id = result.assignment.id ∧
    assignment.createdAt = result.assignment.createdAt ∧
    call.command.expectedVersion < assignment.version
  event : store.eventOf call.command.commandId = some result.event
  owner : result.event.assignmentId = result.assignment.id
  fingerprint : result.event.requestFingerprint =
    commandFingerprint sha256 (strip call.signalRef) call.command
  payload : (result.toDict isoformat).assignment =
    (({ result with replayed := true } : ReviewAssignmentMutationResult).toDict isoformat).assignment

variable {sha256 isoformat} {store store' : Store} {call : CommandCall}
  {result : ReviewAssignmentMutationResult}

theorem Recorded.extends (h : Recorded sha256 isoformat store call result)
    (hextends : Extends store store') : Recorded sha256 isoformat store' call result := by
  obtain ⟨signal, assignment, hassigned, href, hid, hcreated, hversion⟩ := h.assigned
  obtain ⟨signal', assignment', hassigned', href', hid', hcreated', hversion'⟩ :=
    hextends.assigned hassigned
  refine ⟨h.named, ⟨signal', assignment', hassigned', href'.trans href, hid'.trans hid,
    hcreated'.trans hcreated, ?_⟩, hextends.events h.event, h.owner, h.fingerprint, h.payload⟩
  omega

/-- The answer to an applied command reads the same from its event. -/
theorem toDict_replayed {assignment : GovernanceReviewAssignment} {next : Transition}
    {signalRef : String} (hnext : transition assignment call.command = .ok next) :
    (ReviewAssignmentMutationResult.toDict isoformat ⟨moved assignment next call.now,
        eventOf sha256 call assignment next, signalRef, false⟩).assignment =
      (ReviewAssignmentMutationResult.toDict isoformat ⟨moved assignment next call.now,
        eventOf sha256 call assignment next, signalRef, true⟩).assignment := by
  obtain ⟨-, hreason⟩ := transition_ok hnext
  by_cases hescalated : next.toState = .escalated <;>
    simp [ReviewAssignmentMutationResult.toDict, reviewAssignmentToDict, moved, eventOf, hreason,
      hescalated]

theorem Applies.recorded (isoformat : Timestamp → String) (hsound : Sound store)
    (h : Applies sha256 store call result) :
    Recorded sha256 isoformat (step (perform sha256) store (.apply call)) call result := by
  obtain ⟨store', happly, hfirst⟩ := h
  have hperform : perform sha256 (.apply call) store = .ok store' := map_ok.mpr ⟨_, happly, rfl⟩
  have hchange := perform_change assigned_mem hperform
  have hsound' := hchange.sound hsound
  have hextends := hchange.extends hsound
  have hnamed : strip call.signalRef ≠ "" := by
    simp only [applyReviewAssignmentCommand, bind_ok, require_ok] at happly
    obtain ⟨-, hnamed, -⟩ := happly
    exact hnamed
  rw [step, hperform]
  cases apply_ok happly with
  | replayed => cases hfirst
  | @applied signal assignment next hassigned hfree hversion hnext =>
    obtain ⟨signal', row, hassigned', href, hid, -, -⟩ := hextends.assigned hassigned
    have hold : store.assignments.get (moved assignment next call.now).id = some assignment :=
      hsound.assignments.get_of_mem (assigned_mem hassigned)
    have hrow : row = moved assignment next call.now :=
      hsound'.assignments.eq_of_key (assigned_mem hassigned') (mem_put_self hold) hid
    refine ⟨hnamed, ⟨signal', row, hassigned', href, hid, hrow ▸ rfl, ?_⟩, ?_, rfl, rfl,
      toDict_replayed hnext⟩
    · rw [hrow, ← hversion]
      exact Int.ofNat_lt.mpr (Nat.lt_succ_self _)
    · have hnone : store.events.find? (fun event => event.commandId = call.command.commandId) =
          none := hfree
      rw [Store.eventOf, List.find?_append, hnone, Option.none_or]
      simp [eventOf]

theorem Recorded.replays (h : Recorded sha256 isoformat store call result) :
    Replays sha256 isoformat store call result := by
  intro retry hcommand href
  obtain ⟨signal, assignment, hassigned, hsignal, hid, hcreated, -⟩ := h.assigned
  refine ⟨⟨assignment, result.event, signal.signalRef, true⟩, ?_, rfl, ?_⟩
  · rw [applyReviewAssignmentCommand, href, hcommand, require_of h.named, ok_bind]
    simp only [hassigned, h.event]
    rw [require_of ⟨h.owner.trans hid.symm, h.fingerprint⟩]
    rfl
  · rw [h.payload]
    simp [ReviewAssignmentMutationResult.toDict, reviewAssignmentToDict, hid, hcreated, hsignal]

theorem Recorded.spent (h : Recorded sha256 isoformat store call result) (hsound : Sound store) :
    Spent sha256 store call result := by
  rintro call' result' ⟨store', happly, hfirst⟩ hsame
  obtain ⟨signal, assignment, hassigned, -, hid, -, hversion⟩ := h.assigned
  cases apply_ok happly with
  | replayed => cases hfirst
  | @applied signal' assignment' next hassigned' _ hversion' _ =>
    have heq : assignment' = assignment := hsound.assignments.eq_of_key (assigned_mem hassigned')
      (assigned_mem hassigned) (hsame.trans hid.symm)
    rw [← hversion', heq]
    omega

theorem preserves_sound :
    Preserves (perform sha256) (fun _ _ => True) Sound :=
  fun hsound _ h => (perform_change assigned_mem h).sound hsound

/-- What a command is recorded with stays over a run. -/
theorem preserves_recorded : Preserves (perform sha256) (fun _ _ => True)
    (fun store => Sound store ∧ Recorded sha256 isoformat store call result) := by
  rintro store store' action ⟨hsound, hrecorded⟩ - h
  have hchange := perform_change assigned_mem h
  exact ⟨hchange.sound hsound, hrecorded.extends (hchange.extends hsound)⟩

/-- Over any run of the calls: every row has its history, and every command applied in the run is
repeated without effect and with the same answer, and never followed by one with its version. -/
theorem assignments_event_sourced (calls : List Action) :
    (∀ assignment ∈ (run (perform sha256) .empty calls).assignments,
      History assignment ((run (perform sha256) .empty calls).history assignment.id)) ∧
    ∀ first call later result, calls = first ++ .apply call :: later →
      Applies sha256 (run (perform sha256) .empty first) call result →
        Replays sha256 isoformat (run (perform sha256) .empty calls) call result ∧
          Spent sha256 (run (perform sha256) .empty calls) call result := by
  have hall : ∀ calls, Sound (run (perform sha256) .empty calls) := fun calls =>
    preserves_sound.run .empty (meets_of_forall (fun _ _ => trivial) _ calls)
  refine ⟨(hall calls).histories, ?_⟩
  rintro first call later result rfl happlies
  rw [run_append, run_cons]
  have hrecorded := happlies.recorded isoformat (hall first)
  have hsound : Sound (step (perform sha256) (run (perform sha256) .empty first) (.apply call)) :=
    preserves_sound.step (hall first) trivial
  obtain ⟨hend, hkept⟩ := preserves_recorded.run ⟨hsound, hrecorded⟩
    (meets_of_forall (fun _ _ => trivial) _ later)
  exact ⟨hkept.replays, hkept.spent hend⟩

end Runs

section Scenario

def toSupport : ReviewAssignmentCommand where
  commandId := "assign-1"
  action := .assign
  ownerRef := some "support-ops"
  reason := "Route the review."
  expectedVersion := 1
  commandId_ok := by decide
  reason_ok := by decide
  version_ok := by decide
  owner_ok := by decide

def toLead : ReviewAssignmentCommand where
  commandId := "escalate-1"
  action := .escalate
  ownerRef := some "lead"
  reason := "Incident."
  expectedVersion := 2
  commandId_ok := by decide
  reason_ok := by decide
  version_ok := by decide
  owner_ok := by decide

def initial : GovernanceReviewAssignment := ⟨2, 1, .unassigned, none, none, 1, 0, 0⟩

def assign : CommandCall := ⟨"s", toSupport, 9, 31, 1⟩

def assignAnswer : ReviewAssignmentMutationResult :=
  let next : Transition := ⟨.assigned, .assigned, some "support-ops", none⟩
  ⟨moved initial next 1, eventOf id assign initial next, "s", false⟩

/-- The signal is escalated and resolved after the command: its repetition still gets the first answer. -/
theorem assign_replayed :
    Replays id toString (run (perform id) .empty [.insertSignal ⟨1, "s", .active, none, 1⟩,
      .initializeReview 1 9 2 30 0, .apply assign, .apply ⟨"s", toLead, 9, 32, 2⟩, .resolve "s" 3])
      assign assignAnswer :=
  ((assignments_event_sourced _).2 [.insertSignal ⟨1, "s", .active, none, 1⟩,
    .initializeReview 1 9 2 30 0] assign [.apply ⟨"s", toLead, 9, 32, 2⟩, .resolve "s" 3] assignAnswer
    rfl ⟨_, rfl, rfl⟩).1

end Scenario

end Cygnus.Governance.ReviewAssignments
