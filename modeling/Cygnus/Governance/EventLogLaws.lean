import Cygnus.Governance.EventLog

namespace Cygnus.Governance.EventLog

open Wiki Text

variable {drafts : List Uuid} {log : Log} {call : Call} {event : Event}

section Appending

variable {α : Type}

theorem check_bind {condition : Prop} [Decidable condition] {error : LedgerError}
    (f : Unit → Appending α) (log : Log) :
    (check condition error >>= f).run.run log =
      if condition then (f ()).run.run log else (.error error, log) := by
  unfold check
  split <;> rfl

theorem get_bind (f : Log → Appending α) (log : Log) :
    ((get : Appending Log) >>= f).run.run log = (f log).run.run log := rfl

end Appending

/-- The blank checks of the call pass. -/
structure Call.WellStated (call : Call) : Prop where
  key : call.key ≠ ""
  toState : strip call.toState ≠ ""
  fromState : call.fromState.map strip ≠ some ""
  reason : call.reason.map strip ≠ some ""

/-- The event continues the history of its draft. -/
structure Continues (log : Log) (event : Event) : Prop where
  fromState : event.fromState = (getLatestDraftEvent log event.draftId).map Event.toState
  sequence : event.sequence = (getLatestDraftEvent log event.draftId).elim 1 (·.sequence + 1)

/-- What one call comes to: it raises and writes nothing, returns the event stored under its key and
writes nothing, or adds one event at the end. -/
inductive Outcome (log : Log) (call : Call) : Except LedgerError Event × Log → Prop
  | raised (error) : Outcome log call (.error error, log)
  | replayed {existing} : call.WellStated → findKey log call.key = some existing →
      call.sameIdentity existing = true → Outcome log call (.ok existing, log)
  | appended {sequence} : call.WellStated → findKey log call.key = none →
      Continues log (call.row sequence) →
      Outcome log call (.ok (call.row sequence), log ++ [call.row sequence])

theorem check_outcome {condition : Prop} [Decidable condition] {error : LedgerError}
    {f : Unit → Appending Event} (h : condition → Outcome log call ((f ()).run.run log)) :
    Outcome log call ((check condition error >>= f).run.run log) := by
  rw [check_bind]
  split
  · rename_i hcondition
    exact h hcondition
  · exact .raised error

theorem nextSequence_outcome {current : Option Event} {f : Nat → Appending Event}
    (h : call.fromState.map strip = current.map Event.toState →
      Outcome log call ((f (current.elim 1 (·.sequence + 1))).run.run log)) :
    Outcome log call ((nextSequence call current >>= f).run.run log) := by
  cases current with
  | none =>
    rw [nextSequence, bind_assoc]
    exact check_outcome h
  | some current =>
    rw [nextSequence, bind_assoc]
    exact check_outcome fun hfrom => h hfrom.symm

theorem insertEvent_outcome {f : Unit → Appending Event}
    (h : Outcome log call ((f ()).run.run (log ++ [event]))) :
    Outcome log call ((insertEvent drafts event >>= f).run.run log) := by
  rw [insertEvent, bind_assoc, get_bind, bind_assoc]
  apply check_outcome
  intro _
  rw [bind_assoc]
  apply check_outcome
  intro _
  exact h

theorem append_outcome (drafts : List Uuid) (log : Log) (call : Call) :
    Outcome log call (append drafts log call) := by
  unfold append appendDraftEvent
  apply check_outcome
  intro hkey
  apply check_outcome
  intro hto
  apply check_outcome
  intro hfrom
  apply check_outcome
  intro hreason
  have hwell : call.WellStated := ⟨hkey, hto, hfrom, hreason⟩
  rw [get_bind]
  split
  · rename_i existing hfind
    apply check_outcome
    intro hsame
    exact .replayed hwell hfind hsame
  · rename_i hfind
    apply nextSequence_outcome
    intro hcontinues
    apply insertEvent_outcome
    exact .appended hwell hfind ⟨hcontinues, rfl⟩

/-- A call for the event stored under its key returns it. -/
theorem append_of_sameIdentity (hwell : call.WellStated) (hfind : findKey log call.key = some event)
    (hsame : call.sameIdentity event = true) : append drafts log call = (.ok event, log) := by
  simp only [append, appendDraftEvent, check_bind, get_bind]
  rw [if_pos hwell.key, if_pos hwell.toState, if_pos hwell.fromState, if_pos hwell.reason, hfind]
  dsimp only
  rw [check_bind, if_pos hsame]
  rfl

theorem sameIdentity_row (call : Call) (sequence : Nat) :
    call.sameIdentity (call.row sequence) = true := by
  simp [Call.sameIdentity, Call.row, (call.payload.getD default).2.eq_self]

section Chains

variable {events : List Event}

/-- The last event of a chain is the latest one. -/
theorem Chain.argmax_eq (h : Chain events) : events.argmax Event.sequence = events.getLast? := by
  rcases List.eq_nil_or_concat' events with rfl | ⟨init, last, rfl⟩
  · rfl
  · rw [List.argmax_concat, List.getLast?_concat]
    have hsequences := h.sequences
    rw [List.map_append, List.length_append, List.length_singleton, List.range'_concat,
      List.map_singleton] at hsequences
    obtain ⟨hinit, hlast⟩ := List.append_inj hsequences (by simp)
    cases hcurrent : init.argmax Event.sequence with
    | none => rfl
    | some current =>
      have hmem : current.sequence ∈ List.range' 1 init.length :=
        hinit ▸ List.mem_map_of_mem (List.argmax_mem hcurrent)
      rw [List.mem_range'_1] at hmem
      simp only [List.cons.injEq, and_true] at hlast
      exact if_pos (by omega)

theorem Chain.snoc (h : Chain events) (hsequence : event.sequence = events.length + 1)
    (hfrom : event.fromState = events.getLast?.map Event.toState) : Chain (events ++ [event]) := by
  constructor
  · rw [List.map_append, h.sequences, List.length_append, List.length_singleton, List.range'_concat,
      List.map_singleton, hsequence]
    simp [Nat.add_comm]
  · rw [List.map_append, h.states, List.map_singleton, List.length_append, List.length_singleton,
      List.map_append, ← List.cons_append, List.take_append_of_le_length (by simp),
      List.take_add_one, hfrom]
    congr 1
    rcases List.eq_nil_or_concat' events with rfl | ⟨init, last, rfl⟩
    · rfl
    · simp

theorem Chain.length_of_last (h : Chain events) {last : Event} (hlast : events.getLast? = some last) :
    last.sequence = events.length := by
  rcases List.eq_nil_or_concat' events with rfl | ⟨init, last', rfl⟩
  · cases hlast
  · rw [List.getLast?_concat, Option.some.injEq] at hlast
    have hsequences := h.sequences
    rw [List.map_append, List.length_append, List.length_singleton, List.range'_concat,
      List.map_singleton] at hsequences
    have hend := (List.append_inj hsequences (by simp)).2
    rw [List.length_append, List.length_singleton, ← hlast]
    simp only [List.cons.injEq, and_true] at hend
    omega

end Chains

/-- Every history is a chain, every key stands once, and no stored text is blank. -/
structure Sound (log : Log) : Prop where
  chain : ∀ draftId, Chain (eventsOf log draftId)
  keys : (log.map Event.idempotencyKey).Nodup
  stated : ∀ event ∈ log, event.idempotencyKey ≠ "" ∧ event.toState ≠ "" ∧
    event.fromState ≠ some "" ∧ event.reason ≠ some ""

theorem Sound.empty : Sound [] :=
  ⟨fun _ => ⟨rfl, rfl⟩, List.nodup_nil, fun _ h => absurd h List.not_mem_nil⟩

theorem Sound.snoc (h : Sound log) {sequence : Nat} (hwell : call.WellStated)
    (hfree : findKey log call.key = none) (hcontinues : Continues log (call.row sequence)) :
    Sound (log ++ [call.row sequence]) := by
  constructor
  · intro draftId
    rw [eventsOf, List.filter_append]
    by_cases hdraft : call.draftId = draftId
    · subst hdraft
      rw [List.filter_cons_of_pos (by simp [Call.row]), List.filter_nil]
      have hchain := h.chain call.draftId
      have hlatest : getLatestDraftEvent log call.draftId = (eventsOf log call.draftId).getLast? :=
        hchain.argmax_eq
      refine Chain.snoc hchain ?_ (hlatest ▸ hcontinues.fromState)
      rw [hcontinues.sequence]
      change (getLatestDraftEvent log call.draftId).elim 1 (·.sequence + 1) = _
      rw [hlatest]
      cases hlast : (eventsOf log call.draftId).getLast? with
      | none =>
        rw [List.getLast?_eq_none_iff, eventsOf] at hlast
        rw [hlast]
        rfl
      | some last => exact congrArg (· + 1) (hchain.length_of_last hlast)
    · rw [List.filter_cons_of_neg (by simp [Call.row, hdraft]), List.filter_nil,
        List.append_nil]
      exact h.chain draftId
  · rw [List.map_append, List.map_singleton, List.nodup_append]
    refine ⟨h.keys, List.nodup_singleton _, ?_⟩
    intro key hkey other hother
    obtain ⟨event, hevent, rfl⟩ := List.mem_map.mp hkey
    rw [List.mem_singleton] at hother
    have hne := List.find?_eq_none.mp hfree event hevent
    rw [hother]
    exact fun heq => hne (decide_eq_true heq)
  · intro event hevent
    rw [List.mem_append, List.mem_singleton] at hevent
    rcases hevent with hevent | rfl
    · exact h.stated event hevent
    · exact ⟨hwell.key, hwell.toState, hwell.fromState, hwell.reason⟩

theorem append_sound (h : Sound log) : Sound (append drafts log call).2 := by
  have houtcome := append_outcome drafts log call
  generalize append drafts log call = result at houtcome ⊢
  cases houtcome with
  | raised => exact h
  | replayed => exact h
  | appended hwell hfree hcontinues => exact h.snoc hwell hfree hcontinues

theorem append_subset (hevent : event ∈ log) : event ∈ (append drafts log call).2 := by
  have houtcome := append_outcome drafts log call
  generalize append drafts log call = result at houtcome ⊢
  cases houtcome with
  | raised => exact hevent
  | replayed => exact hevent
  | appended => exact List.mem_append_left _ hevent

theorem run_append (first second : List Call) : run drafts (first ++ second) =
    second.foldl (fun log call => (append drafts log call).2) (run drafts first) :=
  List.foldl_append

theorem foldl_sound (h : Sound log) (calls : List Call) :
    Sound (calls.foldl (fun log call => (append drafts log call).2) log) := by
  induction calls generalizing log with
  | nil => exact h
  | cons call calls ih => exact ih (append_sound h)

theorem run_sound (drafts : List Uuid) (calls : List Call) : Sound (run drafts calls) :=
  foldl_sound .empty calls

theorem mem_foldl (hevent : event ∈ log) (calls : List Call) :
    event ∈ calls.foldl (fun log call => (append drafts log call).2) log := by
  induction calls generalizing log with
  | nil => exact hevent
  | cons call calls ih => exact ih (append_subset hevent)

theorem Sound.findKey_eq (h : Sound log) (hevent : event ∈ log) :
    findKey log event.idempotencyKey = some event := by
  cases hfind : findKey log event.idempotencyKey with
  | none => simpa using List.find?_eq_none.mp hfind event hevent
  | some other =>
    have hother := List.mem_of_find?_eq_some hfind
    have hkey : other.idempotencyKey = event.idempotencyKey := by simpa using List.find?_some hfind
    rw [List.inj_on_of_nodup_map h.keys hother hevent hkey]

/-- A call with the identity of a stored event passes the blank checks. -/
theorem Sound.wellStated (h : Sound log) (hevent : event ∈ log)
    (hkey : call.key = event.idempotencyKey) (hsame : call.sameIdentity event = true) :
    call.WellStated := by
  obtain ⟨hstoredKey, hto, hfrom, hreason⟩ := h.stated event hevent
  simp only [Call.sameIdentity, Bool.and_eq_true, decide_eq_true_eq] at hsame
  obtain ⟨⟨⟨⟨⟨⟨-, -⟩, hsameFrom⟩, hsameTo⟩, -⟩, hsameReason⟩, -⟩ := hsame
  exact ⟨hkey ▸ hstoredKey, hsameTo ▸ hto, hsameFrom ▸ hfrom, hsameReason ▸ hreason⟩

theorem Sound.replay (h : Sound log) (hevent : event ∈ log)
    (hkey : call.key = event.idempotencyKey) (hsame : call.sameIdentity event = true) :
    append drafts log call = (.ok event, log) :=
  append_of_sameIdentity (h.wellStated hevent hkey hsame) (hkey ▸ h.findKey_eq hevent) hsame

/-- What a call returned is stored under its key with its identity. -/
theorem append_stored (h : (append drafts log call).1 = .ok event) :
    event ∈ (append drafts log call).2 ∧ call.key = event.idempotencyKey ∧
      call.sameIdentity event = true := by
  have houtcome := append_outcome drafts log call
  generalize append drafts log call = result at houtcome h ⊢
  cases houtcome with
  | raised => cases h
  | replayed _ hfind hsame =>
    cases h
    have hkey : event.idempotencyKey = call.key := by simpa using List.find?_some hfind
    exact ⟨List.mem_of_find?_eq_some hfind, hkey.symm, hsame⟩
  | @appended sequence =>
    cases h
    exact ⟨List.mem_append_right _ List.mem_cons_self, rfl, sameIdentity_row call sequence⟩

/-- Every reachable ledger numbers and chains the events of each draft, binds each key once, answers
repeated calls from what it stores, and is not touched by a call that raises. -/
theorem run_ledger (drafts : List Uuid) (calls : List Call) :
    (∀ draftId, Chain (eventsOf (run drafts calls) draftId)) ∧
    ((run drafts calls).map Event.idempotencyKey).Nodup ∧
    (∀ event ∈ run drafts calls, ∀ call : Call, call.key = event.idempotencyKey →
      call.sameIdentity event = true →
      append drafts (run drafts calls) call = (.ok event, run drafts calls)) ∧
    (∀ first call rest event, calls = first ++ call :: rest →
      (append drafts (run drafts first) call).1 = .ok event →
      ∀ eventId, append drafts (run drafts calls) { call with eventId := eventId } =
        (.ok event, run drafts calls)) ∧
    ∀ call error, (append drafts (run drafts calls) call).1 = .error error →
      (append drafts (run drafts calls) call).2 = run drafts calls := by
  have hsound := run_sound drafts calls
  refine ⟨hsound.chain, hsound.keys, fun event hevent call => hsound.replay hevent, ?_, ?_⟩
  · rintro first call rest event rfl hreturned eventId
    obtain ⟨hevent, hkey, hsame⟩ := append_stored hreturned
    refine hsound.replay ?_ hkey hsame
    rw [run_append]
    exact mem_foldl hevent rest
  · intro call error herror
    have houtcome := append_outcome drafts (run drafts calls) call
    generalize append drafts (run drafts calls) call = result at houtcome herror ⊢
    cases houtcome with
    | raised => rfl
    | replayed => cases herror
    | appended => cases herror

def proposal : Call :=
  { eventId := 1, draftId := 7, eventType := .proposalCreated, fromState := none, toState := "draft ",
    actorId := none, idempotencyKey := " proposal:7" }

def reviewRequest : Call :=
  { eventId := 2, draftId := 7, eventType := .reviewRequested, fromState := some "draft",
    toState := "in_review", actorId := none, idempotencyKey := "review:7" }

/-- The hypotheses hold together: a proposal repeated after the review request is answered from the
ledger. -/
theorem repeated_proposal_answered :
    (append [7] (run [7] []) proposal).1 = .ok (proposal.row 1) ∧
      append [7] (run [7] [proposal, reviewRequest]) { proposal with eventId := 9 } =
        (.ok (proposal.row 1), run [7] [proposal, reviewRequest]) := by
  have hreturned : (append [7] (run [7] []) proposal).1 = .ok (proposal.row 1) := by
    rfl
  refine ⟨hreturned, ?_⟩
  exact (run_ledger [7] [proposal, reviewRequest]).2.2.2.1 [] proposal [reviewRequest] _ rfl
    hreturned 9

end Cygnus.Governance.EventLog
