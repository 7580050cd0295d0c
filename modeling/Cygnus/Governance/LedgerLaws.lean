import Cygnus.Governance.Ledger

namespace Cygnus.Governance

open Wiki Text Result

variable {ledger ledger' : Table GovernanceLedgerEvent} {eventId : Uuid} {event : DraftEvent}
  {row : GovernanceLedgerEvent}

/-- The state a draft is in according to its ledger. -/
def ledgerState (ledger : Table GovernanceLedgerEvent) (draftId : Uuid) : Option GovernanceState :=
  (getLatestDraftEvent ledger draftId).map GovernanceLedgerEvent.toState

/-- `row` is `event`, written at the end of its draft's history. -/
structure Appends (ledger : Table GovernanceLedgerEvent) (eventId : Uuid) (event : DraftEvent)
    (row : GovernanceLedgerEvent) (ledger' : Table GovernanceLedgerEvent) : Prop where
  keyFree : findKey ledger event.idempotencyKey = none
  idFree : ledger.get eventId = none
  from_eq : ledgerState ledger event.draftId = event.fromState
  ledger_eq : ledger' = ledger ++ [row]
  later : ∀ current ∈ getLatestDraftEvent ledger event.draftId, current.sequence < row.sequence
  id_eq : row.id = eventId
  draft_eq : row.draftId = event.draftId
  type_eq : row.eventType = event.eventType
  to_eq : row.toState = event.toState
  key_eq : row.idempotencyKey = event.idempotencyKey
  payload_eq : row.payload = event.payload

theorem nextSequence_ok {place : Nat} (h : nextSequence ledger event = .ok place) :
    ledgerState ledger event.draftId = event.fromState ∧
      ∀ current ∈ getLatestDraftEvent ledger event.draftId, current.sequence < place := by
  unfold nextSequence at h
  unfold ledgerState
  split at h
  · rename_i hnone
    simp only [bind_ok, require_ok, pure_ok] at h
    obtain ⟨-, hfrom, -⟩ := h
    simp [hnone, hfrom]
  · rename_i current hcurrent
    simp only [bind_ok, require_ok, pure_ok] at h
    obtain ⟨-, hfrom, rfl⟩ := h
    simp [hcurrent, hfrom]

/-- An append replays the event already stored under its key, or extends the history of its
draft from the state the caller names. -/
theorem appendDraftEvent_ok (h : appendDraftEvent ledger eventId event = .ok (row, ledger')) :
    (findKey ledger event.idempotencyKey = some row ∧ event.sameIdentity row ∧ ledger' = ledger) ∨
      Appends ledger eventId event row ledger' := by
  simp only [appendDraftEvent] at h
  rw [bind_ok] at h
  obtain ⟨-, -, h⟩ := h
  split at h
  · rename_i existing hfind
    simp only [bind_ok, require_ok, pure_ok, Prod.mk.injEq] at h
    obtain ⟨-, hsame, rfl, rfl⟩ := h
    exact .inl ⟨hfind, hsame, rfl⟩
  · rename_i hfind
    simp only [bind_ok, pure_ok, Prod.mk.injEq] at h
    obtain ⟨place, hplace, inserted, hinsert, rfl, rfl⟩ := h
    obtain ⟨hfree, rfl⟩ := Table.insert_ok hinsert
    obtain ⟨hfrom, hlater⟩ := nextSequence_ok hplace
    exact .inr ⟨hfind, hfree, hfrom, rfl, hlater, rfl, rfl, rfl, rfl, rfl, rfl⟩

theorem Appends.latest_self (h : Appends ledger eventId event row ledger') :
    getLatestDraftEvent ledger' event.draftId = some row := by
  have hlater := h.later
  rw [h.ledger_eq]
  unfold getLatestDraftEvent at hlater ⊢
  rw [List.filter_append, List.filter_cons_of_pos (by simp [h.draft_eq]), List.filter_nil,
    List.argmax_concat]
  cases hmax : List.argmax GovernanceLedgerEvent.sequence
      (List.filter (fun e => decide (e.draftId = event.draftId)) ledger) with
  | none => rfl
  | some current =>
    rw [hmax] at hlater
    exact if_pos (hlater current rfl)

theorem Appends.latest_other (h : Appends ledger eventId event row ledger') {draftId : Uuid}
    (hne : event.draftId ≠ draftId) :
    getLatestDraftEvent ledger' draftId = getLatestDraftEvent ledger draftId := by
  rw [h.ledger_eq]
  unfold getLatestDraftEvent
  rw [List.filter_append, List.filter_cons_of_neg (by simpa [h.draft_eq] using hne), List.filter_nil,
    List.append_nil]

theorem Appends.ledgerState_eq (h : Appends ledger eventId event row ledger') (draftId : Uuid) :
    ledgerState ledger' draftId =
      if event.draftId = draftId then some event.toState else ledgerState ledger draftId := by
  split
  · rename_i heq
    rw [← heq, ledgerState, h.latest_self, Option.map_some, h.to_eq]
  · rename_i hne
    rw [ledgerState, h.latest_other hne, ledgerState]

theorem findKey_none {key : IdempotencyKey} :
    findKey ledger key = none ↔ ∀ e ∈ ledger, e.idempotencyKey ≠ key := by
  simp [findKey]

theorem findKey_some {key : IdempotencyKey} (h : findKey ledger key = some row) :
    row ∈ ledger ∧ row.idempotencyKey = key :=
  ⟨List.mem_of_find?_eq_some h, by simpa using List.find?_some h⟩

/-- With no event under its key, an append extends the history. -/
theorem appendDraftEvent_fresh (h : appendDraftEvent ledger eventId event = .ok (row, ledger'))
    (hfree : findKey ledger event.idempotencyKey = none) :
    Appends ledger eventId event row ledger' := by
  rcases appendDraftEvent_ok h with ⟨hfind, -, -⟩ | happend
  · rw [hfree] at hfind
    cases hfind
  · exact happend

theorem returns_nextSequence_iff :
    Returns (nextSequence ledger event) ↔ ledgerState ledger event.draftId = event.fromState := by
  constructor
  · rintro ⟨place, hplace⟩
    exact (nextSequence_ok hplace).1
  · intro hfrom
    unfold ledgerState at hfrom
    unfold nextSequence
    split
    · rename_i hnone
      rw [hnone] at hfrom
      exact Returns.bind (returns_require.mpr hfrom.symm) fun _ _ => returns_pure _
    · rename_i current hcurrent
      rw [hcurrent] at hfrom
      exact Returns.bind (returns_require.mpr hfrom) fun _ _ => returns_pure _

/-- An append under a new key and id is refused only for the state it leaves. -/
theorem returns_appendDraftEvent_iff (hreason : event.reason.map strip ≠ some "")
    (hkey : findKey ledger event.idempotencyKey = none) (hid : ledger.get eventId = none) :
    Returns (appendDraftEvent ledger eventId event) ↔
      ledgerState ledger event.draftId = event.fromState := by
  constructor
  · rintro ⟨⟨row, ledger'⟩, h⟩
    exact (appendDraftEvent_fresh h hkey).from_eq
  · intro hfrom
    unfold appendDraftEvent
    dsimp only
    refine Returns.bind (returns_require.mpr hreason) fun _ _ => ?_
    rw [hkey]
    refine Returns.bind (returns_nextSequence_iff.mpr hfrom) fun place _ => ?_
    exact Returns.bind (Table.returns_insert hid) fun _ _ => returns_pure _

theorem Appends.findKey_none (h : Appends ledger eventId event row ledger') {key : IdempotencyKey}
    (hfree : findKey ledger key = none) (hne : event.idempotencyKey ≠ key) :
    findKey ledger' key = none := by
  rw [Governance.findKey_none] at hfree ⊢
  intro e he
  rw [h.ledger_eq, List.mem_append, List.mem_singleton] at he
  rcases he with he | rfl
  · exact hfree e he
  · rw [h.key_eq]
    exact hne

/-- An append binds no key but its own. -/
theorem appendDraftEvent_findKey_none
    (h : appendDraftEvent ledger eventId event = .ok (row, ledger')) {key : IdempotencyKey}
    (hfree : findKey ledger key = none) (hne : event.idempotencyKey ≠ key) :
    findKey ledger' key = none := by
  rcases appendDraftEvent_ok h with ⟨-, -, rfl⟩ | happend
  · exact hfree
  · exact happend.findKey_none hfree hne

end Cygnus.Governance
