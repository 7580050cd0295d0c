import Cygnus.Data.HeadOfLine
import Cygnus.Delivery.Drain
import Cygnus.Delivery.DestinationLaws
import Cygnus.Delivery.Rows
import Cygnus.Governance.LedgerLaws

/-! Which deliveries a sweep gets to: each claimed row is stuck, leaves the queue or is
dispatched. -/

namespace Cygnus.Delivery

open Wiki Text Result Sequence Governance HeadOfLine Url

section Rejections

def rejectedReason : String := "delivery_destination_rejected"

/-- What a sweep does not change of a row that it puts back. -/
structure Stake where
  id : Uuid
  propagationId : Uuid
  publicationId : Uuid
  surfaceId : String
  attempts : Nat
  createdAt : Timestamp

def GovernancePropagationDelivery.stake (delivery : GovernancePropagationDelivery) : Stake :=
  ⟨delivery.id, delivery.propagationId, delivery.publicationId, delivery.surfaceId,
    delivery.attempts, delivery.createdAt⟩

/-- The event that records a terminal outcome. -/
def terminalEvent (publication : GovernancePublication) (propagation : GovernancePropagation)
    (delivery : GovernancePropagationDelivery) (attempt : Attempt) (reason : String)
    (state : GovernanceState) : DraftEvent where
  draftId := publication.draftId
  eventType := .propagationUpdated
  fromState := some state
  toState := state
  actorId := none
  idempotencyKey := .propagationDeliveryTerminal delivery.id
  reason := some reason
  payload := transitionPayload publication propagation delivery attempt

/-- The terminal outcome can be recorded: the propagation has failed for this reason before, or the
ledger takes the event. -/
def canTransition (channels : Channels) (delivery : GovernancePropagationDelivery)
    (attempt : Attempt) (reason : String) : Bool :=
  match channels.propagations.get delivery.propagationId with
  | none => false
  | some propagation =>
    decide (propagation.status = .failed ∧ propagation.reason = reason) ||
      match channels.publications.get delivery.publicationId with
      | none => false
      | some publication =>
        match ledgerState channels.ledger publication.draftId with
        | none => false
        | some state =>
          (findKey channels.ledger (.propagationDeliveryTerminal delivery.id)).all
            (terminalEvent publication propagation delivery attempt reason state).sameIdentity

/-- The row as its rejection leaves it. -/
def rejectedRow (row : GovernancePropagationDelivery) (message : String) (now : Timestamp) :
    GovernancePropagationDelivery :=
  row.count (rejection row message now) .failed DeliveryStatus.failed.value

def canReject (channels : Channels) (row : GovernancePropagationDelivery) (message : String)
    (now : Timestamp) : Bool :=
  canTransition channels (rejectedRow row message now) (rejection row message now) rejectedReason

variable {ledger ledger' : Table GovernanceLedgerEvent} {eventId : Uuid} {event : DraftEvent}

theorem returns_append_iff (hreason : event.reason.map strip ≠ some "")
    (hstate : ledgerState ledger event.draftId = event.fromState)
    (hid : ledger.get eventId = none) :
    Returns (appendDraftEvent ledger eventId event) ↔
      (findKey ledger event.idempotencyKey).all event.sameIdentity = true := by
  cases hfind : findKey ledger event.idempotencyKey with
  | none => simp [returns_appendDraftEvent_iff hreason hfind hid, hstate]
  | some existing =>
    rw [Option.all_some]
    constructor
    · rintro ⟨⟨row, ledger'⟩, happend⟩
      rcases appendDraftEvent_ok happend with ⟨hfound, hsame, -⟩ | happends
      · rw [hfind] at hfound
        cases hfound
        exact hsame
      · rw [happends.keyFree] at hfind
        cases hfind
    · intro hsame
      refine ⟨(existing, ledger), ?_⟩
      unfold appendDraftEvent
      dsimp only
      rw [require_of hreason, ok_bind, hfind]
      dsimp only
      rw [require_of hsame]
      rfl

/-- What an append in place leaves of the ledger. -/
structure InPlace (ledger ledger' : Table GovernanceLedgerEvent) (eventId : Uuid)
    (key : IdempotencyKey) : Prop where
  states : ∀ draftId, ledgerState ledger' draftId = ledgerState ledger draftId
  keys : ∀ other, other ≠ key → findKey ledger' other = findKey ledger other
  free : ∀ id, id ≠ eventId → ledger.get id = none → ledger'.get id = none

theorem append_inPlace {row : GovernanceLedgerEvent}
    (hplace : event.fromState = some event.toState)
    (h : appendDraftEvent ledger eventId event = .ok (row, ledger')) :
    InPlace ledger ledger' eventId event.idempotencyKey := by
  rcases appendDraftEvent_ok h with ⟨-, -, rfl⟩ | happends
  · exact ⟨fun _ => rfl, fun _ _ => rfl, fun _ _ hid => hid⟩
  · refine ⟨fun draftId => ?_, fun other hother => ?_, fun id hid hfree => ?_⟩
    · rw [happends.ledgerState_eq]
      split
      · rename_i hdraft
        rw [← hplace, ← happends.from_eq, hdraft]
      · rfl
    · have hkey : (row.idempotencyKey = other) = False :=
        eq_false fun heq => hother (heq.symm.trans happends.key_eq)
      rw [happends.ledger_eq, findKey, findKey, List.find?_append, List.find?_singleton]
      simp [hkey]
    · rw [happends.ledger_eq, Table.get_append, hfree]
      have hne : Row.key row ≠ id := fun heq => hid (heq.symm.trans happends.id_eq)
      simp [hne]

/-- What is recorded of a rejection does not depend on the state of the row. -/
theorem canReject_congr {channels : Channels} {row row' : GovernancePropagationDelivery}
    {message : String} {now : Timestamp} (hstake : row'.stake = row.stake) :
    canReject channels row' message now = canReject channels row message now := by
  simp only [GovernancePropagationDelivery.stake, Stake.mk.injEq] at hstake
  obtain ⟨hid, hpropagation, hpublication, hsurface, hattempts, -⟩ := hstake
  simp only [canReject, canTransition, rejectedRow, rejection, terminalEvent, transitionPayload,
    GovernancePropagationDelivery.count, appendAttemptEvidence, hid, hpropagation, hpublication,
    hsurface, hattempts]

theorem rejection_congr {row row' : GovernancePropagationDelivery} {message : String}
    {now : Timestamp} (hstake : row'.stake = row.stake) :
    rejection row message now = rejection row' message now := by
  have hattempts : row'.attempts = row.attempts := congrArg Stake.attempts hstake
  rw [rejection, rejection, hattempts]

variable {channels channels' : Channels} {claimed delivery : GovernancePropagationDelivery}
  {message : String} {now : Timestamp}

theorem returns_transition_iff {attempt : Attempt} {reason : String} (commands : List String)
    (hreason : strip reason ≠ "") (hid : channels.ledger.get eventId = none) :
    Returns (transitionPropagation channels delivery attempt reason commands eventId) ↔
      canTransition channels delivery attempt reason = true := by
  unfold transitionPropagation canTransition
  cases channels.propagations.get delivery.propagationId with
  | none => simp [throw, throwThe, MonadExceptOf.throw]
  | some propagation =>
    by_cases hdone : propagation.status = .failed ∧ propagation.reason = reason
    · simp [hdone]
    · cases channels.publications.get delivery.publicationId with
      | none => simp [hdone, throw, throwThe, MonadExceptOf.throw]
      | some publication =>
        simp only [if_neg hdone, decide_eq_false hdone, Bool.false_or]
        rw [returns_bind]
        simp only [returns_pure, and_true]
        show Returns (appendInPlace _ _ _ _ _ _ _ _) ↔ _
        unfold appendInPlace ledgerState
        cases hlatest : getLatestDraftEvent channels.ledger publication.draftId with
        | none => simp [throw, throwThe, MonadExceptOf.throw]
        | some current =>
          have hstate : ledgerState channels.ledger publication.draftId = some current.toState := by
            rw [ledgerState, hlatest, Option.map_some]
          have hnonblank : (terminalEvent publication propagation delivery attempt reason
              current.toState).reason.map strip ≠ some "" := by
            simpa [terminalEvent] using hreason
          rw [returns_mapError]
          exact returns_append_iff hnonblank hstate hid

/-- The rejection is recorded exactly where it can be. -/
theorem returns_reject_iff (hfound : channels.deliveries.get claimed.id = some delivery)
    (hunsynced : delivery.status ≠ .synced) (hstake : delivery.stake = claimed.stake)
    (hid : channels.ledger.get eventId = none) :
    Returns (recordTerminal channels claimed.id (rejection claimed message now) .failed
      rejectedReason eventId now) ↔ canReject channels claimed message now = true := by
  have hreason : strip rejectedReason ≠ "" := by
    decide +kernel
  rw [← canReject_congr hstake, rejection_congr hstake, canReject,
    ← returns_transition_iff [] hreason hid]
  unfold recordTerminal
  rw [hfound]
  dsimp only
  rw [if_neg hunsynced, returns_bind]
  simp only [returns_pure, and_true]
  rfl

theorem appendInPlace_inPlace {draftId : Uuid} {actorId : Option Uuid} {key : IdempotencyKey}
    {reason : String} {payload : JsonObject} {noState : DeliveryError} {row : GovernanceLedgerEvent}
    (h : appendInPlace channels eventId draftId actorId key reason payload noState =
      .ok (row, ledger')) : InPlace channels.ledger ledger' eventId key := by
  unfold appendInPlace at h
  split at h
  · cases h
  · rw [mapError_ok] at h
    exact append_inPlace rfl h

/-- What handling one claim leaves of everything else. -/
structure Handled (channels channels' : Channels) (row : GovernancePropagationDelivery)
    (eventId : Uuid) : Prop where
  publications : channels'.publications = channels.publications
  propagations : ∀ i, i ≠ row.propagationId →
    channels'.propagations.get i = channels.propagations.get i
  deliveries : ∀ i, i ≠ row.id → channels'.deliveries.get i = channels.deliveries.get i
  rows : channels'.deliveries.map Row.key = channels.deliveries.map Row.key
  ledger : InPlace channels.ledger channels'.ledger eventId (.propagationDeliveryTerminal row.id)

theorem InPlace.refl (ledger : Table GovernanceLedgerEvent) (eventId : Uuid)
    (key : IdempotencyKey) : InPlace ledger ledger eventId key :=
  ⟨fun _ => rfl, fun _ _ => rfl, fun _ _ hfree => hfree⟩

theorem transition_handled {attempt : Attempt} {reason : String} {commands : List String}
    (h : transitionPropagation channels delivery attempt reason commands eventId = .ok channels') :
    Handled channels channels' delivery eventId ∧ channels'.deliveries = channels.deliveries := by
  unfold transitionPropagation at h
  split at h
  · cases h
  · rename_i propagation hpropagation
    split at h
    · cases h
      exact ⟨⟨rfl, fun _ _ => rfl, fun _ _ => rfl, rfl, .refl _ _ _⟩, rfl⟩
    · split at h
      · cases h
      · simp only [bind_ok, pure_ok] at h
        obtain ⟨⟨event, ledger⟩, hevent, rfl⟩ := h
        refine ⟨⟨rfl, fun i hi => ?_, fun _ _ => rfl, rfl, appendInPlace_inPlace hevent⟩, rfl⟩
        have hkey : Row.key propagation = delivery.propagationId := Table.get_key hpropagation
        rw [Table.get_put, if_neg]
        exact fun heq => hi (heq.symm.trans hkey)

/-- A row with its status and its stake as they are after its claim has been handled. -/
def Stands (channels : Channels) (row : GovernancePropagationDelivery) (status : DeliveryStatus) :
    Prop :=
  ∃ delivery, channels.deliveries.get row.id = some delivery ∧ delivery.status = status ∧
    delivery.age = row.age ∧ delivery.propagationId = row.propagationId ∧
    (status ≠ .failed → delivery.stake = row.stake)

theorem reject_handled (hfound : channels.deliveries.get claimed.id = some delivery)
    (hunsynced : delivery.status ≠ .synced) (hstake : delivery.stake = claimed.stake)
    (h : recordTerminal channels claimed.id (rejection claimed message now) .failed rejectedReason
      eventId now = .ok channels') :
    Handled channels channels' claimed eventId ∧ Stands channels' claimed .failed := by
  have hid : delivery.id = claimed.id := Table.get_key hfound
  have hpropagation : delivery.propagationId = claimed.propagationId :=
    congrArg Stake.propagationId hstake
  have hcreated : delivery.createdAt = claimed.createdAt := congrArg Stake.createdAt hstake
  unfold recordTerminal at h
  rw [hfound] at h
  dsimp only at h
  rw [if_neg hunsynced, bind_ok] at h
  obtain ⟨moved, hmoved, h⟩ := h
  cases h
  obtain ⟨hhandled, hsame⟩ := transition_handled hmoved
  let row := delivery.count (rejection claimed message now) .failed DeliveryStatus.failed.value
  have hold : moved.deliveries.get row.id = some delivery := by
    rw [hsame]
    rwa [← hid] at hfound
  have hsaves : Saves moved.deliveries row (saveDelivery row now moved.deliveries) :=
    saveDelivery_saves hold
  have hrow : row.id = claimed.id := hid
  refine ⟨⟨hhandled.publications, ?_, ?_, ?_, ?_⟩, ?_⟩
  · intro i hi
    exact hhandled.propagations i (hpropagation ▸ hi)
  · intro i hi
    exact (hsaves.other i (hrow ▸ hi)).trans (hhandled.deliveries i (hrow ▸ hi))
  · exact hsaves.keys.trans hhandled.rows
  · rw [← hrow]
    exact hhandled.ledger
  · obtain ⟨time, hself⟩ := hsaves.self
    have hget := (congrArg (saveDelivery row now moved.deliveries).get hrow.symm).trans hself
    refine ⟨_, hget, rfl, ?_, hpropagation, fun hne => absurd rfl hne⟩
    show toLex (delivery.createdAt, delivery.id) = toLex (claimed.createdAt, claimed.id)
    rw [hcreated, hid]

theorem revert_handled {lastError : String}
    (hfound : channels.deliveries.get claimed.id = some delivery)
    (hunsynced : delivery.status ≠ .synced) (hstake : delivery.stake = claimed.stake) :
    Handled channels (revertToPending channels claimed.id lastError now) claimed eventId ∧
      Stands (revertToPending channels claimed.id lastError now) claimed .pending := by
  have hid : delivery.id = claimed.id := Table.get_key hfound
  have hage : delivery.age = claimed.age :=
    congrArg (fun stake : Stake => toLex (stake.createdAt, stake.id)) hstake
  let row : GovernancePropagationDelivery := { delivery with
    status := .pending, lastError := boundedError (some lastError) }
  have hrevert : revertToPending channels claimed.id lastError now =
      { channels with deliveries := saveDelivery row now channels.deliveries } := by
    rw [revertToPending, recordUnlessSynced, hfound]
    exact if_neg hunsynced
  have hrow : row.id = claimed.id := hid
  have hold : channels.deliveries.get row.id = some delivery := by
    rw [hrow, hfound]
  have hsaves : Saves channels.deliveries row (saveDelivery row now channels.deliveries) :=
    saveDelivery_saves hold
  rw [hrevert]
  refine ⟨⟨rfl, fun _ _ => rfl, fun i hi => hsaves.other i (hrow ▸ hi), hsaves.keys,
    .refl _ _ _⟩, ?_⟩
  obtain ⟨time, hself⟩ := hsaves.self
  have hget := (congrArg (saveDelivery row now channels.deliveries).get hrow.symm).trans hself
  exact ⟨_, hget, rfl, hage, congrArg Stake.propagationId hstake, fun _ => hstake⟩

end Rejections

section Kinds

variable {Body T : Type} [Clock T] (settings : SweepSettings Body)
  (breaker : DeliveryCircuitBreaker T)

/-- What becomes of a claimed row: without a target, a circuit that allows the request, or a
rejection that can be recorded, it goes back where it was. -/
def kindOf (allowedOrigins : List Chars) (circuits : Circuits T) (time : T) (now : Timestamp)
    (channels : Channels) (row : GovernancePropagationDelivery) : Kind :=
  match routeOf settings allowedOrigins row.surfaceId with
  | .noTarget => .stuck
  | .crashed _ => .stuck
  | .rejected message => if canReject channels row message now then .leaving else .stuck
  | .toHost host => if (breaker.allow circuits host time).1 then .ready else .stuck

/-- What the kind of a row is read from. -/
structure Agrees (channels channels' : Channels) (row : GovernancePropagationDelivery) : Prop where
  publications : channels'.publications = channels.publications
  propagations : channels'.propagations.get row.propagationId =
    channels.propagations.get row.propagationId
  states : ∀ draftId, ledgerState channels'.ledger draftId = ledgerState channels.ledger draftId
  keys : findKey channels'.ledger (.propagationDeliveryTerminal row.id) =
    findKey channels.ledger (.propagationDeliveryTerminal row.id)

variable {settings breaker} {allowedOrigins : List Chars} {circuits : Circuits T} {time : T}
  {now : Timestamp} {channels channels' : Channels} {row row' : GovernancePropagationDelivery}

theorem Agrees.canReject (h : Agrees channels channels' row) (message : String) :
    canReject channels' row message now = canReject channels row message now := by
  have hpropagation : (rejectedRow row message now).propagationId = row.propagationId := rfl
  have hid : (rejectedRow row message now).id = row.id := rfl
  simp only [Delivery.canReject, canTransition, hpropagation, hid, h.publications, h.propagations,
    h.states, h.keys]

theorem Agrees.kindOf (h : Agrees channels channels' row) :
    kindOf settings breaker allowedOrigins circuits time now channels' row =
      kindOf settings breaker allowedOrigins circuits time now channels row := by
  simp only [Delivery.kindOf, h.canReject]

theorem kindOf_congr (hstake : row'.stake = row.stake) :
    kindOf settings breaker allowedOrigins circuits time now channels row' =
      kindOf settings breaker allowedOrigins circuits time now channels row := by
  have hsurface : row'.surfaceId = row.surfaceId := congrArg Stake.surfaceId hstake
  simp only [kindOf, hsurface, canReject_congr hstake]

theorem Handled.agrees {eventId : Uuid} (h : Handled channels channels' row eventId)
    (hid : row'.id ≠ row.id) (hpropagation : row'.propagationId ≠ row.propagationId) :
    Agrees channels channels' row' :=
  ⟨h.publications, h.propagations _ hpropagation, h.ledger.states, h.ledger.keys _ fun heq =>
    hid (IdempotencyKey.propagationDeliveryTerminal.inj heq)⟩

end Kinds

section Claims

variable {Body T : Type} {call : SweepCall Body T} {outbox : Outbox T}
  {claimed : GovernancePropagationDelivery}

/-- The row is as it was claimed, and the identifier drawn for its event is free. -/
structure Held (call : SweepCall Body T) (channels : Channels)
    (claimed : GovernancePropagationDelivery) : Prop where
  row : ∃ delivery, channels.deliveries.get claimed.id = some delivery ∧
    delivery.status ≠ .synced ∧ delivery.stake = claimed.stake
  free : channels.ledger.get (call.eventId claimed.id) = none

/-- The status that a row without a request is left in. -/
def idleStatus : Kind → DeliveryStatus
  | .leaving => .failed
  | _ => .pending

/-- A claim that makes no request. -/
structure Idle (call : SweepCall Body T) (outbox next : Outbox T)
    (claimed : GovernancePropagationDelivery) (kind : Kind) : Prop where
  circuits : next.circuits = outbox.circuits
  dispatched : next.dispatched = outbox.dispatched
  handled : Handled outbox.channels next.channels claimed (call.eventId claimed.id)
  agrees : kind ≠ .leaving → ∀ row, Agrees outbox.channels next.channels row
  stands : Stands next.channels claimed (idleStatus kind)

theorem revert_idle (hheld : Held call outbox.channels claimed) (lastError : String) :
    Idle call outbox (outbox.revert claimed lastError call.now) claimed .stuck := by
  obtain ⟨⟨delivery, hfound, hunsynced, hstake⟩, -⟩ := hheld
  obtain ⟨hhandled, hstands⟩ := revert_handled hfound hunsynced hstake
  refine ⟨rfl, rfl, hhandled, fun _ row => ?_, hstands⟩
  have hrevert : (outbox.revert claimed lastError call.now).channels =
      { outbox.channels with deliveries := (outbox.revert claimed lastError
        call.now).channels.deliveries } := by
    rw [Outbox.revert, revertToPending, recordUnlessSynced, hfound]
    dsimp only
    rw [if_neg hunsynced]
  rw [hrevert]
  exact ⟨rfl, rfl, fun _ => rfl, rfl⟩

theorem reject_idle (hheld : Held call outbox.channels claimed) (message : String) :
    Idle call outbox (outbox.settle claimed call.now (recordTerminal outbox.channels claimed.id
        (rejection claimed message call.now) .failed rejectedReason (call.eventId claimed.id)
        call.now)) claimed
      (if canReject outbox.channels claimed message call.now then .leaving else .stuck) := by
  obtain ⟨delivery, hfound, hunsynced, hstake⟩ := hheld.row
  have hreturns : Returns (recordTerminal outbox.channels claimed.id
      (rejection claimed message call.now) .failed rejectedReason (call.eventId claimed.id)
      call.now) ↔ canReject outbox.channels claimed message call.now = true :=
    returns_reject_iff hfound hunsynced hstake hheld.free
  cases hresult : recordTerminal outbox.channels claimed.id (rejection claimed message call.now)
      .failed rejectedReason (call.eventId claimed.id) call.now with
  | ok channels =>
    rw [if_pos (hreturns.mp ⟨channels, hresult⟩)]
    obtain ⟨hhandled, hstands⟩ := reject_handled hfound hunsynced hstake hresult
    exact ⟨rfl, rfl, hhandled, fun hne => absurd rfl hne, hstands⟩
  | error error =>
    have hrefused : ¬ canReject outbox.channels claimed message call.now = true := by
      intro hcan
      obtain ⟨channels, hok⟩ := hreturns.mpr hcan
      rw [hresult] at hok
      cases hok
    rw [if_neg hrefused]
    exact revert_idle hheld _

variable [Clock T] {settings : SweepSettings Body} {breaker : DeliveryCircuitBreaker T}
  {allowedOrigins : List Chars}

theorem allow_refused {circuits : Circuits T} {host : String} {time : T}
    (h : (breaker.allow circuits host time).1 = false) :
    (breaker.allow circuits host time).2 = circuits := by
  unfold DeliveryCircuitBreaker.allow at h ⊢
  split at h
  · cases h
  · split at h
    · cases h
    · split at h
      · cases h
      · split at h
        · cases h
        · rename_i hopened hhalf hcool
          simp only [hopened, if_neg hhalf, if_neg hcool]

theorem execute_idle (hheld : Held call outbox.channels claimed)
    (hkind : kindOf settings breaker allowedOrigins outbox.circuits call.time call.now
      outbox.channels claimed ≠ .ready) :
    Idle call outbox (executeDeliveryClaim settings breaker allowedOrigins call outbox claimed)
      claimed (kindOf settings breaker allowedOrigins outbox.circuits call.time call.now
        outbox.channels claimed) := by
  unfold executeDeliveryClaim
  unfold kindOf at hkind ⊢
  cases hroute : routeOf settings allowedOrigins claimed.surfaceId with
  | noTarget => exact revert_idle hheld _
  | crashed className => exact revert_idle hheld _
  | rejected message => exact reject_idle hheld message
  | toHost host =>
    rw [hroute] at hkind
    dsimp only at hkind ⊢
    cases hallow : (breaker.allow outbox.circuits host call.time).1 with
    | true => exact absurd (if_pos hallow) hkind
    | false =>
      rw [allow_refused hallow]
      exact revert_idle hheld _

theorem dispatch_dispatched (host : String) (outbox : Outbox T)
    (claimed : GovernancePropagationDelivery) :
    (dispatch settings breaker call host outbox claimed).dispatched =
      outbox.dispatched ++ [claimed.id] := by
  unfold dispatch
  dsimp only
  split
  · rfl
  · unfold Outbox.settle
    split <;> rfl

/-- A claim is dispatched exactly where it is ready. -/
theorem execute_dispatched :
    (executeDeliveryClaim settings breaker allowedOrigins call outbox claimed).dispatched =
      outbox.dispatched ++ if kindOf settings breaker allowedOrigins outbox.circuits call.time
        call.now outbox.channels claimed = .ready then [claimed.id] else [] := by
  unfold executeDeliveryClaim kindOf
  cases hroute : routeOf settings allowedOrigins claimed.surfaceId with
  | noTarget => simp [Outbox.revert]
  | crashed className => simp [Outbox.revert]
  | rejected message =>
    dsimp only
    unfold Outbox.settle
    split <;> split <;> simp [Outbox.revert]
  | toHost host =>
    dsimp only
    by_cases hallow : (breaker.allow outbox.circuits host call.time).1 = true
    · simp [hallow, dispatch_dispatched]
    · simp [hallow, Outbox.revert]

end Claims

section Batches

variable {Body T : Type} {call : SweepCall Body T} {outbox : Outbox T}
  {head : GovernancePropagationDelivery} {rows : List GovernancePropagationDelivery}

/-- Rows held by one sweep, each with its own propagation and event. -/
structure Batch (call : SweepCall Body T) (channels : Channels)
    (rows : List GovernancePropagationDelivery) : Prop where
  held : ∀ row ∈ rows, Held call channels row
  ids : (rows.map fun row => row.id).Nodup
  propagations : (rows.map fun row => row.propagationId).Nodup
  events : (rows.map fun row => call.eventId row.id).Nodup

theorem Batch.apart (h : Batch call outbox.channels (head :: rows)) :
    ∀ row ∈ rows, row.id ≠ head.id ∧ row.propagationId ≠ head.propagationId ∧
      call.eventId row.id ≠ call.eventId head.id := by
  have hids := h.ids
  have hpropagations := h.propagations
  have hevents := h.events
  rw [List.map_cons, List.nodup_cons] at hids hpropagations hevents
  intro row hrow
  refine ⟨fun heq => hids.1 (List.mem_map.mpr ⟨row, hrow, heq⟩),
    fun heq => hpropagations.1 (List.mem_map.mpr ⟨row, hrow, heq⟩),
    fun heq => hevents.1 (List.mem_map.mpr ⟨row, hrow, heq⟩)⟩

theorem Batch.next {channels' : Channels} (h : Batch call outbox.channels (head :: rows))
    (hhandled : Handled outbox.channels channels' head (call.eventId head.id)) :
    Batch call channels' rows := by
  have hids := h.ids
  have hpropagations := h.propagations
  have hevents := h.events
  rw [List.map_cons, List.nodup_cons] at hids hpropagations hevents
  refine ⟨fun row hrow => ?_, hids.2, hpropagations.2, hevents.2⟩
  obtain ⟨hid, -, hevent⟩ := h.apart row hrow
  obtain ⟨⟨delivery, hfound, hrest⟩, hfree⟩ := h.held row (List.mem_cons_of_mem _ hrow)
  exact ⟨⟨delivery, (hhandled.deliveries _ hid).trans hfound, hrest⟩,
    hhandled.ledger.free _ hevent hfree⟩

/-- A run of claims that make no request. -/
structure IdleBatch (outbox next : Outbox T) (rows : List GovernancePropagationDelivery)
    (kind : GovernancePropagationDelivery → Kind) : Prop where
  circuits : next.circuits = outbox.circuits
  dispatched : next.dispatched = outbox.dispatched
  deliveries : ∀ i, (∀ row ∈ rows, i ≠ row.id) →
    next.channels.deliveries.get i = outbox.channels.deliveries.get i
  keys : next.channels.deliveries.map Row.key = outbox.channels.deliveries.map Row.key
  agrees : ∀ other, (∀ row ∈ rows, kind row = .leaving →
    other.id ≠ row.id ∧ other.propagationId ≠ row.propagationId) →
    Agrees outbox.channels next.channels other
  stands : ∀ row ∈ rows, Stands next.channels row (idleStatus (kind row))

theorem Agrees.trans {channels channels' channels'' : Channels}
    {row : GovernancePropagationDelivery} (h : Agrees channels channels' row)
    (h' : Agrees channels' channels'' row) : Agrees channels channels'' row :=
  ⟨h'.publications.trans h.publications, h'.propagations.trans h.propagations,
    fun draftId => (h'.states draftId).trans (h.states draftId), h'.keys.trans h.keys⟩

/-- Whoever is not the head is read as before once the head has been handled. -/
theorem Idle.agrees_other {next : Outbox T} {kind : Kind} {other : GovernancePropagationDelivery}
    (h : Idle call outbox next head kind)
    (hother : kind = .leaving → other.id ≠ head.id ∧ other.propagationId ≠ head.propagationId) :
    Agrees outbox.channels next.channels other := by
  by_cases hkind : kind = .leaving
  · exact h.handled.agrees (hother hkind).1 (hother hkind).2
  · exact h.agrees hkind other

variable [Clock T] {settings : SweepSettings Body} {breaker : DeliveryCircuitBreaker T}
  {allowedOrigins : List Chars}

theorem executeAll_idle (hbatch : Batch call outbox.channels rows)
    (hidle : ∀ row ∈ rows, kindOf settings breaker allowedOrigins outbox.circuits call.time call.now
      outbox.channels row ≠ .ready) :
    IdleBatch outbox
      (rows.foldl (executeDeliveryClaim settings breaker allowedOrigins call) outbox) rows
      (kindOf settings breaker allowedOrigins outbox.circuits call.time call.now
        outbox.channels) := by
  induction rows generalizing outbox with
  | nil =>
    exact ⟨rfl, rfl, fun _ _ => rfl, rfl, fun _ _ => ⟨rfl, rfl, fun _ => rfl, rfl⟩,
      fun row hrow => absurd hrow List.not_mem_nil⟩
  | cons head rows ih =>
    have hhead := execute_idle (hbatch.held head List.mem_cons_self)
      (hidle head List.mem_cons_self)
    let next := executeDeliveryClaim settings breaker allowedOrigins call outbox head
    have hkinds : ∀ row ∈ rows, kindOf settings breaker allowedOrigins next.circuits call.time
        call.now next.channels row = kindOf settings breaker allowedOrigins outbox.circuits
          call.time call.now outbox.channels row := by
      intro row hrow
      rw [hhead.circuits]
      apply Agrees.kindOf
      apply hhead.agrees_other
      intro _
      exact ⟨(hbatch.apart row hrow).1, (hbatch.apart row hrow).2.1⟩
    have hrest := @ih next (hbatch.next hhead.handled) (fun row hrow => by
      rw [hkinds row hrow]
      exact hidle row (List.mem_cons_of_mem _ hrow))
    rw [List.foldl_cons]
    refine ⟨hrest.circuits.trans hhead.circuits, hrest.dispatched.trans hhead.dispatched, ?_,
      hrest.keys.trans hhead.handled.rows, ?_, ?_⟩
    · intro i hi
      rw [hrest.deliveries i fun row hrow => hi row (List.mem_cons_of_mem _ hrow)]
      exact hhead.handled.deliveries i (hi head List.mem_cons_self)
    · intro other hother
      refine (hhead.agrees_other (hother head List.mem_cons_self)).trans
        (hrest.agrees other fun row hrow hkind => ?_)
      exact hother row (List.mem_cons_of_mem _ hrow) ((hkinds row hrow).symm.trans hkind)
    · intro row hrow
      rcases List.mem_cons.mp hrow with rfl | hrow
      · obtain ⟨delivery, hfound, hstands⟩ := hhead.stands
        refine ⟨delivery, ?_, hstands⟩
        rw [hrest.deliveries row.id fun other hother heq =>
          (hbatch.apart other hother).1 heq.symm]
        exact hfound
      · rw [← hkinds row hrow]
        exact hrest.stands row hrow

theorem executeAll_prefix (outbox : Outbox T) (rows : List GovernancePropagationDelivery) :
    outbox.dispatched <+:
      (rows.foldl (executeDeliveryClaim settings breaker allowedOrigins call)
        outbox).dispatched := by
  induction rows generalizing outbox with
  | nil => exact List.prefix_rfl
  | cons head rows ih =>
    refine List.IsPrefix.trans ?_ (ih _)
    rw [execute_dispatched]
    exact List.prefix_append _ _

/-- A batch makes a request where one of its rows is ready when it starts. -/
theorem executeAll_dispatched_iff (hbatch : Batch call outbox.channels rows) :
    (rows.foldl (executeDeliveryClaim settings breaker allowedOrigins call) outbox).dispatched =
        outbox.dispatched ↔
      ∀ row ∈ rows, kindOf settings breaker allowedOrigins outbox.circuits call.time call.now
        outbox.channels row ≠ .ready := by
  refine ⟨fun hsame => ?_, fun hidle => (executeAll_idle hbatch hidle).dispatched⟩
  induction rows generalizing outbox with
  | nil => exact fun row hrow => absurd hrow List.not_mem_nil
  | cons head rows ih =>
    let next := executeDeliveryClaim settings breaker allowedOrigins call outbox head
    have hgrows : outbox.dispatched <+: next.dispatched := executeAll_prefix outbox [head]
    have hrest : next.dispatched <+: outbox.dispatched := hsame ▸ executeAll_prefix next rows
    have hnext : next.dispatched = outbox.dispatched :=
      hrest.eq_of_length_le hgrows.length_le
    have hhead : kindOf settings breaker allowedOrigins outbox.circuits call.time call.now
        outbox.channels head ≠ .ready := by
      intro hready
      have hdispatched : next.dispatched = outbox.dispatched ++ _ := execute_dispatched
      rw [if_pos hready, hnext, List.self_eq_append_right] at hdispatched
      cases hdispatched
    have hidle := execute_idle (hbatch.held head List.mem_cons_self) hhead
    have htail := @ih next (hbatch.next hidle.handled) (hsame.trans hnext.symm)
    intro row hrow
    rcases List.mem_cons.mp hrow with rfl | hrow
    · exact hhead
    · have hkind := htail row hrow
      rw [hidle.circuits] at hkind
      rwa [Agrees.kindOf (hidle.agrees_other fun _ =>
        ⟨(hbatch.apart row hrow).1, (hbatch.apart row hrow).2.1⟩)] at hkind

end Batches

end Cygnus.Delivery
