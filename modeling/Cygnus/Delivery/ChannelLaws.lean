import Cygnus.Delivery.Sweep
import Cygnus.Governance.LedgerLaws

/-! What each transaction does to the delivery and propagation rows. -/

namespace Cygnus.Delivery

open Wiki Text Result Sequence Governance

variable {channels channels' : Channels} {delivery row : GovernancePropagationDelivery}
  {deliveries deliveries' : Table GovernancePropagationDelivery} {now : Timestamp}
  {propagation : GovernancePropagation} {publication : GovernancePublication}

section Rows

/-- The table after `row` was written, up to its `updated_at`. -/
structure Saves (deliveries : Table GovernancePropagationDelivery)
    (row : GovernancePropagationDelivery) (deliveries' : Table GovernancePropagationDelivery) :
    Prop where
  self : ∃ time, deliveries'.get row.id = some { row with updatedAt := time }
  other : ∀ i, i ≠ row.id → deliveries'.get i = deliveries.get i
  keys : deliveries'.map Row.key = deliveries.map Row.key

theorem saveDelivery_saves {old : GovernancePropagationDelivery}
    (hold : deliveries.get row.id = some old) :
    Saves deliveries row (saveDelivery row now deliveries) := by
  unfold saveDelivery
  split
  · rename_i hsame
    exact ⟨⟨row.updatedAt, hsame⟩, fun _ _ => rfl, rfl⟩
  · refine ⟨⟨now, ?_⟩, ?_, Table.keys_put _ _⟩
    · rw [Table.get_put]
      have hkey : Row.key { row with updatedAt := now } = row.id := rfl
      rw [if_pos hkey, hold]
      rfl
    · intro i hne
      rw [Table.get_put, if_neg]
      exact Ne.symm hne

theorem Saves.trans {next : GovernancePropagationDelivery}
    {deliveries'' : Table GovernancePropagationDelivery} (h : Saves deliveries row deliveries')
    (hnext : Saves deliveries' next deliveries'') (hid : next.id = row.id) :
    Saves deliveries next deliveries'' := by
  refine ⟨hnext.self, ?_, hnext.keys.trans h.keys⟩
  intro i hne
  rw [hnext.other i hne, h.other i (hid ▸ hne)]

end Rows

section Ledger

variable {ledger ledger' : Table GovernanceLedgerEvent}

/-- No delivery is acknowledged in the ledger that was not, but for those of `except`. -/
def KeepsAcks (except : Uuid → Prop) (ledger ledger' : Table GovernanceLedgerEvent) : Prop :=
  ∀ i, ¬ except i → findKey ledger (.propagationAck i) = none →
    findKey ledger' (.propagationAck i) = none

theorem KeepsAcks.refl (except : Uuid → Prop) (ledger : Table GovernanceLedgerEvent) :
    KeepsAcks except ledger ledger := fun _ _ hfree => hfree

theorem appendDraftEvent_keepsAcks {event : DraftEvent} {entry : GovernanceLedgerEvent}
    {eventId : Uuid} {except : Uuid → Prop}
    (hkey : ∀ i, ¬ except i → event.idempotencyKey ≠ .propagationAck i)
    (h : appendDraftEvent ledger eventId event = .ok (entry, ledger')) :
    KeepsAcks except ledger ledger' := by
  intro i hi hfree
  exact appendDraftEvent_findKey_none h hfree (hkey i hi)

theorem appendInPlace_keepsAcks {eventId draftId : Uuid} {actorId : Option Uuid}
    {key : IdempotencyKey} {reason : String} {payload : JsonObject} {noState : DeliveryError}
    {entry : GovernanceLedgerEvent} {except : Uuid → Prop}
    (hkey : ∀ i, ¬ except i → key ≠ .propagationAck i)
    (h : appendInPlace channels eventId draftId actorId key reason payload noState =
      .ok (entry, ledger)) : KeepsAcks except channels.ledger ledger := by
  unfold appendInPlace at h
  split at h
  · cases h
  · rw [mapError_ok] at h
    exact appendDraftEvent_keepsAcks hkey h

end Ledger

section Acknowledgment

variable {Body : Type} {wire : Wire Body} {env : Platform} {secret signature : String} {body : Body}
  {ack : AckPayload} {eventId deliveryId : Uuid} {receipt : JsonObject}

/-- The acknowledgment verifies, names the persisted values of `delivery`, and comes while no newer
publication of the object exists. -/
structure Acknowledges (wire : Wire Body) (secret : String) (channels : Channels) (body : Body)
    (signature : String) (ack : AckPayload) (publication : GovernancePublication)
    (delivery : GovernancePropagationDelivery) : Prop where
  configured : secret ≠ ""
  verified : verifyAckSignature wire body signature secret = .ok true
  parsed : parseAckBody wire body = .ok ack
  found : channels.deliveries.get delivery.id = some delivery
  unsynced : delivery.status ≠ .synced
  publication_eq : ack.publicationId = delivery.publicationId
  surface_eq : ack.surfaceId = delivery.surfaceId
  version_eq : ack.version = delivery.expectedPageVersion
  digest_eq : ack.digest = delivery.desiredDigest
  published : channels.publications.get delivery.publicationId = some publication
  latest : (latestPublication channels.publications publication.objectRef).all
    (·.id = publication.id)

theorem validateAckBinding_ok {u : Unit} (h : validateAckBinding ack delivery = .ok u) :
    ack.publicationId = delivery.publicationId ∧ ack.surfaceId = delivery.surfaceId ∧
      ack.version = delivery.expectedPageVersion ∧ ack.digest = delivery.desiredDigest := by
  simp only [validateAckBinding, bind_ok, require_ok] at h
  obtain ⟨-, hpublication, -, hsurface, -, hversion, hdigest⟩ := h
  exact ⟨hpublication, hsurface, hversion, hdigest⟩

/-- With the publication found to be the latest, no other of its object stands later. -/
theorem latestPublication_le {publications : Table GovernancePublication}
    (hkeyed : publications.Keyed) (hget : publication ∈ publications)
    (hlatest : (latestPublication publications publication.objectRef).all (·.id = publication.id)) :
    ∀ other ∈ publications, other.objectRef = publication.objectRef →
      other.place ≤ publication.place := by
  intro other hother hobject
  have hmem : other ∈ publications.filter (·.objectRef = publication.objectRef) := by
    simp [hother, hobject]
  rw [latestPublication] at hlatest
  cases hmax : (publications.filter (·.objectRef = publication.objectRef)).argmax
      GovernancePublication.place with
  | none =>
    rw [List.argmax_eq_none] at hmax
    rw [hmax] at hmem
    cases hmem
  | some latest =>
    rw [hmax] at hlatest
    have hid : latest.id = publication.id := by simpa using hlatest
    have hin := List.mem_of_mem_filter (List.argmax_mem hmax)
    obtain rfl := hkeyed.eq_of_key hin hget hid
    exact List.le_of_mem_argmax hmem hmax

/-- An acknowledgment is answered from what is stored, or moves both rows to `synced`. -/
theorem acknowledgePropagationDelivery_ok
    (h : acknowledgePropagationDelivery wire env secret channels deliveryId body signature eventId
      now = .ok (receipt, channels')) :
    (channels' = channels ∧ ∃ delivery, channels.deliveries.get deliveryId = some delivery ∧
      (delivery.status = .synced ∨ findKey channels.ledger (.propagationAck delivery.id) ≠ none)) ∨
    ∃ delivery ack publication propagation event ledger,
      delivery.id = deliveryId ∧
      Acknowledges wire secret channels body signature ack publication delivery ∧
      channels.propagations.get delivery.propagationId = some propagation ∧
      KeepsAcks (· = delivery.id) channels.ledger ledger ∧
      channels' = { channels with
        ledger := ledger,
        propagations := channels.propagations.put
          (propagation.move .synced "downstream_acknowledged" [] event none),
        deliveries := saveDelivery (delivery.acknowledge ack now) now channels.deliveries } := by
  simp only [acknowledgePropagationDelivery, bind_ok, require_ok] at h
  obtain ⟨-, hsecret, verified, hverified, -, rfl, ack, hparsed, h⟩ := h
  split at h
  · cases h
  · rename_i delivery hget
    have hid : delivery.id = deliveryId := Table.get_key hget
    simp only [bind_ok] at h
    obtain ⟨_, hbinding, h⟩ := h
    obtain ⟨hpublication, hsurface, hversion, hdigest⟩ := validateAckBinding_ok hbinding
    split at h
    · rename_i hsynced
      simp only [bind_ok, require_ok, pure_ok, Prod.mk.injEq] at h
      obtain ⟨-, -, -, rfl⟩ := h
      exact .inl ⟨rfl, delivery, hget, .inl hsynced⟩
    · rename_i hunsynced
      split at h
      · cases h
      · rename_i publication hpublished
        simp only [bind_ok, require_ok, syncDelivery] at h
        obtain ⟨-, hlatest, h⟩ := h
        split at h
        · rename_i existing hexisting
          simp only [bind_ok, require_ok, pure_ok, Prod.mk.injEq] at h
          obtain ⟨-, -, -, rfl⟩ := h
          exact .inl ⟨rfl, delivery, hget, .inr (by simp [hexisting])⟩
        · split at h
          · cases h
          · rename_i propagation hpropagation
            simp only [bind_ok, pure_ok, Prod.mk.injEq] at h
            obtain ⟨⟨event, ledger⟩, hevent, -, rfl⟩ := h
            rw [← hid] at hget
            refine .inr ⟨delivery, ack, publication, propagation, event.id, ledger, hid,
              ⟨hsecret, hverified, hparsed, hget, hunsynced, hpublication, hsurface, hversion,
                hdigest, hpublished, hlatest⟩, hpropagation, ?_, rfl⟩
            refine appendInPlace_keepsAcks ?_ hevent
            intro i hne heq
            cases heq
            exact hne rfl

end Acknowledgment

section Update

variable {env : Platform} {command : PropagationUpdateCommand} {actorId eventId : Uuid}
  {result : JsonObject}

/-- An update is answered from what is stored, or moves a propagation at its current version. -/
theorem updatePropagation_ok
    (h : updatePropagation env channels command actorId eventId now = .ok (result, channels')) :
    channels' = channels ∨ ∃ propagation event ledger,
      command.status ≠ .synced ∧ findKey channels.ledger (.propagation command.commandId) = none ∧
      findPropagation channels.propagations command.publicationId command.surfaceId =
        some propagation ∧
      propagation.version = command.expectedVersion ∧
      KeepsAcks (fun _ => False) channels.ledger ledger ∧
      channels' = { channels with
        ledger := ledger,
        propagations := channels.propagations.put (propagation.move command.status command.reason
          command.followUpCommands event (some actorId)),
        deliveries := mirrorDelivery command propagation.id now channels.deliveries } := by
  unfold updatePropagation at h
  split at h
  · cases h
  · simp only [bind_ok, require_ok] at h
    obtain ⟨-, hstatus, h⟩ := h
    split at h
    · simp only [bind_ok, pure_ok, Prod.mk.injEq] at h
      obtain ⟨-, -, -, rfl⟩ := h
      exact .inl rfl
    · rename_i hnew
      split at h
      · cases h
      · rename_i propagation hfound
        simp only [bind_ok, require_ok, pure_ok, Prod.mk.injEq] at h
        obtain ⟨-, hversion, ⟨event, ledger⟩, hevent, -, rfl⟩ := h
        refine .inr ⟨propagation, event.id, ledger, hstatus, hnew, hfound, hversion, ?_, rfl⟩
        refine appendInPlace_keepsAcks ?_ hevent
        intro i _ heq
        cases heq

end Update

section Outcomes

variable {attempt : Attempt} {status : TerminalStatus} {reason : String} {eventId deliveryId : Uuid}

theorem recordUnlessSynced_cases (channels : Channels) (deliveryId : Uuid) (now : Timestamp)
    (write : GovernancePropagationDelivery → GovernancePropagationDelivery)
    (hwrite : ∀ delivery, (write delivery).id = delivery.id) :
    (recordUnlessSynced channels deliveryId now write = channels ∧
      ∀ delivery, channels.deliveries.get deliveryId = some delivery → delivery.status = .synced) ∨
    ∃ delivery deliveries',
      channels.deliveries.get deliveryId = some delivery ∧ delivery.status ≠ .synced ∧
      Saves channels.deliveries (write delivery) deliveries' ∧
      recordUnlessSynced channels deliveryId now write =
        { channels with deliveries := deliveries' } := by
  unfold recordUnlessSynced
  split
  · rename_i hnone
    refine .inl ⟨rfl, ?_⟩
    intro delivery hget
    rw [hnone] at hget
    cases hget
  · rename_i delivery hget
    split
    · rename_i hsynced
      refine .inl ⟨rfl, ?_⟩
      intro found hfound
      obtain rfl := Option.some.inj (hget.symm.trans hfound)
      exact hsynced
    · rename_i hunsynced
      have hid : delivery.id = deliveryId := Table.get_key hget
      have hold : channels.deliveries.get (write delivery).id = some delivery := by
        rw [hwrite, hid]
        exact hget
      exact .inr ⟨delivery, _, hget, hunsynced, saveDelivery_saves hold, rfl⟩

theorem transitionPropagation_ok {followUpCommands : List String}
    (h : transitionPropagation channels delivery attempt reason followUpCommands eventId =
      .ok channels') :
    ∃ propagation propagations' ledger',
      channels.propagations.get delivery.propagationId = some propagation ∧
      (propagations' = channels.propagations ∧ propagation.status = .failed ∨
        ∃ event, propagations' = channels.propagations.put
          (propagation.move .failed reason followUpCommands event none)) ∧
      KeepsAcks (fun _ => False) channels.ledger ledger' ∧
      channels' = { channels with propagations := propagations', ledger := ledger' } := by
  unfold transitionPropagation at h
  split at h
  · cases h
  · rename_i propagation hpropagation
    split at h
    · rename_i hdone
      obtain rfl := pure_ok.mp h
      exact ⟨propagation, channels.propagations, channels.ledger, hpropagation,
        .inl ⟨rfl, hdone.1⟩, .refl _ _, rfl⟩
    · split at h
      · cases h
      · simp only [bind_ok, pure_ok] at h
        obtain ⟨⟨event, ledger⟩, hevent, rfl⟩ := h
        refine ⟨propagation, _, ledger, hpropagation, .inr ⟨event.id, rfl⟩, ?_, rfl⟩
        refine appendInPlace_keepsAcks ?_ hevent
        intro i _ heq
        cases heq

/-- A terminal outcome is dropped, or ends the delivery and fails its propagation. -/
theorem recordTerminal_ok
    (h : recordTerminal channels deliveryId attempt status reason eventId now = .ok channels') :
    (channels' = channels ∧
      ∀ delivery, channels.deliveries.get deliveryId = some delivery → delivery.status = .synced) ∨
    ∃ delivery propagation propagations' deliveries' ledger',
      channels.deliveries.get deliveryId = some delivery ∧ delivery.status ≠ .synced ∧
      Saves channels.deliveries (delivery.count attempt status.status status.status.value)
        deliveries' ∧
      channels.propagations.get delivery.propagationId = some propagation ∧
      (propagations' = channels.propagations ∧ propagation.status = .failed ∨
        ∃ followUpCommands event, propagations' = channels.propagations.put
          (propagation.move .failed reason followUpCommands event none)) ∧
      KeepsAcks (fun _ => False) channels.ledger ledger' ∧
      channels' = { channels with
        propagations := propagations', deliveries := deliveries', ledger := ledger' } := by
  unfold recordTerminal at h
  split at h
  · rename_i hnone
    obtain rfl := pure_ok.mp h
    refine .inl ⟨rfl, ?_⟩
    intro delivery hget
    rw [hnone] at hget
    cases hget
  · rename_i delivery hget
    split at h
    · rename_i hsynced
      obtain rfl := pure_ok.mp h
      refine .inl ⟨rfl, ?_⟩
      intro found hfound
      obtain rfl := Option.some.inj (hget.symm.trans hfound)
      exact hsynced
    · rename_i hunsynced
      simp only [bind_ok, pure_ok] at h
      obtain ⟨moved, hmoved, rfl⟩ := h
      obtain ⟨propagation, propagations', ledger', hpropagation, hcases, hacks, rfl⟩ :=
        transitionPropagation_ok hmoved
      have hid : delivery.id = deliveryId := Table.get_key hget
      have hold : channels.deliveries.get
          (delivery.count attempt status.status status.status.value).id = some delivery := by
        rw [← hid] at hget
        exact hget
      refine .inr ⟨delivery, propagation, propagations', _, ledger', hget, hunsynced,
        saveDelivery_saves hold, hpropagation, ?_, hacks, rfl⟩
      rcases hcases with hsame | ⟨event, hput⟩
      · exact .inl hsame
      · exact .inr ⟨_, event, hput⟩

end Outcomes

end Cygnus.Delivery
