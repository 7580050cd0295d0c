import Cygnus.Delivery.SweepLaws

/-! A delivery and the propagation it carries out: every step leaves them paired, and what it may do
to the pair. -/

namespace Cygnus.Delivery

open Wiki Text Result Sequence Governance Machine

variable {Body : Type} {wire : Wire Body} {secret : String} {maxAttempts : Nat}
  {channels channels' : Channels} {step : Step Body}
  {delivery delivery' row : GovernancePropagationDelivery}
  {propagation propagation' : GovernancePropagation}
  {deliveries deliveries' : Table GovernancePropagationDelivery}

/-- What a propagation is staged for. -/
def GovernancePropagation.label (propagation : GovernancePropagation) :
    Uuid × Uuid × String × String :=
  (propagation.id, propagation.publicationId, propagation.surfaceId, propagation.desiredDigest)

/-- How far a delivery has come. -/
structure Progress where
  status : DeliveryStatus
  attempts : Nat
  acknowledgedDigest : Option String
  acknowledgedVersion : Option Int

def GovernancePropagationDelivery.progress (delivery : GovernancePropagationDelivery) : Progress :=
  ⟨delivery.status, delivery.attempts, delivery.acknowledgedDigest, delivery.acknowledgedVersion⟩

def Progress.staged : Progress := ⟨.pending, 0, none, none⟩

section Claims

variable {limit : Nat} {locked : List Uuid} {now : Timestamp}

theorem mem_claimPendingDeliveries (hkeyed : deliveries.Keyed)
    (h : row ∈ claimPendingDeliveries deliveries limit locked now) :
    ∃ delivery, deliveries.get row.id = some delivery ∧ delivery.isDue now ∧
      row = { delivery with status := .inFlight } := by
  obtain ⟨delivery, hdue, rfl⟩ := List.mem_map.mp h
  have hmem := List.mem_of_mem_take hdue
  rw [mem_sortedBy, List.mem_filter, Bool.and_eq_true] at hmem
  exact ⟨delivery, hkeyed.get_of_mem hmem.1, hmem.2.1, rfl⟩

theorem claimPendingDeliveries_nodup (hkeyed : deliveries.Keyed) :
    ((claimPendingDeliveries deliveries limit locked now).map Row.key).Nodup := by
  have hdue : ((dueDeliveries deliveries limit locked now).map Row.key).Nodup := by
    refine List.Nodup.sublist ((List.take_sublist _ _).map _) ?_
    rw [((perm_sortedBy _ _).map Row.key).nodup_iff]
    exact hkeyed.nodup_keys_filter _
  rw [claimPendingDeliveries, List.map_map]
  exact hdue

/-- The table after rows of it were written one after the other. -/
structure SavesAll (deliveries : Table GovernancePropagationDelivery)
    (rows : List GovernancePropagationDelivery)
    (deliveries' : Table GovernancePropagationDelivery) : Prop where
  self : ∀ row ∈ rows, ∃ time, deliveries'.get row.id = some { row with updatedAt := time }
  other : ∀ i, (∀ row ∈ rows, i ≠ row.id) → deliveries'.get i = deliveries.get i
  keys : deliveries'.map Row.key = deliveries.map Row.key

theorem saveDeliveries_savesAll {rows : List GovernancePropagationDelivery}
    (hfound : ∀ row ∈ rows, ∃ old, deliveries.get row.id = some old)
    (hnodup : (rows.map Row.key).Nodup) :
    SavesAll deliveries rows
      (rows.foldl (fun deliveries row => saveDelivery row now deliveries) deliveries) := by
  induction rows generalizing deliveries with
  | nil =>
    refine ⟨?_, fun _ _ => rfl, rfl⟩
    intro row hrow
    cases hrow
  | cons head rows ih =>
    rw [List.map_cons, List.nodup_cons] at hnodup
    have hne : ∀ row ∈ rows, row.id ≠ head.id := by
      intro row hrow heq
      exact hnodup.1 (List.mem_map.mpr ⟨row, hrow, heq⟩)
    obtain ⟨old, hold⟩ := hfound head List.mem_cons_self
    have hsaves : Saves deliveries head (saveDelivery head now deliveries) := saveDelivery_saves hold
    have hkept : ∀ row ∈ rows, ∃ old, (saveDelivery head now deliveries).get row.id = some old := by
      intro row hrow
      obtain ⟨old, hold⟩ := hfound row (List.mem_cons_of_mem _ hrow)
      exact ⟨old, (hsaves.other _ (hne row hrow)).trans hold⟩
    have hrest := ih hkept hnodup.2
    rw [List.foldl_cons]
    refine ⟨?_, ?_, hrest.keys.trans hsaves.keys⟩
    · intro row hrow
      rcases List.mem_cons.mp hrow with rfl | hrow
      · obtain ⟨time, hself⟩ := hsaves.self
        refine ⟨time, ?_⟩
        rw [hrest.other row.id fun other hother heq => hne other hother heq.symm, hself]
      · exact hrest.self row hrow
    · intro i hi
      have htail : ∀ row ∈ rows, i ≠ row.id := fun row hrow => hi row (List.mem_cons_of_mem _ hrow)
      rw [hrest.other i htail, hsaves.other i (hi head List.mem_cons_self)]

/-- What the claim of a sweep does to the table. -/
theorem claim_savesAll (hkeyed : deliveries.Keyed) :
    SavesAll deliveries (claimPendingDeliveries deliveries limit locked now)
      ((claimPendingDeliveries deliveries limit locked now).foldl
        (fun deliveries row => saveDelivery row now deliveries) deliveries) := by
  apply saveDeliveries_savesAll _ (claimPendingDeliveries_nodup hkeyed)
  intro row hrow
  obtain ⟨old, hold, -, -⟩ := mem_claimPendingDeliveries hkeyed hrow
  exact ⟨old, hold⟩

end Claims

section Pairs

/-- Each delivery carries out one propagation, each propagation has its delivery, and the ledger
acknowledges no delivery that is not `synced`. -/
structure Sound (channels : Channels) : Prop where
  publications : channels.publications.Keyed
  propagations : channels.propagations.Keyed
  deliveries : channels.deliveries.Keyed
  paired : ∀ {i j : Uuid} {delivery other : GovernancePropagationDelivery},
    channels.deliveries.get i = some delivery → channels.deliveries.get j = some other →
    delivery.propagationId = other.propagationId → i = j
  bound : ∀ {i : Uuid} {delivery : GovernancePropagationDelivery},
    channels.deliveries.get i = some delivery → ∃ propagation,
      channels.propagations.get delivery.propagationId = some propagation ∧
      propagation.label = (delivery.propagationId, delivery.publicationId, delivery.surfaceId,
        delivery.desiredDigest)
  carried : ∀ {j : Uuid} {propagation : GovernancePropagation},
    channels.propagations.get j = some propagation → ∃ i delivery,
      channels.deliveries.get i = some delivery ∧ delivery.propagationId = j
  acknowledged : ∀ i, findKey channels.ledger (.propagationAck i) ≠ none → ∃ delivery,
    channels.deliveries.get i = some delivery ∧ delivery.status = .synced

/-- A delivery with its propagation, as they stand in the tables. -/
structure Pair (channels : Channels) (delivery : GovernancePropagationDelivery)
    (propagation : GovernancePropagation) : Prop where
  found : channels.deliveries.get delivery.id = some delivery
  carried : channels.propagations.get delivery.propagationId = some propagation

/-- What a step may do to a delivery and its propagation. -/
inductive Moves (wire : Wire Body) (secret : String) (maxAttempts : Nat) (channels : Channels)
    (step : Step Body) (delivery : GovernancePropagationDelivery)
    (propagation : GovernancePropagation) (delivery' : GovernancePropagationDelivery)
    (propagation' : GovernancePropagation) : Prop
  | same (hprogress : delivery'.progress = delivery.progress)
      (hstatus : propagation'.status = propagation.status)
  | update {command : PropagationUpdateCommand} {actorId eventId : Uuid} {now : Timestamp}
      (hstep : step = .update command actorId eventId now)
      (hsynced : command.status ≠ .synced)
      (hnew : findKey channels.ledger (.propagation command.commandId) = none)
      (hfound : findPropagation channels.propagations command.publicationId command.surfaceId =
        some propagation)
      (hversion : propagation.version = command.expectedVersion)
      (hprogress : delivery'.progress = (command.mirror delivery).progress)
      (hstatus : propagation'.status = command.status)
  | sync {body : Body} {signature : String} {ack : AckPayload} {publication : GovernancePublication}
      {attempts : Nat}
      (hstep : step.carries = some (delivery.id, body, signature))
      (hack : Acknowledges wire secret channels body signature ack publication delivery)
      (hattempts : attempts = delivery.attempts ∨
        ∃ claimed, step.successOf = some claimed ∧ attempts = claimed.attempts + 1)
      (hprogress : delivery'.progress = ⟨.synced, attempts, some ack.digest, some ack.version⟩)
      (hstatus : propagation'.status = .synced)
  | recount {claimed : GovernancePropagationDelivery} {statusCode : Nat} {body : Body}
      {signature : String} {occurredAt now : Timestamp} {eventId : Uuid}
      (hstep : step = .record claimed (.synced statusCode body signature) occurredAt eventId now)
      (hid : claimed.id = delivery.id) (hsynced : delivery.status = .synced)
      (hprogress : delivery'.progress =
        { delivery.progress with attempts := claimed.attempts + 1 })
      (hstatus : propagation'.status = propagation.status)
  | claim {limit : Nat} {locked : List Uuid} {now : Timestamp}
      (hstep : step = .claim limit locked now) (hdue : delivery.isDue now)
      (hprogress : delivery'.progress = { delivery.progress with status := .inFlight })
      (hstatus : propagation'.status = propagation.status)
  | revert {claimed : GovernancePropagationDelivery} {posted : Bool} {lastError : String}
      {now : Timestamp} (hstep : step = .revert claimed posted lastError now)
      (hid : claimed.id = delivery.id) (hunsynced : delivery.status ≠ .synced)
      (hprogress : delivery'.progress = { delivery.progress with status := .pending })
      (hstatus : propagation'.status = propagation.status)
  | retry {claimed : GovernancePropagationDelivery} {statusCode : Option Nat} {error : String}
      {occurredAt now : Timestamp} {eventId : Uuid}
      (hstep : step = .record claimed (.unsynced true statusCode error) occurredAt eventId now)
      (hid : claimed.id = delivery.id) (hunsynced : delivery.status ≠ .synced)
      (hmore : claimed.attempts + 1 < maxAttempts)
      (hprogress : delivery'.progress =
        { delivery.progress with status := .pending, attempts := claimed.attempts + 1 })
      (hstatus : propagation'.status = propagation.status)
  | terminal {claimed : GovernancePropagationDelivery} {status : TerminalStatus}
      (hstep : step.failureOf = some claimed) (hid : claimed.id = delivery.id)
      (hunsynced : delivery.status ≠ .synced)
      (hprogress : delivery'.progress =
        { delivery.progress with status := status.status, attempts := claimed.attempts + 1 })
      (hstatus : propagation'.status = .failed)

/-- The pair as the step leaves it. -/
def Continues (wire : Wire Body) (secret : String) (maxAttempts : Nat) (channels : Channels)
    (step : Step Body) (channels' : Channels) (delivery : GovernancePropagationDelivery)
    (propagation : GovernancePropagation) : Prop :=
  ∃ delivery' propagation', Pair channels' delivery' propagation' ∧
    delivery'.envelope = delivery.envelope ∧ propagation'.label = propagation.label ∧
    Moves wire secret maxAttempts channels step delivery propagation delivery' propagation'

theorem GovernancePropagationDelivery.envelope_id
    (h : delivery'.envelope = delivery.envelope) : delivery'.id = delivery.id :=
  congrArg Envelope.id h

theorem GovernancePropagationDelivery.envelope_propagationId
    (h : delivery'.envelope = delivery.envelope) :
    delivery'.propagationId = delivery.propagationId :=
  congrArg Envelope.propagationId h

theorem Continues.same (hpair : Pair channels' delivery propagation) :
    Continues wire secret maxAttempts channels step channels' delivery propagation :=
  ⟨delivery, propagation, hpair, rfl, rfl, .same rfl rfl⟩

/-- A step that writes one delivery row, and no propagation but its own. -/
theorem Continues.of_saves {written : GovernancePropagationDelivery}
    {moved moved' : GovernancePropagation} (hsound : Sound channels)
    (hpair : Pair channels delivery propagation) (hwritten : Pair channels written moved)
    (hsaves : Saves channels.deliveries row channels'.deliveries)
    (henvelope : row.envelope = written.envelope)
    (hself : channels'.propagations.get written.propagationId = some moved')
    (hlabel : moved'.label = moved.label)
    (hother : ∀ j, j ≠ written.propagationId →
      channels'.propagations.get j = channels.propagations.get j)
    (hmoves : ∀ time, Moves wire secret maxAttempts channels step written moved
      { row with updatedAt := time } moved') :
    Continues wire secret maxAttempts channels step channels' delivery propagation := by
  have hid : row.id = written.id := GovernancePropagationDelivery.envelope_id henvelope
  have hpropagation : row.propagationId = written.propagationId :=
    GovernancePropagationDelivery.envelope_propagationId henvelope
  by_cases hsame : delivery.id = written.id
  · obtain rfl : delivery = written := by
      have hfound := hpair.found
      rw [hsame, hwritten.found] at hfound
      exact (Option.some.inj hfound).symm
    obtain rfl : propagation = moved :=
      Option.some.inj (hpair.carried.symm.trans hwritten.carried)
    obtain ⟨time, hrow⟩ := hsaves.self
    exact ⟨{ row with updatedAt := time }, moved', ⟨hrow, by rw [← hself, ← hpropagation]⟩,
      henvelope, hlabel, hmoves time⟩
  · apply Continues.same
    constructor
    · rw [hsaves.other _ (hid ▸ hsame)]
      exact hpair.found
    · rw [hother]
      · exact hpair.carried
      · intro heq
        exact hsame (hsound.paired hpair.found hwritten.found heq)

theorem GovernancePropagation.move_label (propagation : GovernancePropagation)
    (status : PropagationStatus) (reason : String) (followUpCommands : List String) (eventId : Uuid)
    (updatedById : Option Uuid) :
    (propagation.move status reason followUpCommands eventId updatedById).label =
      propagation.label := rfl

/-- The rows of `governance_propagations` after one of them is moved. -/
theorem get_put_moved {propagations : Table GovernancePropagation} {i : Uuid}
    {moved : GovernancePropagation} (hget : propagations.get i = some propagation)
    (hlabel : moved.label = propagation.label) :
    (propagations.put moved).get i = some moved ∧
      ∀ j, j ≠ i → (propagations.put moved).get j = propagations.get j := by
  have hkey : Row.key moved = i := (congrArg Prod.fst hlabel).trans (Table.get_key hget)
  constructor
  · rw [Table.get_put, if_pos hkey, hget, Option.map_some]
  · intro j hne
    rw [Table.get_put, if_neg (hkey ▸ Ne.symm hne)]

/-- The delivery that carries out a propagation. -/
theorem Sound.deliveryOf (hsound : Sound channels) {j : Uuid}
    (hget : channels.propagations.get j = some propagation) :
    ∃ delivery, deliveryOf channels.deliveries j = some delivery ∧
      Pair channels delivery propagation ∧ delivery.propagationId = j := by
  obtain ⟨i, carrier, hcarrier, hcarries⟩ := hsound.carried hget
  cases hfind : Delivery.deliveryOf channels.deliveries j with
  | none =>
    have hnone := List.find?_eq_none.mp hfind carrier (Table.get_mem hcarrier)
    exact absurd (by simpa using hcarries) hnone
  | some delivery =>
    have hcarries : delivery.propagationId = j := by simpa using List.find?_some hfind
    have hfound := hsound.deliveries.get_of_mem (List.mem_of_find?_eq_some hfind)
    exact ⟨delivery, rfl, ⟨hfound, hcarries ▸ hget⟩, hcarries⟩

theorem PropagationUpdateCommand.mirror_envelope (command : PropagationUpdateCommand)
    (delivery : GovernancePropagationDelivery) :
    (command.mirror delivery).envelope = delivery.envelope := by
  unfold mirror
  split
  · rfl
  · split <;> rfl

section Steps

variable (hsound : Sound channels) (hpair : Pair channels delivery propagation)

include hsound hpair

theorem Continues.of_update {command : PropagationUpdateCommand} {actorId eventId event : Uuid}
    {now : Timestamp} {moved : GovernancePropagation} {ledger : Table GovernanceLedgerEvent}
    (hstatus : command.status ≠ .synced)
    (hnew : findKey channels.ledger (.propagation command.commandId) = none)
    (hfound : findPropagation channels.propagations command.publicationId command.surfaceId =
      some moved)
    (hversion : moved.version = command.expectedVersion) :
    Continues wire secret maxAttempts channels (.update command actorId eventId now)
      { channels with
        ledger := ledger,
        propagations := channels.propagations.put (moved.move command.status command.reason
          command.followUpCommands event (some actorId)),
        deliveries := mirrorDelivery command moved.id now channels.deliveries }
      delivery propagation := by
  have hget : channels.propagations.get moved.id = some moved :=
    hsound.propagations.get_of_mem (List.mem_of_find?_eq_some hfound)
  obtain ⟨carrier, hcarrier, hwritten, hcarries⟩ := hsound.deliveryOf hget
  have hmirror : mirrorDelivery command moved.id now channels.deliveries =
      saveDelivery (command.mirror carrier) now channels.deliveries := by
    rw [mirrorDelivery, hcarrier]
  have henvelope := command.mirror_envelope carrier
  have hid := GovernancePropagationDelivery.envelope_id henvelope
  obtain ⟨hself, hother⟩ := get_put_moved hwritten.carried
    (moved.move_label command.status command.reason command.followUpCommands event (some actorId))
  refine Continues.of_saves hsound hpair hwritten ?_ henvelope hself rfl hother ?_
  · rw [hmirror]
    exact saveDelivery_saves (hid ▸ hwritten.found)
  · intro time
    exact .update rfl hstatus hnew hfound hversion rfl rfl

theorem Continues.of_claim {limit : Nat} {locked : List Uuid} {now : Timestamp} :
    Continues wire secret maxAttempts channels (.claim limit locked now) { channels with
      deliveries := (claimPendingDeliveries channels.deliveries limit locked now).foldl
        (fun deliveries delivery => saveDelivery delivery now deliveries) channels.deliveries }
      delivery propagation := by
  have hsaves : SavesAll channels.deliveries
      (claimPendingDeliveries channels.deliveries limit locked now)
      ((claimPendingDeliveries channels.deliveries limit locked now).foldl
        (fun deliveries row => saveDelivery row now deliveries) channels.deliveries) :=
    claim_savesAll hsound.deliveries
  by_cases hclaimed : ∃ row ∈ claimPendingDeliveries channels.deliveries limit locked now,
      delivery.id = row.id
  · obtain ⟨row, hrow, hid⟩ := hclaimed
    obtain ⟨found, hfound, hdue, rfl⟩ := mem_claimPendingDeliveries hsound.deliveries hrow
    obtain rfl : delivery = found := by
      have hsame := hpair.found
      rw [hid, hfound] at hsame
      exact (Option.some.inj hsame).symm
    obtain ⟨time, hself⟩ := hsaves.self _ hrow
    exact ⟨{ delivery with status := .inFlight, updatedAt := time }, propagation,
      ⟨hself, hpair.carried⟩, rfl, rfl, .claim rfl hdue rfl rfl⟩
  · apply Continues.same
    refine ⟨?_, hpair.carried⟩
    rw [hsaves.other]
    · exact hpair.found
    · intro row hrow heq
      exact hclaimed ⟨row, hrow, heq⟩

end Steps

end Pairs

section Staging

/-- The rows there were are as they were, and every new delivery is staged with its propagation. -/
structure Extends (channels channels' : Channels) : Prop where
  deliveries : ∀ {i : Uuid} {delivery : GovernancePropagationDelivery},
    channels.deliveries.get i = some delivery → channels'.deliveries.get i = some delivery
  propagations : ∀ {i : Uuid} {propagation : GovernancePropagation},
    channels.propagations.get i = some propagation →
      channels'.propagations.get i = some propagation
  staged : ∀ {i : Uuid} {delivery' : GovernancePropagationDelivery},
    channels.deliveries.get i = none → channels'.deliveries.get i = some delivery' →
      delivery'.progress = .staged ∧ ∃ propagation',
        channels.propagations.get delivery'.propagationId = none ∧
        channels'.propagations.get delivery'.propagationId = some propagation' ∧
        propagation'.status = .pending

theorem Extends.refl (channels : Channels) : Extends channels channels := by
  refine ⟨id, id, ?_⟩
  intro i delivery' hnone hsome
  rw [hnone] at hsome
  cases hsome

variable {command : QualifiedPublish} {channel : TargetChannel} {publishEventId : Uuid}
  {middle : Channels}

theorem Extends.stageChannel (h : Extends channels middle)
    (hstage : stageChannel command publishEventId middle channel = .ok channels') :
    Extends channels channels' := by
  obtain ⟨hpropagation, hdelivery, hunpaired, rfl⟩ := stageChannel_ok hstage
  refine ⟨fun hget => Table.get_append_of_some (h.deliveries hget),
    fun hget => Table.get_append_of_some (h.propagations hget), ?_⟩
  intro i delivery' hnone hsome
  rcases Table.get_append_cases hsome with hold | ⟨-, rfl⟩
  · obtain ⟨hprogress, propagation', hfree, hget, hstatus⟩ := h.staged hnone hold
    exact ⟨hprogress, propagation', hfree, Table.get_append_of_some hget, hstatus⟩
  · have hbefore : channels.propagations.get channel.propagationId = none := by
      cases hget : channels.propagations.get channel.propagationId with
      | none => rfl
      | some propagation => exact absurd (h.propagations hget) (by rw [hpropagation]; simp)
    exact ⟨rfl, command.propagation publishEventId channel, hbefore,
      Table.get_append_self hpropagation, rfl⟩

theorem applyDurablePublish_extends (h : applyDurablePublish channels command = .ok channels') :
    Extends channels channels' := by
  apply applyDurablePublish_induction h (.refl channels)
  · intro ledger _ _
    exact ⟨(Extends.refl channels).deliveries, (Extends.refl channels).propagations,
      (Extends.refl channels).staged⟩
  · intro publishEventId middle channel next hmiddle hstage
    exact hmiddle.stageChannel hstage

theorem Sound.stageChannel (h : Sound channels)
    (hstage : stageChannel command publishEventId channels channel = .ok channels') :
    Sound channels' := by
  obtain ⟨hpropagation, hdelivery, hunpaired, rfl⟩ := stageChannel_ok hstage
  refine ⟨h.publications, h.propagations.append hpropagation, h.deliveries.append hdelivery,
    ?_, ?_, ?_, ?_⟩
  · intro i j delivery other hget hother heq
    rcases Table.get_append_cases hget with hget | ⟨rfl, rfl⟩
    · rcases Table.get_append_cases hother with hother | ⟨rfl, rfl⟩
      · exact h.paired hget hother heq
      · exact absurd heq (hunpaired delivery (Table.get_mem hget))
    · rcases Table.get_append_cases hother with hother | ⟨rfl, rfl⟩
      · exact absurd heq.symm (hunpaired other (Table.get_mem hother))
      · rfl
  · intro i delivery hget
    rcases Table.get_append_cases hget with hget | ⟨rfl, rfl⟩
    · obtain ⟨propagation, hbound, hlabel⟩ := h.bound hget
      exact ⟨propagation, Table.get_append_of_some hbound, hlabel⟩
    · exact ⟨command.propagation publishEventId channel, Table.get_append_self hpropagation, rfl⟩
  · intro j propagation hget
    rcases Table.get_append_cases hget with hget | ⟨rfl, rfl⟩
    · obtain ⟨i, delivery, hcarrier, hcarries⟩ := h.carried hget
      exact ⟨i, delivery, Table.get_append_of_some hcarrier, hcarries⟩
    · exact ⟨channel.deliveryId, command.delivery channel, Table.get_append_self hdelivery, rfl⟩
  · intro i hkey
    obtain ⟨delivery, hget, hsynced⟩ := h.acknowledged i hkey
    exact ⟨delivery, Table.get_append_of_some hget, hsynced⟩

theorem applyDurablePublish_sound (hsound : Sound channels)
    (h : applyDurablePublish channels command = .ok channels') : Sound channels' := by
  apply applyDurablePublish_induction h hsound
  · intro ledger hfree hacks
    refine ⟨hsound.publications.append hfree, hsound.propagations, hsound.deliveries,
      hsound.paired, hsound.bound, hsound.carried, ?_⟩
    intro i hkey
    apply hsound.acknowledged i
    intro hnone
    exact hkey (hacks i id hnone)
  · intro publishEventId middle channel next hmiddle hstage
    exact hmiddle.stageChannel hstage

end Staging

section Changes

/-- A delivery and its propagation stay paired, and move as one. -/
theorem Changes.continues (hsound : Sound channels)
    (h : Changes wire secret maxAttempts channels step channels')
    (hpair : Pair channels delivery propagation) :
    Continues wire secret maxAttempts channels step channels' delivery propagation := by
  have hbound : ∀ {i : Uuid} {found : GovernancePropagationDelivery},
      channels.deliveries.get i = some found → ∃ moved, Pair channels found moved := by
    intro i found hfound
    obtain ⟨moved, hmoved, -⟩ := hsound.bound hfound
    have hid : found.id = i := Table.get_key hfound
    exact ⟨moved, hid ▸ hfound, hmoved⟩
  have hnothing : ∀ {found : GovernancePropagationDelivery} (j : Uuid), j ≠ found.propagationId →
      channels.propagations.get j = channels.propagations.get j := fun _ _ => rfl
  cases h with
  | same => exact .same hpair
  | govern hacks => exact .same ⟨hpair.found, hpair.carried⟩
  | stage hpublish =>
    have hextends := applyDurablePublish_extends hpublish
    exact .same ⟨hextends.deliveries hpair.found, hextends.propagations hpair.carried⟩
  | update hstatus hnew hfound hversion hacks =>
    exact .of_update hsound hpair hstatus hnew hfound hversion
  | @sync step body signature ack publication written row moved deliveries' event ledger hstep hack
      hmoved hsaves henvelope hsynced hdigest hversion hattempts hacks =>
    obtain ⟨hself, hother⟩ := get_put_moved hmoved
      (moved.move_label .synced "downstream_acknowledged" [] event none)
    refine .of_saves hsound hpair ⟨hack.found, hmoved⟩ hsaves henvelope hself rfl hother ?_
    intro time
    refine .sync hstep hack hattempts ?_ rfl
    rw [← hsynced, ← hdigest, ← hversion]
    rfl
  | @recount claimed found row statusCode body signature occurredAt now eventId deliveries' hfound
      hacknowledged hsaves henvelope hstatus hdigest hversion hattempts =>
    obtain ⟨moved, hwritten⟩ := hbound hfound
    have hid : found.id = claimed.id := Table.get_key hfound
    have hsynced : found.status = .synced := by
      rcases hacknowledged with hsynced | hkey
      · exact hsynced
      · obtain ⟨other, hother, hsynced⟩ := hsound.acknowledged found.id hkey
        rw [hwritten.found] at hother
        exact (Option.some.inj hother) ▸ hsynced
    refine .of_saves hsound hpair hwritten hsaves henvelope hwritten.carried rfl hnothing ?_
    intro time
    refine .recount rfl hid.symm hsynced ?_ rfl
    rw [← hattempts]
    simp only [GovernancePropagationDelivery.progress, hstatus, hdigest, hversion]
  | claim => exact .of_claim hsound hpair
  | @revert claimed found row posted lastError now deliveries' hfound hunsynced hrow hsaves =>
    obtain ⟨moved, hwritten⟩ := hbound hfound
    have hid : found.id = claimed.id := Table.get_key hfound
    subst hrow
    refine .of_saves hsound hpair hwritten hsaves rfl hwritten.carried rfl hnothing ?_
    intro time
    exact .revert rfl hid.symm hunsynced rfl rfl
  | @retry claimed found row attempt statusCode error occurredAt now eventId deliveries' hfound
      hunsynced hnumber hmore hrow hsaves =>
    obtain ⟨moved, hwritten⟩ := hbound hfound
    have hid : found.id = claimed.id := Table.get_key hfound
    subst hrow
    refine .of_saves hsound hpair hwritten hsaves rfl hwritten.carried rfl hnothing ?_
    intro time
    refine .retry rfl hid.symm hunsynced (hnumber ▸ hmore) ?_ rfl
    rw [← hnumber]
    rfl
  | @terminal step claimed found row attempt status reason moved propagations' deliveries' ledger
      hstep hfound hunsynced hnumber hrow hsaves hmoved hfails hacks =>
    have hid : found.id = claimed.id := Table.get_key hfound
    have hwritten : Pair channels found moved := ⟨hid ▸ hfound, hmoved⟩
    subst hrow
    have hprogress : ∀ time, ({ found.count attempt status.status status.status.value with
        updatedAt := time } : GovernancePropagationDelivery).progress =
          { found.progress with status := status.status, attempts := claimed.attempts + 1 } := by
      intro time
      rw [← hnumber]
      rfl
    rcases hfails with ⟨rfl, hfailed⟩ | ⟨followUpCommands, event, rfl⟩
    · refine .of_saves hsound hpair hwritten hsaves rfl hmoved rfl hnothing ?_
      intro time
      exact .terminal hstep hid.symm hunsynced (hprogress time) hfailed
    · obtain ⟨hself, hother⟩ := get_put_moved hmoved
        (moved.move_label .failed reason followUpCommands event none)
      refine .of_saves hsound hpair hwritten hsaves rfl hself rfl hother ?_
      intro time
      exact .terminal hstep hid.symm hunsynced (hprogress time) rfl

/-- An acknowledged delivery keeps its status and what it was acknowledged with. -/
theorem Moves.of_synced (hsynced : delivery.status = .synced)
    (h : Moves wire secret maxAttempts channels step delivery propagation delivery' propagation') :
    delivery'.status = .synced ∧ delivery'.acknowledgedDigest = delivery.acknowledgedDigest ∧
      delivery'.acknowledgedVersion = delivery.acknowledgedVersion := by
  have hcolumns : ∀ {after : Progress}, delivery'.progress = after →
      delivery'.status = after.status ∧ delivery'.acknowledgedDigest = after.acknowledgedDigest ∧
        delivery'.acknowledgedVersion = after.acknowledgedVersion := by
    intro after hafter
    subst hafter
    exact ⟨rfl, rfl, rfl⟩
  cases h with
  | same hprogress hstatus =>
    obtain ⟨hstatus, hdigest, hversion⟩ := hcolumns hprogress
    exact ⟨hstatus.trans hsynced, hdigest, hversion⟩
  | @update command _ _ _ _ _ _ _ _ hprogress _ =>
    have hmirror : command.mirror delivery = delivery := if_pos hsynced
    rw [hmirror] at hprogress
    obtain ⟨hstatus, hdigest, hversion⟩ := hcolumns hprogress
    exact ⟨hstatus.trans hsynced, hdigest, hversion⟩
  | sync hstep hack hattempts hprogress hstatus => exact absurd hsynced hack.unsynced
  | recount hstep hid hacknowledged hprogress hstatus =>
    obtain ⟨hstatus, hdigest, hversion⟩ := hcolumns hprogress
    exact ⟨hstatus.trans hsynced, hdigest, hversion⟩
  | claim hstep hdue hprogress hstatus =>
    rw [GovernancePropagationDelivery.isDue, hsynced] at hdue
    cases hdue
  | revert hstep hid hunsynced hprogress hstatus => exact absurd hsynced hunsynced
  | retry hstep hid hunsynced hmore hprogress hstatus => exact absurd hsynced hunsynced
  | terminal hstep hid hunsynced hprogress hstatus => exact absurd hsynced hunsynced

/-- Rows are added by publications only. -/
theorem Changes.keys (hsound : Sound channels)
    (h : Changes wire secret maxAttempts channels step channels') :
    (∃ command, applyDurablePublish channels command = .ok channels') ∨
      channels'.publications = channels.publications ∧
      channels'.propagations.map Row.key = channels.propagations.map Row.key ∧
      channels'.deliveries.map Row.key = channels.deliveries.map Row.key := by
  cases h with
  | same => exact .inr ⟨rfl, rfl, rfl⟩
  | govern hacks => exact .inr ⟨rfl, rfl, rfl⟩
  | @stage command channels' hpublish => exact .inl ⟨command, hpublish⟩
  | @update command actorId eventId event now moved ledger hstatus hnew hfound hversion hacks =>
    refine .inr ⟨rfl, Table.keys_put _ _, ?_⟩
    dsimp only
    unfold mirrorDelivery
    split
    · rfl
    · rename_i carrier hcarrier
      have hget : channels.deliveries.get carrier.id = some carrier :=
        hsound.deliveries.get_of_mem (List.mem_of_find?_eq_some hcarrier)
      have hid : (command.mirror carrier).id = carrier.id :=
        GovernancePropagationDelivery.envelope_id (command.mirror_envelope carrier)
      have hsaves : Saves channels.deliveries (command.mirror carrier)
          (saveDelivery (command.mirror carrier) now channels.deliveries) :=
        saveDelivery_saves (hid ▸ hget)
      exact hsaves.keys
  | sync hstep hack hmoved hsaves => exact .inr ⟨rfl, Table.keys_put _ _, hsaves.keys⟩
  | recount hfound hacknowledged hsaves => exact .inr ⟨rfl, rfl, hsaves.keys⟩
  | claim => exact .inr ⟨rfl, rfl, (claim_savesAll hsound.deliveries).keys⟩
  | revert hfound hunsynced hrow hsaves => exact .inr ⟨rfl, rfl, hsaves.keys⟩
  | retry hfound hunsynced hnumber hmore hrow hsaves => exact .inr ⟨rfl, rfl, hsaves.keys⟩
  | terminal hstep hfound hunsynced hnumber hrow hsaves hmoved hfails hacks =>
    refine .inr ⟨rfl, ?_, hsaves.keys⟩
    rcases hfails with ⟨rfl, -⟩ | ⟨followUpCommands, event, rfl⟩
    · rfl
    · exact Table.keys_put _ _

/-- A delivery is acknowledged in the ledger by the step that makes it `synced`. -/
theorem Changes.acknowledged (hsound : Sound channels)
    (h : Changes wire secret maxAttempts channels step channels') {i : Uuid}
    (hfree : findKey channels.ledger (.propagationAck i) = none)
    (hkey : findKey channels'.ledger (.propagationAck i) ≠ none) :
    ∃ delivery, channels'.deliveries.get i = some delivery ∧ delivery.status = .synced := by
  cases h with
  | same => exact absurd hfree hkey
  | govern hacks => exact absurd (hacks i id hfree) hkey
  | stage hpublish =>
    apply (applyDurablePublish_sound hsound hpublish).acknowledged i hkey
  | update hstatus hnew hfound hversion hacks => exact absurd (hacks i id hfree) hkey
  | @sync step body signature ack publication written row moved deliveries' event ledger hstep hack
      hmoved hsaves henvelope hsynced hdigest hversion hattempts hacks =>
    by_cases hid : i = written.id
    · obtain ⟨time, hself⟩ := hsaves.self
      rw [GovernancePropagationDelivery.envelope_id henvelope, ← hid] at hself
      exact ⟨_, hself, hsynced⟩
    · exact absurd (hacks i hid hfree) hkey
  | recount => exact absurd hfree hkey
  | claim => exact absurd hfree hkey
  | revert => exact absurd hfree hkey
  | retry => exact absurd hfree hkey
  | terminal hstep hfound hunsynced hnumber hrow hsaves hmoved hfails hacks =>
    exact absurd (hacks i id hfree) hkey

/-- The pairs of a sound state. -/
theorem Sound.pair (hsound : Sound channels) {i : Uuid}
    (hget : channels.deliveries.get i = some delivery) :
    ∃ propagation, Pair channels delivery propagation ∧
      propagation.label = (delivery.propagationId, delivery.publicationId, delivery.surfaceId,
        delivery.desiredDigest) := by
  obtain ⟨propagation, hbound, hlabel⟩ := hsound.bound hget
  have hid : delivery.id = i := Table.get_key hget
  exact ⟨propagation, ⟨hid ▸ hget, hbound⟩, hlabel⟩

/-- The row found under a key after a step that adds none, with the row it comes from. -/
theorem Changes.origin (hsound : Sound channels)
    (h : Changes wire secret maxAttempts channels step channels')
    (hkeys : channels'.deliveries.map Row.key = channels.deliveries.map Row.key) {i : Uuid}
    (hget : channels'.deliveries.get i = some delivery') :
    ∃ delivery propagation propagation', Pair channels delivery propagation ∧
      channels.deliveries.get i = some delivery ∧ Pair channels' delivery' propagation' ∧
      propagation.label = (delivery.propagationId, delivery.publicationId, delivery.surfaceId,
        delivery.desiredDigest) ∧
      delivery'.envelope = delivery.envelope ∧ propagation'.label = propagation.label ∧
      Moves wire secret maxAttempts channels step delivery propagation delivery' propagation' := by
  obtain ⟨delivery, hbefore⟩ := Table.get_of_keys hkeys hget
  obtain ⟨propagation, hpair, hlabel⟩ := hsound.pair hbefore
  obtain ⟨after, propagation', hpair', henvelope, hlabel', hmoves⟩ := h.continues hsound hpair
  obtain rfl : after = delivery' := by
    have hid : after.id = i :=
      (GovernancePropagationDelivery.envelope_id henvelope).trans (Table.get_key hbefore)
    have hfound := hpair'.found
    rw [hid, hget] at hfound
    exact (Option.some.inj hfound).symm
  exact ⟨delivery, propagation, propagation', hpair, hbefore, hpair', hlabel, henvelope, hlabel',
    hmoves⟩

theorem Changes.sound (hsound : Sound channels)
    (h : Changes wire secret maxAttempts channels step channels') : Sound channels' := by
  rcases h.keys hsound with ⟨command, hpublish⟩ | ⟨hpublications, hpropagations, hdeliveries⟩
  · exact applyDurablePublish_sound hsound hpublish
  · refine ⟨?_, ?_, ?_, ?_, ?_, ?_, ?_⟩
    · rw [hpublications]
      exact hsound.publications
    · rw [Table.Keyed, hpropagations]
      exact hsound.propagations
    · rw [Table.Keyed, hdeliveries]
      exact hsound.deliveries
    · intro i j first second hfirst hsecond heq
      obtain ⟨before, _, _, -, hbefore, -, -, henvelope, -, -⟩ := h.origin hsound hdeliveries hfirst
      obtain ⟨other, _, _, -, hother, -, -, henvelope', -, -⟩ := h.origin hsound hdeliveries hsecond
      rw [GovernancePropagationDelivery.envelope_propagationId henvelope,
        GovernancePropagationDelivery.envelope_propagationId henvelope'] at heq
      exact hsound.paired hbefore hother heq
    · intro i delivery' hget
      obtain ⟨delivery, propagation, propagation', -, -, hpair', hlabel, henvelope, hlabel', -⟩ :=
        h.origin hsound hdeliveries hget
      refine ⟨propagation', hpair'.carried, ?_⟩
      simp only [GovernancePropagationDelivery.envelope, Envelope.mk.injEq] at henvelope
      obtain ⟨-, hpropagation, hpublication, hsurface, hdigest, -⟩ := henvelope
      rw [hlabel', hlabel, hpropagation, hpublication, hsurface, hdigest]
    · intro j propagation' hget
      obtain ⟨propagation, hbefore⟩ := Table.get_of_keys hpropagations hget
      obtain ⟨delivery, -, hpair, hcarries⟩ := hsound.deliveryOf hbefore
      obtain ⟨delivery', moved, hpair', henvelope, -, -⟩ := h.continues hsound hpair
      exact ⟨delivery'.id, delivery', hpair'.found,
        (GovernancePropagationDelivery.envelope_propagationId henvelope).trans hcarries⟩
    · intro i hkey
      by_cases hfree : findKey channels.ledger (.propagationAck i) = none
      · exact h.acknowledged hsound hfree hkey
      · obtain ⟨delivery, hget, hsynced⟩ := hsound.acknowledged i hfree
        obtain ⟨propagation, hpair, -⟩ := hsound.pair hget
        obtain ⟨delivery', moved, hpair', henvelope, -, hmoves⟩ := h.continues hsound hpair
        have hid : delivery'.id = i :=
          (GovernancePropagationDelivery.envelope_id henvelope).trans (Table.get_key hget)
        exact ⟨delivery', hid ▸ hpair'.found, (hmoves.of_synced hsynced).1⟩

theorem sound_empty : Sound {} := by
  refine ⟨List.nodup_nil, List.nodup_nil, List.nodup_nil, ?_, ?_, ?_, ?_⟩
  · intro i j delivery other hget
    cases hget
  · intro i delivery hget
    cases hget
  · intro j propagation hget
    cases hget
  · intro i hkey
    exact absurd rfl hkey

/-- A pair was there before the step and moved, or the step staged it. -/
theorem Changes.pair_cases (hsound : Sound channels)
    (h : Changes wire secret maxAttempts channels step channels')
    (hpair' : Pair channels' delivery' propagation') :
    (∃ delivery propagation, Pair channels delivery propagation ∧
      propagation.label = (delivery.propagationId, delivery.publicationId, delivery.surfaceId,
        delivery.desiredDigest) ∧
      delivery'.envelope = delivery.envelope ∧ propagation'.label = propagation.label ∧
      Moves wire secret maxAttempts channels step delivery propagation delivery' propagation') ∨
    (channels.deliveries.get delivery'.id = none ∧
      channels.propagations.get delivery'.propagationId = none ∧
      delivery'.progress = .staged ∧ propagation'.status = .pending) := by
  have hsame : ∀ {found : GovernancePropagation}, channels'.propagations.get
      delivery'.propagationId = some found → found = propagation' := by
    intro found hfound
    exact Option.some.inj (hfound.symm.trans hpair'.carried)
  rcases h.keys hsound with ⟨command, hpublish⟩ | ⟨-, -, hkeys⟩
  · have hextends := applyDurablePublish_extends hpublish
    cases hget : channels.deliveries.get delivery'.id with
    | none =>
      obtain ⟨hprogress, found, hfree, hfound, hstatus⟩ := hextends.staged hget hpair'.found
      obtain rfl := hsame hfound
      exact .inr ⟨rfl, hfree, hprogress, hstatus⟩
    | some delivery =>
      obtain rfl : delivery = delivery' :=
        Option.some.inj ((hextends.deliveries hget).symm.trans hpair'.found)
      obtain ⟨propagation, hpair, hlabel⟩ := hsound.pair hget
      obtain rfl := hsame (hextends.propagations hpair.carried)
      exact .inl ⟨delivery, propagation, hpair, hlabel, rfl, rfl, .same rfl rfl⟩
  · obtain ⟨delivery, propagation, found, hpair, -, hafter, hlabel, henvelope, hlabel', hmoves⟩ :=
      h.origin hsound hkeys hpair'.found
    obtain rfl := hsame hafter.carried
    exact .inl ⟨delivery, propagation, hpair, hlabel, henvelope, hlabel', hmoves⟩

end Changes

section Runs

variable [DecidableEq Body] {env : Platform}

theorem step_changes (world : World Body) (step : Step Body) :
    Changes wire secret maxAttempts world.channels step
      (Machine.step (perform wire env secret maxAttempts) world step).channels := by
  rcases step_cases (perform wire env secret maxAttempts) world step with heq | hok
  · rw [heq]
    exact .same
  · exact perform_changes hok

theorem perform_sound {condition : World Body → Step Body → Prop} :
    Preserves (perform wire env secret maxAttempts) condition
      (fun world => Sound world.channels) := by
  intro world world' step hsound _ hperform
  exact (perform_changes hperform).sound hsound

theorem run_sound (steps : List (Step Body)) :
    Sound (run (perform wire env secret maxAttempts) {} steps).channels := by
  have hmeets : Meets (perform wire env secret maxAttempts) (fun _ _ => True) {} steps :=
    meets_of_forall (fun _ _ => trivial) _ steps
  exact perform_sound.run sound_empty hmeets

end Runs

end Cygnus.Delivery
