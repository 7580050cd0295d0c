import Cygnus.Delivery.ChannelLaws

/-! Everything a step can do to the rows, and from it what every step keeps. -/

namespace Cygnus.Delivery

open Wiki Text Result Sequence Governance

variable {Body : Type}

/-- The acknowledgment that a step processes, with the delivery it is for. -/
def Step.carries : Step Body → Option (Uuid × Body × String)
  | acknowledge deliveryId body signature _ _ => some (deliveryId, body, signature)
  | record claimed (.synced _ body signature) _ _ _ => some (claimed.id, body, signature)
  | _ => none

/-- The claim whose acknowledgment a step records. -/
def Step.successOf : Step Body → Option GovernancePropagationDelivery
  | record claimed (.synced _ _ _) _ _ _ => some claimed
  | _ => none

/-- The claim for which a step records that no acknowledgment came. -/
def Step.failureOf : Step Body → Option GovernancePropagationDelivery
  | reject claimed _ _ _ _ => some claimed
  | record claimed (.unsynced _ _ _) _ _ _ => some claimed
  | _ => none

/-- The columns of a delivery row that are set when it is staged. -/
structure Envelope where
  id : Uuid
  propagationId : Uuid
  publicationId : Uuid
  surfaceId : String
  desiredDigest : String
  expectedPageVersion : Nat

def GovernancePropagationDelivery.envelope (delivery : GovernancePropagationDelivery) : Envelope :=
  ⟨delivery.id, delivery.propagationId, delivery.publicationId, delivery.surfaceId,
    delivery.desiredDigest, delivery.expectedPageVersion⟩

/-- What a step does to the database. -/
inductive Changes (wire : Wire Body) (secret : String) (maxAttempts : Nat) (channels : Channels) :
    Step Body → Channels → Prop
  | same {step : Step Body} : Changes wire secret maxAttempts channels step channels
  | govern {eventId : Uuid} {event : DraftEvent} {ledger : Table GovernanceLedgerEvent}
      (hacks : KeepsAcks (fun _ => False) channels.ledger ledger) :
      Changes wire secret maxAttempts channels (.govern eventId event)
        { channels with ledger := ledger }
  | stage {command : QualifiedPublish} {channels' : Channels}
      (hpublish : applyDurablePublish channels command = .ok channels') :
      Changes wire secret maxAttempts channels (.publish command) channels'
  | update {command : PropagationUpdateCommand} {actorId eventId event : Uuid} {now : Timestamp}
      {propagation : GovernancePropagation} {ledger : Table GovernanceLedgerEvent}
      (hstatus : command.status ≠ .synced)
      (hnew : findKey channels.ledger (.propagation command.commandId) = none)
      (hfound : findPropagation channels.propagations command.publicationId command.surfaceId =
        some propagation)
      (hversion : propagation.version = command.expectedVersion)
      (hacks : KeepsAcks (fun _ => False) channels.ledger ledger) :
      Changes wire secret maxAttempts channels (.update command actorId eventId now)
        { channels with
          ledger := ledger,
          propagations := channels.propagations.put (propagation.move command.status command.reason
            command.followUpCommands event (some actorId)),
          deliveries := mirrorDelivery command propagation.id now channels.deliveries }
  | sync {step : Step Body} {body : Body} {signature : String} {ack : AckPayload}
      {publication : GovernancePublication} {delivery row : GovernancePropagationDelivery}
      {propagation : GovernancePropagation} {deliveries' : Table GovernancePropagationDelivery}
      {event : Uuid} {ledger : Table GovernanceLedgerEvent}
      (hstep : step.carries = some (delivery.id, body, signature))
      (hack : Acknowledges wire secret channels body signature ack publication delivery)
      (hpropagation : channels.propagations.get delivery.propagationId = some propagation)
      (hsaves : Saves channels.deliveries row deliveries')
      (henvelope : row.envelope = delivery.envelope) (hsynced : row.status = .synced)
      (hdigest : row.acknowledgedDigest = some ack.digest)
      (hversion : row.acknowledgedVersion = some ack.version)
      (hattempts : row.attempts = delivery.attempts ∨
        ∃ claimed, step.successOf = some claimed ∧ row.attempts = claimed.attempts + 1)
      (hacks : KeepsAcks (· = delivery.id) channels.ledger ledger) :
      Changes wire secret maxAttempts channels step { channels with
        ledger := ledger,
        propagations := channels.propagations.put
          (propagation.move .synced "downstream_acknowledged" [] event none),
        deliveries := deliveries' }
  | recount {claimed delivery row : GovernancePropagationDelivery} {statusCode : Nat} {body : Body}
      {signature : String} {occurredAt now : Timestamp} {eventId : Uuid}
      {deliveries' : Table GovernancePropagationDelivery}
      (hfound : channels.deliveries.get claimed.id = some delivery)
      (hacknowledged : delivery.status = .synced ∨
        findKey channels.ledger (.propagationAck delivery.id) ≠ none)
      (hsaves : Saves channels.deliveries row deliveries')
      (henvelope : row.envelope = delivery.envelope) (hstatus : row.status = delivery.status)
      (hdigest : row.acknowledgedDigest = delivery.acknowledgedDigest)
      (hversion : row.acknowledgedVersion = delivery.acknowledgedVersion)
      (hattempts : row.attempts = claimed.attempts + 1) :
      Changes wire secret maxAttempts channels
        (.record claimed (.synced statusCode body signature) occurredAt eventId now)
        { channels with deliveries := deliveries' }
  | claim {limit : Nat} {locked : List Uuid} {now : Timestamp} :
      Changes wire secret maxAttempts channels (.claim limit locked now) { channels with
        deliveries := (claimPendingDeliveries channels.deliveries limit locked now).foldl
          (fun deliveries delivery => saveDelivery delivery now deliveries) channels.deliveries }
  | revert {claimed delivery row : GovernancePropagationDelivery} {posted : Bool}
      {lastError : String} {now : Timestamp} {deliveries' : Table GovernancePropagationDelivery}
      (hfound : channels.deliveries.get claimed.id = some delivery)
      (hunsynced : delivery.status ≠ .synced)
      (hrow : row = { delivery with
        status := .pending, lastError := boundedError (some lastError) })
      (hsaves : Saves channels.deliveries row deliveries') :
      Changes wire secret maxAttempts channels (.revert claimed posted lastError now)
        { channels with deliveries := deliveries' }
  | retry {claimed delivery row : GovernancePropagationDelivery} {attempt : Attempt}
      {statusCode : Option Nat} {error : String} {occurredAt now : Timestamp} {eventId : Uuid}
      {deliveries' : Table GovernancePropagationDelivery}
      (hfound : channels.deliveries.get claimed.id = some delivery)
      (hunsynced : delivery.status ≠ .synced) (hnumber : attempt.number = claimed.attempts + 1)
      (hmore : attempt.number < maxAttempts)
      (hrow : row = delivery.count attempt .pending "retryable_error")
      (hsaves : Saves channels.deliveries row deliveries') :
      Changes wire secret maxAttempts channels
        (.record claimed (.unsynced true statusCode error) occurredAt eventId now)
        { channels with deliveries := deliveries' }
  | terminal {step : Step Body} {claimed delivery row : GovernancePropagationDelivery}
      {attempt : Attempt} {status : TerminalStatus} {reason : String}
      {propagation : GovernancePropagation} {propagations' : Table GovernancePropagation}
      {deliveries' : Table GovernancePropagationDelivery} {ledger : Table GovernanceLedgerEvent}
      (hstep : step.failureOf = some claimed)
      (hfound : channels.deliveries.get claimed.id = some delivery)
      (hunsynced : delivery.status ≠ .synced) (hnumber : attempt.number = claimed.attempts + 1)
      (hrow : row = delivery.count attempt status.status status.status.value)
      (hsaves : Saves channels.deliveries row deliveries')
      (hpropagation : channels.propagations.get delivery.propagationId = some propagation)
      (hfails : propagations' = channels.propagations ∧ propagation.status = .failed ∨
        ∃ followUpCommands event, propagations' = channels.propagations.put
          (propagation.move .failed reason followUpCommands event none))
      (hacks : KeepsAcks (fun _ => False) channels.ledger ledger) :
      Changes wire secret maxAttempts channels step { channels with
        propagations := propagations', deliveries := deliveries', ledger := ledger }

section Inversion

variable {wire : Wire Body} {env : Platform} {secret : String} {maxAttempts : Nat}
  {channels channels' : Channels} {claimed : GovernancePropagationDelivery}
  {occurredAt now : Timestamp} {eventId : Uuid}

theorem recordOutcome_changes {outcome : DeliveryAttemptOutcome Body}
    (h : recordOutcome wire env secret maxAttempts channels claimed outcome occurredAt eventId now =
      .ok channels') :
    Changes wire secret maxAttempts channels (.record claimed outcome occurredAt eventId now)
      channels' := by
  have hmax : max 1 (claimed.attempts + 1) = claimed.attempts + 1 := by omega
  unfold recordOutcome at h
  rw [hmax] at h
  dsimp only at h
  split at h
  · rename_i statusCode body signature
    simp only [bind_ok] at h
    obtain ⟨⟨receipt, middle⟩, hack, h⟩ := h
    dsimp only at h
    split at h
    · cases h
    · rename_i counted hget
      obtain rfl := pure_ok.mp h
      have hid : counted.id = claimed.id := Table.get_key hget
      rw [← hid] at hget
      have hrow : middle.deliveries.get
          (counted.countSynced (claimed.attempts + 1) statusCode occurredAt).id = some counted := hget
      rcases acknowledgePropagationDelivery_ok hack with
        ⟨rfl, delivery, hdelivery, hacknowledged⟩ |
          ⟨delivery, ack, publication, propagation, event, ledger, hdelivery, hacknowledges,
            hpropagation, hacks, rfl⟩
      · have hfound : middle.deliveries.get claimed.id = some counted := hid ▸ hget
        obtain rfl := Option.some.inj (hdelivery.symm.trans hfound)
        exact .recount hfound hacknowledged (saveDelivery_saves hrow) rfl rfl rfl rfl rfl
      · have hsaves : Saves channels.deliveries (delivery.acknowledge ack now)
            (saveDelivery (delivery.acknowledge ack now) now channels.deliveries) :=
          saveDelivery_saves hacknowledges.found
        obtain ⟨time, hself⟩ := hsaves.self
        have hcounted : counted = { delivery.acknowledge ack now with updatedAt := time } := by
          have hsame : counted.id = (delivery.acknowledge ack now).id := hid.trans hdelivery.symm
          rw [hsame, hself] at hget
          exact (Option.some.inj hget).symm
        subst hcounted
        exact .sync (by rw [Step.carries, hdelivery]) hacknowledges hpropagation
          (hsaves.trans (saveDelivery_saves hrow) rfl) rfl rfl rfl rfl (.inr ⟨claimed, rfl, rfl⟩)
          hacks
  · rename_i statusCode error
    split at h
    · rcases recordTerminal_ok h with
        ⟨rfl, -⟩ | ⟨delivery, propagation, propagations', deliveries', ledger', hfound, hunsynced,
          hsaves, hpropagation, hfails, hacks, rfl⟩
      · exact .same
      · exact .terminal rfl hfound hunsynced rfl rfl hsaves hpropagation hfails hacks
    · rename_i hmore
      obtain rfl := pure_ok.mp h
      rcases recordUnlessSynced_cases channels claimed.id now
          (fun delivery => delivery.count
            ⟨claimed.attempts + 1, some error, statusCode, occurredAt⟩ .pending "retryable_error")
          (fun _ => rfl) with ⟨hsame, -⟩ | ⟨delivery, deliveries', hfound, hunsynced, hsaves, heq⟩
      · rw [recordRetry, hsame]
        exact .same
      · rw [recordRetry, heq]
        exact .retry hfound hunsynced rfl (Nat.lt_of_not_le hmore) rfl hsaves
  · rename_i statusCode error
    rcases recordTerminal_ok h with
      ⟨rfl, -⟩ | ⟨delivery, propagation, propagations', deliveries', ledger', hfound, hunsynced,
        hsaves, hpropagation, hfails, hacks, rfl⟩
    · exact .same
    · exact .terminal rfl hfound hunsynced rfl rfl hsaves hpropagation hfails hacks

theorem rejectOutcome_changes {error : String}
    (h : recordTerminal channels claimed.id
      ⟨max 1 (claimed.attempts + 1), some error, none, occurredAt⟩ .failed
      "delivery_destination_rejected" eventId now = .ok channels') :
    Changes wire secret maxAttempts channels (.reject claimed error occurredAt eventId now)
      channels' := by
  have hmax : max 1 (claimed.attempts + 1) = claimed.attempts + 1 := by omega
  rcases recordTerminal_ok h with
    ⟨rfl, -⟩ | ⟨found, propagation, propagations', deliveries', ledger', hfound, hunsynced, hsaves,
      hpropagation, hfails, hacks, rfl⟩
  · exact .same
  · exact .terminal rfl hfound hunsynced hmax rfl hsaves hpropagation hfails hacks

theorem finish_changes {middle : World Body} {delivery : GovernancePropagationDelivery}
    {posted : Bool} {result : Delivering Channels} {step : Step Body}
    (hmiddle : middle.channels = channels)
    (h : ∀ channels', result = .ok channels' →
      Changes wire secret maxAttempts channels step channels') :
    Changes wire secret maxAttempts channels step
      (middle.finish delivery posted result).channels := by
  unfold World.finish
  split
  · exact h _ rfl
  · rw [← hmiddle]
    exact .same

variable [DecidableEq Body] {world world' : World Body} {step : Step Body}

theorem takeUp_ok {task : Task Body} (h : world.takeUp task = .ok world') :
    task ∈ world.tasks ∧ world' = { world with tasks := world.tasks.erase task } := by
  simp only [World.takeUp, bind_ok, require_ok, pure_ok] at h
  obtain ⟨-, hmem, rfl⟩ := h
  exact ⟨hmem, rfl⟩

/-- Every step is one of the changes. -/
theorem perform_changes (h : perform wire env secret maxAttempts step world = .ok world') :
    Changes wire secret maxAttempts world.channels step world'.channels := by
  cases step with
  | govern eventId event =>
    simp only [perform, bind_ok, require_ok, mapError_ok, pure_ok] at h
    obtain ⟨-, hgoverns, ⟨entry, ledger⟩, happend, rfl⟩ := h
    refine .govern (appendDraftEvent_keepsAcks ?_ happend)
    intro i _ hkey
    rw [hkey] at hgoverns
    cases hgoverns
  | publish command =>
    simp only [perform, bind_ok, pure_ok] at h
    obtain ⟨channels', hpublish, rfl⟩ := h
    exact .stage hpublish
  | update command actorId eventId now =>
    simp only [perform, bind_ok, pure_ok] at h
    obtain ⟨⟨result, channels'⟩, hupdate, rfl⟩ := h
    rcases updatePropagation_ok hupdate with
      rfl | ⟨propagation, event, ledger, hstatus, hnew, hfound, hversion, hacks, rfl⟩
    · exact .same
    · exact .update hstatus hnew hfound hversion hacks
  | acknowledge deliveryId body signature eventId now =>
    simp only [perform, bind_ok, pure_ok] at h
    obtain ⟨⟨receipt, channels'⟩, hack, rfl⟩ := h
    rcases acknowledgePropagationDelivery_ok hack with
      ⟨rfl, -⟩ | ⟨delivery, ack, publication, propagation, event, ledger, rfl, hacknowledges,
        hpropagation, hacks, rfl⟩
    · exact .same
    · have hsaves : Saves world.channels.deliveries (delivery.acknowledge ack now)
          (saveDelivery (delivery.acknowledge ack now) now world.channels.deliveries) :=
        saveDelivery_saves hacknowledges.found
      exact .sync rfl hacknowledges hpropagation hsaves rfl rfl rfl rfl (.inl rfl) hacks
  | claim limit locked now =>
    simp only [perform, bind_ok, require_ok, pure_ok] at h
    obtain ⟨-, -, rfl⟩ := h
    exact .claim
  | skip delivery lastError =>
    simp only [perform, bind_ok, pure_ok] at h
    obtain ⟨middle, htake, rfl⟩ := h
    obtain ⟨-, rfl⟩ := takeUp_ok htake
    exact .same
  | reject delivery error occurredAt eventId now =>
    simp only [perform, bind_ok, pure_ok] at h
    obtain ⟨middle, htake, rfl⟩ := h
    obtain ⟨-, rfl⟩ := takeUp_ok htake
    refine finish_changes rfl ?_
    intro channels' hresult
    exact rejectOutcome_changes hresult
  | post delivery reply occurredAt =>
    simp only [perform, bind_ok, pure_ok] at h
    obtain ⟨middle, htake, rfl⟩ := h
    obtain ⟨-, rfl⟩ := takeUp_ok htake
    exact .same
  | record delivery outcome occurredAt eventId now =>
    simp only [perform, bind_ok, pure_ok] at h
    obtain ⟨middle, htake, rfl⟩ := h
    obtain ⟨-, rfl⟩ := takeUp_ok htake
    refine finish_changes rfl ?_
    intro channels' hresult
    exact recordOutcome_changes hresult
  | revert delivery posted lastError now =>
    simp only [perform, bind_ok, pure_ok] at h
    obtain ⟨middle, htake, rfl⟩ := h
    obtain ⟨-, rfl⟩ := takeUp_ok htake
    rcases recordUnlessSynced_cases world.channels delivery.id now
        (fun row => { row with status := .pending, lastError := boundedError (some lastError) })
        (fun _ => rfl) with ⟨hsame, -⟩ | ⟨found, deliveries', hfound, hunsynced, hsaves, heq⟩
    · dsimp only
      rw [revertToPending, hsame]
      exact .same
    · dsimp only
      rw [revertToPending, heq]
      exact .revert hfound hunsynced rfl hsaves
  | die task =>
    simp only [perform, bind_ok, pure_ok] at h
    obtain ⟨middle, htake, rfl⟩ := h
    obtain ⟨-, rfl⟩ := takeUp_ok htake
    exact .same

end Inversion

section Staging

variable {command : QualifiedPublish} {channel : TargetChannel} {publishEventId : Uuid}
  {channels channels' : Channels}

theorem stageChannel_ok (h : stageChannel command publishEventId channels channel = .ok channels') :
    channels.propagations.get channel.propagationId = none ∧
      channels.deliveries.get channel.deliveryId = none ∧
      (∀ other ∈ channels.deliveries, other.propagationId ≠ channel.propagationId) ∧
      channels' = { channels with
        propagations := channels.propagations ++ [command.propagation publishEventId channel],
        deliveries := channels.deliveries ++ [command.delivery channel] } := by
  simp only [stageChannel, bind_ok, require_ok, pure_ok] at h
  obtain ⟨-, -, propagations, hpropagations, -, hunpaired, deliveries, hdeliveries, rfl⟩ := h
  obtain ⟨hpropagation, rfl⟩ := Table.insert_ok hpropagations
  obtain ⟨hdelivery, rfl⟩ := Table.insert_ok hdeliveries
  exact ⟨hpropagation, hdelivery, hunpaired, rfl⟩

/-- What holds before a publication and is kept by each row that it stages holds after it. -/
theorem applyDurablePublish_induction {P : Channels → Prop}
    (h : applyDurablePublish channels command = .ok channels') (hbefore : P channels)
    (hpublication : ∀ ledger, channels.publications.get command.publication.id = none →
      KeepsAcks (fun _ => False) channels.ledger ledger → P { channels with
        publications := channels.publications ++ [command.publication], ledger := ledger })
    (hstage : ∀ publishEventId channels channel channels', P channels →
      stageChannel command publishEventId channels channel = .ok channels' → P channels') :
    P channels' := by
  unfold applyDurablePublish at h
  split at h
  · simp only [bind_ok, require_ok, pure_ok] at h
    obtain ⟨-, -, rfl⟩ := h
    exact hbefore
  · simp only [bind_ok] at h
    obtain ⟨⟨event, ledger⟩, hevent, publications, hinsert, h⟩ := h
    rw [mapError_ok] at hevent
    obtain ⟨hfree, rfl⟩ := Table.insert_ok hinsert
    have hacks : KeepsAcks (fun _ => False) channels.ledger ledger := by
      refine appendDraftEvent_keepsAcks ?_ hevent
      intro i _ heq
      cases heq
    have hstart := hpublication ledger hfree hacks
    dsimp only at h
    generalize { channels with
      publications := channels.publications ++ [command.publication], ledger := ledger } =
      start at hstart h
    generalize command.targetChannels = targets at h
    induction targets generalizing start with
    | nil =>
      obtain rfl := pure_ok.mp h
      exact hstart
    | cons channel targets ih =>
      rw [List.foldlM_cons, bind_ok] at h
      obtain ⟨next, hnext, h⟩ := h
      exact ih next (hstage _ _ _ _ hstart hnext) h

end Staging

end Cygnus.Delivery
