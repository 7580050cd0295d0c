import Cygnus.Delivery.Acknowledged

/-! Decided deliveries: an operator, or the outcome of a request, has given them up. Workers record
their outcomes for the row as it was when they claimed it, and look only for an acknowledgment. -/

namespace Cygnus.Delivery

open Wiki Text Result Sequence Governance Machine

variable {Body : Type} {wire : Wire Body} {secret : String} {maxAttempts : Nat}
  {channels channels' : Channels} {step : Step Body} {i : Uuid}
  {delivery delivery' : GovernancePropagationDelivery}
  {propagation propagation' : GovernancePropagation}

def DeliveryStatus.isDecided : DeliveryStatus → Bool
  | failed => true
  | deadLetter => true
  | _ => false

/-- The row for which a step records that a claim came to nothing. -/
def Step.workerOutcome : Step Body → Option Uuid
  | revert claimed _ _ _ => some claimed.id
  | step => step.failureOf.map (·.id)

/-- The operator asks for the delivery again. -/
def Step.repends (delivery : GovernancePropagationDelivery) : Step Body → Bool
  | update command _ _ _ => command.status = .pending &&
      command.publicationId = delivery.publicationId && command.surfaceId = delivery.surfaceId
  | _ => false

/-- What a step may do to a decided row. -/
structure KeepsDecision (wire : Wire Body) (secret : String) (channels : Channels)
    (step : Step Body) (delivery delivery' : GovernancePropagationDelivery) : Prop where
  leaves : delivery'.status = delivery.status ∨
    step.repends delivery ∧ delivery'.status = .pending ∨
    Confirms wire secret channels step delivery ∧ delivery'.status = .synced
  outcomes : step.workerOutcome.isSome → delivery'.progress = delivery.progress

/-- The row `i`, decided before the step, after it. -/
def KeepsDecisions (wire : Wire Body) (secret : String) (i : Uuid) (channels : Channels)
    (step : Step Body) (channels' : Channels) : Prop :=
  ∀ delivery, channels.deliveries.get i = some delivery → delivery.status.isDecided →
    ∃ delivery', channels'.deliveries.get i = some delivery' ∧
      KeepsDecision wire secret channels step delivery delivery'

/-- The update moves the propagation it names to a status other than `pending`. -/
def PropagationUpdateCommand.gives (command : PropagationUpdateCommand) (channels : Channels) :
    Option GovernancePropagation :=
  if command.status = .pending ∨
      (findKey channels.ledger (.propagation command.commandId)).isSome then none
  else (findPropagation channels.propagations command.publicationId command.surfaceId).filter
    (·.version = command.expectedVersion)

/-- No outcome is recorded for the row once it is decided, and no operator gives another word on one
that is in dead letter. -/
def Step.spares (step : Step Body) (i : Uuid) (channels : Channels) : Bool :=
  match step with
  | .update command _ _ _ => (command.gives channels).all fun propagation =>
      (channels.deliveries.get i).all fun delivery =>
        delivery.propagationId ≠ propagation.id || delivery.status ≠ .deadLetter
  | step => step.workerOutcome ≠ some i ||
      (channels.deliveries.get i).all fun delivery => !delivery.status.isDecided

section Steps

theorem Step.spares_outcome (hspares : step.spares i channels) (hstep : step.workerOutcome = some i)
    (hget : channels.deliveries.get i = some delivery) : delivery.status.isDecided = false := by
  cases step with
  | update command actorId eventId now => cases hstep
  | _ => simpa [spares, hstep, hget] using hspares

theorem Step.spares_update {command : PropagationUpdateCommand} {actorId eventId : Uuid}
    {now : Timestamp} (hspares : (Step.update command actorId eventId now : Step Body).spares i channels)
    (hget : channels.deliveries.get i = some delivery)
    (hcarries : delivery.propagationId = propagation.id) (hstatus : command.status ≠ .pending)
    (hnew : findKey channels.ledger (.propagation command.commandId) = none)
    (hfound : findPropagation channels.propagations command.publicationId command.surfaceId =
      some propagation)
    (hversion : propagation.version = command.expectedVersion) : delivery.status ≠ .deadLetter := by
  have hgives : command.gives channels = some propagation := by
    simp [PropagationUpdateCommand.gives, hstatus, hnew, hfound, hversion]
  simpa [spares, hgives, hget, hcarries] using hspares

theorem Moves.keepsDecision (hsound : Sound channels) (hpair : Pair channels delivery propagation)
    (hlabel : propagation.label = (delivery.propagationId, delivery.publicationId,
      delivery.surfaceId, delivery.desiredDigest))
    (hdecided : delivery.status.isDecided) (hspares : step.spares delivery.id channels)
    (h : Moves wire secret maxAttempts channels step delivery propagation delivery' propagation') :
    KeepsDecision wire secret channels step delivery delivery' := by
  have hcolumn : ∀ {after : Progress}, delivery'.progress = after →
      delivery'.status = after.status := fun hafter => congrArg Progress.status hafter
  have hspared : step.workerOutcome ≠ some delivery.id := by
    intro hstep
    rw [Step.spares_outcome hspares hstep hpair.found] at hdecided
    cases hdecided
  cases h with
  | same hprogress hstatus => exact ⟨.inl (hcolumn hprogress), fun _ => hprogress⟩
  | @update command actorId eventId now hstep hsynced hnew hfound hversion hprogress hstatus =>
    subst hstep
    refine ⟨?_, fun houtcome => by cases houtcome⟩
    have hunsynced : delivery.status ≠ .synced := by
      intro heq
      rw [heq] at hdecided
      cases hdecided
    rw [PropagationUpdateCommand.mirror, if_neg hunsynced] at hprogress
    have htarget := List.find?_some hfound
    rw [Bool.and_eq_true, decide_eq_true_eq, decide_eq_true_eq] at htarget
    simp only [GovernancePropagation.label, Prod.mk.injEq] at hlabel
    obtain ⟨hid, hpublication, hsurface, -⟩ := hlabel
    by_cases hpending : command.status = .pending
    · rw [if_pos hpending] at hprogress
      refine .inr (.inl ⟨?_, hcolumn hprogress⟩)
      simp [Step.repends, hpending, ← htarget.1, ← htarget.2, hpublication, hsurface]
    · rw [if_neg hpending] at hprogress
      have hlive := Step.spares_update hspares hpair.found hid.symm hpending hnew hfound hversion
      refine .inl ((hcolumn hprogress).trans ?_)
      revert hdecided hlive
      cases delivery.status <;> simp [DeliveryStatus.isDecided,
        GovernancePropagationDelivery.progress]
  | sync hstep hack hattempts hprogress hstatus =>
    refine ⟨.inr (.inr ⟨hack.confirms hsound hstep rfl, hcolumn hprogress⟩), ?_⟩
    intro houtcome
    cases step with
    | record claimed outcome =>
      cases outcome <;> simp_all [Step.workerOutcome, Step.failureOf, Step.carries]
    | _ => simp_all [Step.workerOutcome, Step.failureOf, Step.carries]
  | recount hstep hid hsynced hprogress hstatus =>
    rw [hsynced] at hdecided
    cases hdecided
  | claim hstep hdue hprogress hstatus =>
    unfold GovernancePropagationDelivery.isDue at hdue
    revert hdecided hdue
    cases delivery.status <;> simp [DeliveryStatus.isDecided]
  | revert hstep hid hunsynced hprogress hstatus =>
    rw [hstep, ← hid] at hspared
    exact absurd rfl hspared
  | retry hstep hid hunsynced hmore hprogress hstatus =>
    rw [hstep, ← hid] at hspared
    exact absurd rfl hspared
  | @terminal claimed status hstep hid hunsynced hprogress hstatus =>
    refine absurd ?_ hspared
    cases step with
    | revert => cases hstep
    | _ => simp only [Step.workerOutcome, hstep, Option.map_some, hid]

theorem Changes.keepsDecisions (hsound : Sound channels) (hspares : step.spares i channels)
    (h : Changes wire secret maxAttempts channels step channels') :
    KeepsDecisions wire secret i channels step channels' := by
  intro delivery hget hdecided
  obtain ⟨propagation, hpair, hlabel⟩ := hsound.pair hget
  obtain ⟨delivery', propagation', hpair', henvelope, -, hmoves⟩ := h.continues hsound hpair
  have hid : delivery.id = i := Table.get_key hget
  have hid' : delivery'.id = i := (GovernancePropagationDelivery.envelope_id henvelope).trans hid
  rw [← hid] at hspares
  exact ⟨delivery', hid' ▸ hpair'.found,
    hmoves.keepsDecision hsound hpair hlabel hdecided hspares⟩

end Steps

/-- In a run in which no worker records an outcome for the row once it is decided, and no operator
gives another word on it in dead letter, a decision stands until the operator asks for the delivery
again or the channel acknowledges it. -/
theorem run_keepsDecisions [DecidableEq Body] (wire : Wire Body) (env : Platform) (secret : String)
    (maxAttempts : Nat) (i : Uuid) (steps : List (Step Body))
    (h : Meets (perform wire env secret maxAttempts)
      (fun world step => step.spares i world.channels) {} steps) :
    Meets (perform wire env secret maxAttempts) (fun world step =>
      KeepsDecisions wire secret i world.channels step
        (Machine.step (perform wire env secret maxAttempts) world step).channels) {} steps := by
  apply perform_sound.meets _ sound_empty h
  intro world step hsound hspares
  exact (step_changes world step).keepsDecisions hsound hspares

section Overtaken

def failCommand : PropagationUpdateCommand :=
  { withdrawCommand with expectedVersion := 1, positive := by decide }

/-- The platform that serialises the operator's request. -/
def failure : Platform := platform
  ("\x7b\"expected_version\":1,\"follow_up_commands\":[]," ++
    "\"publication_id\":\"00000000-0000-0000-0000-000000000005\"," ++
    "\"reason\":\"rendered wrongly\",\"status\":\"failed\",\"surface_id\":\"agent-copilot\"\x7d")
  "0fbbd82f22c365be875994edf297aba05ed6b73af20f12415dc23bc536e2164b"

/-- The delivery as a sweep first claims it. -/
def claimedDelivery : GovernancePropagationDelivery :=
  { publishCommand.delivery ⟨"agent-copilot", 6, 7⟩ with status := .inFlight }

/-- The operator fails the delivery while a request for it is under way. -/
def failedInFlight : List (Step String) := published ++ [
  .claim 10 [] 1, .post claimedDelivery .timeout 1, .update failCommand 2 15 2]

def retried : Step String :=
  .record claimedDelivery (.unsynced true none "delivery_timeout") 1 16 3

theorem decision_overwritten :
    ¬ ∀ (i : Uuid) (steps : List (Step String)),
      Meets (perform consumer failure "secret" 5) (fun world step =>
        KeepsDecisions consumer "secret" i world.channels step
          (Machine.step (perform consumer failure "secret" 5) world step).channels) {} steps := by
  intro h
  have hstep := (meets_append.mp (h 7 (failedInFlight ++ [retried]))).2.1
  have hfailed : ((run (perform consumer failure "secret" 5) {} failedInFlight).channels.deliveries.get
      7).map (·.status) = some .failed := by
    decide +kernel
  have hpending : ((Machine.step (perform consumer failure "secret" 5)
      (run (perform consumer failure "secret" 5) {} failedInFlight)
      retried).channels.deliveries.get 7).map (·.status) = some .pending := by
    decide +kernel
  obtain ⟨delivery, hget, hstatus⟩ := Option.map_eq_some_iff.mp hfailed
  obtain ⟨delivery', hget', hkeeps⟩ := hstep delivery hget (by rw [hstatus]; rfl)
  rw [hget', Option.map_some, Option.some.injEq] at hpending
  rcases hkeeps.leaves with heq | ⟨hrepends, -⟩ | ⟨-, heq⟩
  · rw [hpending, hstatus] at heq
    cases heq
  · cases hrepends
  · rw [hpending] at heq
    cases heq

/-- The operator fails the delivery between two requests. -/
def failedBetween : List (Step String) := published ++ [
  .claim 10 [] 1, .post claimedDelivery .timeout 1, retried, .update failCommand 2 15 4,
  .claim 10 [] 5]

theorem timely_decision_keeps :
    Meets (perform consumer failure "secret" 5) (fun world step =>
      KeepsDecisions consumer "secret" 7 world.channels step
        (Machine.step (perform consumer failure "secret" 5) world step).channels) {}
      failedBetween := by
  have hspares : Meets (perform consumer failure "secret" 5)
      (fun world step => step.spares 7 world.channels) {} failedBetween := by
    decide +kernel
  exact run_keepsDecisions consumer failure "secret" 5 7 failedBetween hspares

end Overtaken

end Cygnus.Delivery
