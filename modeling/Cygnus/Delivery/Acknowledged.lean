import Cygnus.Delivery.Rows

/-! Success of a delivery: it comes with a signed acknowledgment and stays. The propagation follows
it, until an operator says otherwise. -/

namespace Cygnus.Delivery

open Wiki Text Result Sequence Governance Machine

variable {Body : Type} {wire : Wire Body} {secret : String} {maxAttempts : Nat}
  {channels channels' : Channels} {step : Step Body}
  {delivery delivery' : GovernancePropagationDelivery}
  {propagation propagation' : GovernancePropagation}

section Confirmation

/-- The step processes an acknowledgment that verifies under the secret, and that names the persisted
values of the delivery while its publication is the latest of its object. -/
def Confirms (wire : Wire Body) (secret : String) (channels : Channels) (step : Step Body)
    (delivery : GovernancePropagationDelivery) : Prop :=
  ∃ body signature ack publication, step.carries = some (delivery.id, body, signature) ∧
    secret ≠ "" ∧ verifyAckSignature wire body signature secret = .ok true ∧
    parseAckBody wire body = .ok ack ∧ ack.publicationId = delivery.publicationId ∧
    ack.surfaceId = delivery.surfaceId ∧ ack.version = delivery.expectedPageVersion ∧
    ack.digest = delivery.desiredDigest ∧ publication ∈ channels.publications ∧
    publication.id = delivery.publicationId ∧
    ∀ other ∈ channels.publications, other.objectRef = publication.objectRef →
      other.place ≤ publication.place

/-- Rows turn `synced` by a confirmation, and an acknowledged delivery is not written again. -/
structure SyncsByAck (wire : Wire Body) (secret : String) (channels : Channels) (step : Step Body)
    (channels' : Channels) : Prop where
  delivery : ∀ {i : Uuid} {delivery' : GovernancePropagationDelivery},
    channels'.deliveries.get i = some delivery' → delivery'.status = .synced →
    (∃ delivery, channels.deliveries.get i = some delivery ∧ delivery.status = .synced) ∨
      Confirms wire secret channels step delivery'
  propagation : ∀ {i : Uuid} {propagation' : GovernancePropagation},
    channels'.propagations.get i = some propagation' → propagation'.status = .synced →
    (∃ propagation, channels.propagations.get i = some propagation ∧
      propagation.status = .synced) ∨
    ∃ delivery', channels'.deliveries.get delivery'.id = some delivery' ∧
      delivery'.propagationId = i ∧ delivery'.publicationId = propagation'.publicationId ∧
      delivery'.surfaceId = propagation'.surfaceId ∧
      delivery'.desiredDigest = propagation'.desiredDigest ∧
      Confirms wire secret channels step delivery'
  kept : ∀ {i : Uuid} {delivery : GovernancePropagationDelivery},
    channels.deliveries.get i = some delivery → delivery.status = .synced →
    ∃ delivery', channels'.deliveries.get i = some delivery' ∧ delivery'.status = .synced ∧
      delivery'.acknowledgedDigest = delivery.acknowledgedDigest ∧
      delivery'.acknowledgedVersion = delivery.acknowledgedVersion

theorem Acknowledges.confirms {body : Body} {signature : String} {ack : AckPayload}
    {publication : GovernancePublication} (hsound : Sound channels)
    (hstep : step.carries = some (delivery.id, body, signature))
    (hack : Acknowledges wire secret channels body signature ack publication delivery)
    (henvelope : delivery'.envelope = delivery.envelope) :
    Confirms wire secret channels step delivery' := by
  simp only [GovernancePropagationDelivery.envelope, Envelope.mk.injEq] at henvelope
  obtain ⟨hid, -, hpublication, hsurface, hdigest, hversion⟩ := henvelope
  have hmem := Table.get_mem hack.published
  refine ⟨body, signature, ack, publication, ?_, hack.configured, hack.verified, hack.parsed,
    ?_, ?_, ?_, ?_, hmem, ?_, ?_⟩
  · rw [hstep, hid]
  · rw [hack.publication_eq, hpublication]
  · rw [hack.surface_eq, hsurface]
  · rw [hack.version_eq, hversion]
  · rw [hack.digest_eq, hdigest]
  · rw [hpublication]
    exact Table.get_key hack.published
  · exact latestPublication_le hsound.publications hmem hack.latest

/-- A pair one side of which turns `synced` is confirmed. -/
theorem Moves.confirms (hsound : Sound channels)
    (henvelope : delivery'.envelope = delivery.envelope)
    (h : Moves wire secret maxAttempts channels step delivery propagation delivery' propagation') :
    (delivery'.status = .synced → delivery.status = .synced ∨
      Confirms wire secret channels step delivery') ∧
    (propagation'.status = .synced → propagation.status = .synced ∨
      Confirms wire secret channels step delivery') := by
  have hcolumn : ∀ {after : Progress}, delivery'.progress = after →
      delivery'.status = after.status := fun hafter => congrArg Progress.status hafter
  have hleft : ∀ {after : Progress}, delivery'.progress = after → after.status ≠ .synced →
      delivery'.status ≠ .synced := by
    intro after hafter hne
    rw [hcolumn hafter]
    exact hne
  cases h with
  | same hprogress hstatus =>
    exact ⟨fun h => .inl ((hcolumn hprogress).symm.trans h), fun h => .inl (hstatus.symm.trans h)⟩
  | @update command _ _ _ hstep hsynced _ _ _ hprogress hstatus =>
    refine ⟨?_, fun h => absurd (hstatus.symm.trans h) hsynced⟩
    intro h
    by_cases hunsynced : delivery.status = .synced
    · exact .inl hunsynced
    · rw [PropagationUpdateCommand.mirror, if_neg hunsynced] at hprogress
      rw [hcolumn hprogress] at h
      split at h <;> cases h
  | sync hstep hack hattempts hprogress hstatus =>
    have hconfirms := hack.confirms hsound hstep henvelope
    exact ⟨fun _ => .inr hconfirms, fun _ => .inr hconfirms⟩
  | recount hstep hid hacknowledged hprogress hstatus =>
    exact ⟨fun _ => .inl hacknowledged, fun h => .inl (hstatus.symm.trans h)⟩
  | claim hstep hdue hprogress hstatus =>
    exact ⟨fun h => absurd h (hleft hprogress (by simp)), fun h => .inl (hstatus.symm.trans h)⟩
  | revert hstep hid hunsynced hprogress hstatus =>
    exact ⟨fun h => absurd h (hleft hprogress (by simp)), fun h => .inl (hstatus.symm.trans h)⟩
  | retry hstep hid hunsynced hmore hprogress hstatus =>
    exact ⟨fun h => absurd h (hleft hprogress (by simp)), fun h => .inl (hstatus.symm.trans h)⟩
  | @terminal claimed status hstep hid hunsynced hprogress hstatus =>
    refine ⟨fun h => absurd h (hleft hprogress ?_), fun h => absurd (hstatus.symm.trans h) (by decide)⟩
    cases status <;> simp [TerminalStatus.status]

theorem Changes.syncsByAck (hsound : Sound channels)
    (h : Changes wire secret maxAttempts channels step channels') :
    SyncsByAck wire secret channels step channels' := by
  have hsound' := h.sound hsound
  constructor
  · intro i delivery' hget hsynced
    obtain ⟨propagation', hpair', -⟩ := hsound'.pair hget
    have hid' : delivery'.id = i := Table.get_key hget
    rcases h.pair_cases hsound hpair' with
      ⟨delivery, propagation, hpair, -, henvelope, -, hmoves⟩ | ⟨-, -, hprogress, -⟩
    · have hid : delivery.id = i :=
        (GovernancePropagationDelivery.envelope_id henvelope).symm.trans hid'
      rcases (hmoves.confirms hsound henvelope).1 hsynced with hbefore | hconfirms
      · exact .inl ⟨delivery, hid ▸ hpair.found, hbefore⟩
      · exact .inr hconfirms
    · exact absurd ((congrArg Progress.status hprogress).symm.trans hsynced) (by decide)
  · intro i propagation' hget hsynced
    obtain ⟨delivery', -, hpair', hcarries⟩ := hsound'.deliveryOf hget
    rcases h.pair_cases hsound hpair' with
      ⟨delivery, propagation, hpair, hlabel, henvelope, hlabel', hmoves⟩ | ⟨-, -, -, hstatus⟩
    · rcases (hmoves.confirms hsound henvelope).2 hsynced with hbefore | hconfirms
      · have hcarried := hpair.carried
        rw [← GovernancePropagationDelivery.envelope_propagationId henvelope, hcarries] at hcarried
        exact .inl ⟨propagation, hcarried, hbefore⟩
      · rw [hlabel] at hlabel'
        simp only [GovernancePropagation.label, Prod.mk.injEq] at hlabel'
        obtain ⟨-, hpublication, hsurface, hdigest⟩ := hlabel'
        have hcolumns := henvelope
        simp only [GovernancePropagationDelivery.envelope, Envelope.mk.injEq] at hcolumns
        obtain ⟨-, -, hpublication', hsurface', hdigest', -⟩ := hcolumns
        exact .inr ⟨delivery', hpair'.found, hcarries, hpublication'.trans hpublication.symm,
          hsurface'.trans hsurface.symm, hdigest'.trans hdigest.symm, hconfirms⟩
    · rw [hstatus] at hsynced
      cases hsynced
  · intro i delivery hget hsynced
    obtain ⟨propagation, hpair, -⟩ := hsound.pair hget
    obtain ⟨delivery', propagation', hpair', henvelope, -, hmoves⟩ := h.continues hsound hpair
    have hid : delivery'.id = i :=
      (GovernancePropagationDelivery.envelope_id henvelope).trans (Table.get_key hget)
    exact ⟨delivery', hid ▸ hpair'.found, hmoves.of_synced hsynced⟩

end Confirmation

section Agreement

/-- An operator's update of the propagation of an acknowledged delivery is up to date, and new. -/
def Overrides (channels : Channels) (step : Step Body) (i : Uuid) : Prop :=
  ∃ command actorId eventId now delivery propagation,
    step = .update command actorId eventId now ∧ Pair channels delivery propagation ∧
    delivery.id = i ∧ delivery.status = .synced ∧
    findPropagation channels.propagations command.publicationId command.surfaceId =
      some propagation ∧
    propagation.version = command.expectedVersion ∧
    command.status ≠ .synced ∧ findKey channels.ledger (.propagation command.commandId) = none

/-- A propagation is `synced` only with its delivery. -/
theorem Moves.propagation_synced
    (hbefore : propagation.status = .synced → delivery.status = .synced)
    (h : Moves wire secret maxAttempts channels step delivery propagation delivery' propagation')
    (hsynced : propagation'.status = .synced) : delivery'.status = .synced := by
  have hkept : propagation.status = .synced → delivery'.status = .synced :=
    fun hold => (h.of_synced (hbefore hold)).1
  cases h with
  | same hprogress hstatus => exact hkept (hstatus ▸ hsynced)
  | update hstep hunsynced hnew hfound hversion hprogress hstatus =>
    exact absurd (hstatus.symm.trans hsynced) hunsynced
  | sync hstep hack hattempts hprogress hstatus => exact congrArg Progress.status hprogress
  | recount hstep hid hacknowledged hprogress hstatus => exact hkept (hstatus ▸ hsynced)
  | claim hstep hdue hprogress hstatus => exact hkept (hstatus ▸ hsynced)
  | revert hstep hid hunsynced hprogress hstatus => exact hkept (hstatus ▸ hsynced)
  | retry hstep hid hunsynced hmore hprogress hstatus => exact hkept (hstatus ▸ hsynced)
  | terminal hstep hid hunsynced hprogress hstatus =>
    rw [hstatus] at hsynced
    cases hsynced

/-- A pair that parts does so by an operator's update, or was parted before. -/
theorem Moves.parted (hpair : Pair channels delivery propagation)
    (h : Moves wire secret maxAttempts channels step delivery propagation delivery' propagation')
    (hsynced : delivery'.status = .synced) (hparted : propagation'.status ≠ .synced) :
    (delivery.status = .synced ∧ propagation.status ≠ .synced) ∨
      Overrides channels step delivery.id := by
  have hcolumn : ∀ {after : Progress}, delivery'.progress = after → after.status = .synced := by
    intro after hafter
    rw [← hafter]
    exact hsynced
  cases h with
  | same hprogress hstatus => exact .inl ⟨hcolumn hprogress, hstatus ▸ hparted⟩
  | @update command actorId eventId now hstep hunsynced hnew hfound hversion hprogress hstatus =>
    by_cases hacknowledged : delivery.status = .synced
    · exact .inr ⟨command, actorId, eventId, now, delivery, propagation, hstep, hpair, rfl,
        hacknowledged, hfound, hversion, hunsynced, hnew⟩
    · have hmirror := hcolumn hprogress
      rw [PropagationUpdateCommand.mirror, if_neg hacknowledged] at hmirror
      split at hmirror <;> cases hmirror
  | sync hstep hack hattempts hprogress hstatus => exact absurd hstatus hparted
  | recount hstep hid hacknowledged hprogress hstatus =>
    exact .inl ⟨hacknowledged, hstatus ▸ hparted⟩
  | claim hstep hdue hprogress hstatus => cases hcolumn hprogress
  | revert hstep hid hunsynced hprogress hstatus => cases hcolumn hprogress
  | retry hstep hid hunsynced hmore hprogress hstatus => cases hcolumn hprogress
  | @terminal claimed status hstep hid hunsynced hprogress hstatus =>
    have hterminal := hcolumn hprogress
    cases status <;> cases hterminal

end Agreement

section Runs

variable [DecidableEq Body] (wire : Wire Body) (env : Platform) (secret : String)
  (maxAttempts : Nat)

theorem run_propagation_synced (steps : List (Step Body))
    (hpair : Pair (run (perform wire env secret maxAttempts) {} steps).channels delivery propagation)
    (hsynced : propagation.status = .synced) : delivery.status = .synced := by
  induction steps using List.reverseRecOn generalizing delivery propagation with
  | nil => cases hpair.found
  | append_singleton steps step ih =>
    rw [run_append, run_cons, run_nil] at hpair
    rcases (step_changes _ step).pair_cases (run_sound steps) hpair with
      ⟨before, moved, hbefore, -, -, -, hmoves⟩ | ⟨-, -, -, hstatus⟩
    · exact hmoves.propagation_synced (ih hbefore) hsynced
    · rw [hstatus] at hsynced
      cases hsynced

theorem run_parted (steps : List (Step Body))
    (hpair : Pair (run (perform wire env secret maxAttempts) {} steps).channels delivery propagation)
    (hsynced : delivery.status = .synced) (hparted : propagation.status ≠ .synced) :
    ∃ first step later world', steps = first ++ step :: later ∧
      perform wire env secret maxAttempts step
        (run (perform wire env secret maxAttempts) {} first) = .ok world' ∧
      Overrides (run (perform wire env secret maxAttempts) {} first).channels step delivery.id := by
  induction steps using List.reverseRecOn generalizing delivery propagation with
  | nil => cases hpair.found
  | append_singleton steps step ih =>
    have hlonger : ∀ {first later : List (Step Body)} {update : Step Body},
        steps = first ++ update :: later → steps ++ [step] = first ++ update :: (later ++ [step]) := by
      intro first later update heq
      rw [heq, List.append_assoc, List.cons_append]
    rw [run_append, run_cons, run_nil] at hpair
    rcases step_cases (perform wire env secret maxAttempts) _ step with heq | hok
    · rw [heq] at hpair
      obtain ⟨first, update, later, world', hsteps, haccepted⟩ := ih hpair hsynced hparted
      exact ⟨first, update, later ++ [step], world', hlonger hsteps, haccepted⟩
    · rcases (perform_changes hok).pair_cases (run_sound steps) hpair with
        ⟨before, moved, hbefore, -, henvelope, -, hmoves⟩ | ⟨-, -, hprogress, -⟩
      · rw [GovernancePropagationDelivery.envelope_id henvelope]
        rcases hmoves.parted hbefore hsynced hparted with ⟨hsynced, hparted⟩ | hoverrides
        · obtain ⟨first, update, later, world', hsteps, haccepted⟩ := ih hbefore hsynced hparted
          exact ⟨first, update, later ++ [step], world', hlonger hsteps, haccepted⟩
        · exact ⟨steps, step, [], _, rfl, hok, hoverrides⟩
      · exact absurd ((congrArg Progress.status hprogress).symm.trans hsynced) (by decide)

/-- In every state a run reaches, a propagation is `synced` only with its delivery, and it is `synced`
with it unless an operator's update was accepted since the acknowledgment. -/
theorem run_agrees (steps : List (Step Body)) :
    ∀ delivery propagation,
      Pair (run (perform wire env secret maxAttempts) {} steps).channels delivery propagation →
      (propagation.status = .synced → delivery.status = .synced) ∧
      (delivery.status = .synced → propagation.status = .synced ∨
        ∃ first step later world', steps = first ++ step :: later ∧
          perform wire env secret maxAttempts step
            (run (perform wire env secret maxAttempts) {} first) = .ok world' ∧
          Overrides (run (perform wire env secret maxAttempts) {} first).channels step
            delivery.id) := by
  intro delivery propagation hpair
  refine ⟨run_propagation_synced wire env secret maxAttempts steps hpair, ?_⟩
  intro hsynced
  by_cases hparted : propagation.status = .synced
  · exact .inl hparted
  · exact .inr (run_parted wire env secret maxAttempts steps hpair hsynced hparted)

end Runs

section Overruled

def desiredDigest : String := "b41354bfb2938cebc0d209b23e09c961c1cadc476d44c871371e878f077e848d"

/-- The acknowledgment of version 1 on one channel, and its HMAC under the secret `secret`. -/
def ackBody : String :=
  "\x7b\"publication_id\":\"00000000-0000-0000-0000-000000000005\"," ++
    "\"surface_id\":\"agent-copilot\",\"version\":1,\"digest\":" ++
    "\"b41354bfb2938cebc0d209b23e09c961c1cadc476d44c871371e878f077e848d\"\x7d"

def ackHmac : String := "b9bd16c4ad91deac89243eb5bb60cb89ecf2bc2f91e3b4c56711239c163625c3"

def consumer : Wire String where
  size body := body.utf8ByteSize
  loads body :=
    if body = ackBody then some (.object [
      ("publication_id", .str "00000000-0000-0000-0000-000000000005"),
      ("surface_id", .str "agent-copilot"), ("version", .int 1), ("digest", .str desiredDigest)])
    else none
  signBody body secret := if body = ackBody ∧ secret = "secret" then ackHmac else ""

/-- A platform on which one request is serialised and hashed, at the epoch. -/
def platform (request digest : String) : Platform where
  lower := id
  dumps _ := request
  sha256 _ := digest
  isoformat _ := "1970-01-01T00:00:00+00:00"

/-- A step of the review of a draft. -/
def reviewed (draftId eventId : Uuid) (eventType : GovernanceEventType)
    (fromState : Option GovernanceState) (toState : GovernanceState) : Step String :=
  .govern eventId
    { draftId := draftId, eventType := eventType, fromState := fromState, toState := toState,
      actorId := some 2, idempotencyKey := .wikiDraft draftId eventType none }

def publishCommand : QualifiedPublish where
  publication := {
    id := 5, draftId := 1, commandId := "publish-1", requestFingerprint := desiredDigest,
    objectRef := "ko-page-3", objectVersion := 1, publishedAt := 0 }
  eventId := 14
  actorId := 2
  fromState := .approved
  toState := .published
  reason := "reviewed"
  payload := []
  desiredDigest := desiredDigest
  maxAttempts := 5
  targetChannels := [⟨"agent-copilot", 6, 7⟩]

def published : List (Step String) := [
  reviewed 1 11 .proposalCreated none .draft,
  reviewed 1 12 .reviewRequested (some .draft) .inReview,
  reviewed 1 13 .approved (some .inReview) .approved, .publish publishCommand]

def acknowledged : Step String := .acknowledge 7 ackBody ("sha256=" ++ ackHmac) 15 0

def withdrawCommand : PropagationUpdateCommand where
  publicationId := 5
  surfaceId := "agent-copilot"
  status := .failed
  expectedVersion := 2
  commandId := "withdraw-1"
  reason := "rendered wrongly"
  stripped := by decide
  short := by decide
  positive := by decide

/-- The platform that serialises the operator's request. -/
def withdrawal : Platform := platform
  ("\x7b\"expected_version\":2,\"follow_up_commands\":[]," ++
    "\"publication_id\":\"00000000-0000-0000-0000-000000000005\"," ++
    "\"reason\":\"rendered wrongly\",\"status\":\"failed\",\"surface_id\":\"agent-copilot\"\x7d")
  "e1d33d61b82f0a36b9598f150d5527b0604a046412ad04bb25b3c067d17706f3"

/-- The channel acknowledges the delivery, and the operator then fails the propagation. -/
def overruled : List (Step String) :=
  published ++ [acknowledged, .update withdrawCommand 2 16 0]

theorem overruled_pair :
    ∃ delivery propagation,
      Pair (run (perform consumer withdrawal "secret" 5) {} overruled).channels delivery propagation ∧
      delivery.id = 7 ∧ delivery.status = .synced ∧ propagation.status = .failed := by
  have hdelivery : ((run (perform consumer withdrawal "secret" 5) {} overruled).channels.deliveries.get
      7).map (fun row => (row.status, row.propagationId)) = some (.synced, 6) := by
    decide +kernel
  have hpropagation : ((run (perform consumer withdrawal "secret" 5) {}
      overruled).channels.propagations.get 6).map (·.status) = some .failed := by
    decide +kernel
  obtain ⟨delivery, hfound, hcolumns⟩ := Option.map_eq_some_iff.mp hdelivery
  obtain ⟨propagation, hcarried, hfailed⟩ := Option.map_eq_some_iff.mp hpropagation
  obtain ⟨hsynced, hpropagationId⟩ := Prod.mk.inj hcolumns
  have hid : delivery.id = 7 := Table.get_key hfound
  exact ⟨delivery, propagation, ⟨hid ▸ hfound, hpropagationId ▸ hcarried⟩, hid, hsynced, hfailed⟩

theorem failed_after_ack :
    ¬ ∀ steps : List (Step String), ∀ delivery propagation,
      Pair (run (perform consumer withdrawal "secret" 5) {} steps).channels delivery propagation →
      (delivery.status = .synced ↔ propagation.status = .synced) := by
  intro h
  obtain ⟨delivery, propagation, hpair, -, hsynced, hfailed⟩ := overruled_pair
  have hpropagation := (h overruled delivery propagation hpair).mp hsynced
  rw [hfailed] at hpropagation
  cases hpropagation

theorem failed_after_ack_overridden :
    ∃ first step later world', overruled = first ++ step :: later ∧
      perform consumer withdrawal "secret" 5 step
        (run (perform consumer withdrawal "secret" 5) {} first) = .ok world' ∧
      Overrides (run (perform consumer withdrawal "secret" 5) {} first).channels step 7 := by
  obtain ⟨delivery, propagation, hpair, hid, hsynced, hfailed⟩ := overruled_pair
  have hagrees := run_agrees consumer withdrawal "secret" 5 overruled delivery propagation hpair
  have hparted : propagation.status ≠ .synced := by
    rw [hfailed]
    decide
  rw [← hid]
  exact (hagrees.2 hsynced).resolve_left hparted

end Overruled

end Cygnus.Delivery
