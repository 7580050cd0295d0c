import Cygnus.Delivery.Acknowledged
import Cygnus.Integrations.DeliveryHandshake

/-! The worker and the consumer over a network that may lose, repeat, reorder and alter what is sent.
All it cannot do is sign. -/

namespace Cygnus.Integrations

open Wiki Text Result Delivery Publish Machine

/-- Both ends, and the bodies that were signed under the secret. -/
structure Network where
  world : World Bytes := {}
  receipts : Receipts := []
  signed : List Bytes := []

inductive Event
  /-- The worker signs the request for a channel of a publication. -/
  | request (publicationId : Uuid) (command : DurablePublishCommand) (qualified : Qualified)
  /-- The worker signs the empty body of a readiness probe. -/
  | probe
  | worker (step : Step Bytes)
  | arrival (exchange : Exchange)

def Response.signs : Response → List Bytes
  | .accepted body _ => [body]
  | _ => []

section Perform

variable {R : Type} (env : Platform) (runtime : Runtime R) (secret : String) (maxAttempts : Nat)

def Event.perform : Event → Network → Delivering Network
  | .request publicationId command qualified, network => do
    let payload := buildCanonicalDeliveryPayload env publicationId command qualified
    let body ← demand (canonicalJson runtime (Json.object payload).toPy)
      (.valueError "the payload cannot be written")
    return { network with signed := body :: network.signed }
  | .probe, network => return { network with signed := [] :: network.signed }
  | .worker step, network => do
    let world ← Delivery.perform runtime.wire env secret maxAttempts step network.world
    return { network with world := world }
  | .arrival exchange, network =>
    let (response, receipts) := serve runtime secret network.receipts exchange
    return { network with receipts := receipts, signed := response.signs ++ network.signed }

/-- Every body that verifies in the step was signed before it. -/
def Event.Unforged (network : Network) : Event → Prop
  | .worker step => ∀ deliveryId body signature, step.carries = some (deliveryId, body, signature) →
    verifyAckSignature runtime.wire body signature secret = .ok true → body ∈ network.signed
  | .arrival exchange => ∀ body, readBoundedBody exchange.request = .ok body →
    verifyAckSignature runtime.wire body (signatureOf exchange.request) secret = .ok true →
    body ∈ network.signed
  | _ => True

end Perform

variable {R : Type} {env : Platform} {runtime : Runtime R} {secret : String} {maxAttempts : Nat}
  {network network' : Network} {receipt : ReceiptIdentity} {body : Bytes}

/-- Where a signed body comes from. -/
inductive Origin (env : Platform) (runtime : Runtime R) (receipts : Receipts) : Bytes → Prop
  | request {publicationId : Uuid} {command : DurablePublishCommand} {qualified : Qualified}
      {body : Bytes} (hbody : canonicalJson runtime (Json.object
        (buildCanonicalDeliveryPayload env publicationId command qualified)).toPy = some body) :
      Origin env runtime receipts body
  | probe : Origin env runtime receipts []
  | ack {receipt : ReceiptIdentity} (hmem : receipt ∈ receipts) :
      Origin env runtime receipts (ackBody runtime receipt)

/-- The receipt is one for a body that was signed as a request. -/
def Requested (env : Platform) (runtime : Runtime R) (signed : List Bytes)
    (receipt : ReceiptIdentity) : Prop :=
  ∃ command qualified, ∃ body ∈ signed,
    canonicalJson runtime (Json.object (buildCanonicalDeliveryPayload env receipt.publicationId command
      qualified)).toPy = some body ∧
    receipt.bodySha256 = runtime.sha256 body ∧ receipt.objectVersion = qualified.page.version ∧
    receipt.surfaceId ∈ command.targetChannels

/-- The receipt is the one that the delivery asked for. -/
structure Covers (receipt : ReceiptIdentity) (delivery : GovernancePropagationDelivery) : Prop where
  publication : receipt.publicationId = delivery.publicationId
  surface : receipt.surfaceId = delivery.surfaceId
  digest : receipt.bodySha256 = delivery.desiredDigest
  version : receipt.objectVersion = delivery.expectedPageVersion

/-- Both ends agree: what the worker holds for synced the consumer holds a receipt for, and it holds
receipts only for what the worker signed. -/
structure Agreed (env : Platform) (runtime : Runtime R) (network : Network) : Prop where
  synced : ∀ {i : Uuid} {delivery : GovernancePropagationDelivery},
    network.world.channels.deliveries.get i = some delivery → delivery.status = .synced →
    ∃ receipt ∈ network.receipts, Covers receipt delivery
  requested : ∀ receipt ∈ network.receipts, Requested env runtime network.signed receipt

/-- What every step keeps. -/
structure Genuine (env : Platform) (runtime : Runtime R) (network : Network) : Prop extends
    Agreed env runtime network where
  sound : Sound network.world.channels
  origin : ∀ body ∈ network.signed, Origin env runtime network.receipts body
  shaped : ∀ receipt ∈ network.receipts, receipt.Shaped runtime

section Receiving

variable {payload : List (PyStr × PyJson R)} {signature : String} {receipts : Receipts}

theorem Asks.shaped (hshares : Shares env runtime)
    (h : Asks runtime secret body payload signature receipt) : receipt.Shaped runtime := by
  refine ⟨?_, h.surface, h.positive, ?_⟩
  · rw [h.digest]
    exact hshares.digest body
  · rw [h.reference]
    exact ⟨_, hshares.digest _, rfl⟩

theorem asks_request (hshares : Shares env runtime) {publicationId : Uuid}
    {command : DurablePublishCommand} {qualified : Qualified}
    (hbody : canonicalJson runtime (Json.object
      (buildCanonicalDeliveryPayload env publicationId command qualified)).toPy = some body)
    (h : Asks runtime secret body payload signature receipt) :
    receipt.publicationId = publicationId ∧ receipt.objectVersion = qualified.page.version ∧
      receipt.surfaceId ∈ command.targetChannels := by
  obtain ⟨-, hread, -⟩ := loadsBody_canonicalJson hshares
    (distinctKeys_payload env publicationId command qualified) hbody
  rw [h.read, Json.sortKeys, Json.toPy, Option.some.injEq, PyJson.object.injEq] at hread
  have hfield := field_sorted (R := R) (keys_payload env publicationId command qualified)
  rw [← hread] at hfield
  obtain ⟨hpublication, hversion, htargets, -⟩ :=
    lookup_payload env publicationId command qualified
  refine ⟨?_, ?_, ?_⟩
  · have heq := h.publication
    rw [hfield, hpublication] at heq
    have htext : Utf8.ofString publicationId.text = Utf8.ofString receipt.publicationId.text := by
      simpa [Json.sortKeys, Json.toPy, text] using heq
    exact (Uuid.text_injective (Utf8.ofString_strictMono.injective htext)).symm
  · have heq := h.version
    rw [hfield, hversion] at heq
    simpa [Json.sortKeys, Json.toPy, eq_comm] using heq
  · obtain ⟨channels, hchannels, hmem⟩ := h.targeted
    rw [targetChannels, hfield, htargets, Option.map_some, sortKeys_texts] at hchannels
    simp only [Option.map_some, texts, Json.toPy, mapM_asStr, Option.bind_eq_bind,
      Option.bind_some] at hchannels
    split at hchannels
    · rw [← Option.some.inj hchannels] at hmem
      obtain ⟨channel, hchannel, heq⟩ := List.mem_map.mp hmem
      rwa [← Utf8.ofString_strictMono.injective heq]
    · cases hchannels

/-- Of the signed bodies only requests are taken for requests. -/
theorem Origin.requested (hshares : Shares env runtime) {signed : List Bytes}
    (hshaped : ∀ receipt ∈ receipts, receipt.Shaped runtime) (hsigned : body ∈ signed)
    (h : Origin env runtime receipts body)
    (hasks : Asks runtime secret body payload signature receipt) :
    Requested env runtime signed receipt := by
  cases h with
  | request hbody =>
    obtain ⟨rfl, hversion, hsurface⟩ := asks_request hshares hbody hasks
    exact ⟨_, _, body, hsigned, hbody, hasks.digest, hversion, hsurface⟩
  | probe => cases hasks.read
  | @ack kept hmem =>
    obtain ⟨channels, hchannels, -⟩ := hasks.targeted
    have hread := hasks.read
    rw [loadsBody_ackBody hshares (hshaped kept hmem), Json.toPy, Option.some.injEq,
      PyJson.object.injEq] at hread
    have hnone : field payload "target_channels" = none := by
      rw [← hread, field, key, Json.lookup_fieldsToPy]
      simp [ackFields, List.lookup_cons]
    rw [targetChannels, hnone] at hchannels
    cases hchannels

end Receiving

section Acknowledging

variable {receipts : Receipts} {ack : AckPayload}

theorem parseAckFields_surface {payload : JsonObject} (h : parseAckFields payload = .ok ack) :
    Json.lookup payload "surface_id" ≠ .null := by
  intro hnull
  unfold parseAckFields at h
  rw [hnull] at h
  split at h
  · split at h <;> cases h
  · cases h

/-- Of the signed bodies only acknowledgments are taken for acknowledgments. -/
theorem Origin.acknowledged (hshares : Shares env runtime)
    (hshaped : ∀ receipt ∈ receipts, receipt.Shaped runtime)
    (h : Origin env runtime receipts body) (hack : parseAckBody runtime.wire body = .ok ack) :
    ∃ receipt ∈ receipts, ack = ackPayload receipt := by
  cases h with
  | @request publicationId command qualified _ hbody =>
    obtain ⟨-, hread, -⟩ := loadsBody_canonicalJson hshares
      (distinctKeys_payload env publicationId command qualified) hbody
    simp only [parseAckBody, bind_ok, hshares.loads _ _ hread, Json.sortKeys] at hack
    obtain ⟨-, -, hfields⟩ := hack
    obtain ⟨-, -, -, hnone⟩ := lookup_payload env publicationId command qualified
    refine absurd ?_ (parseAckFields_surface hfields)
    rw [Json.lookup, Json.lookup_sorted (keys_payload env publicationId command qualified), hnone]
    rfl
  | probe =>
    simp only [parseAckBody, bind_ok, hshares.blank] at hack
    obtain ⟨-, -, hfields⟩ := hack
    cases hfields
  | @ack receipt hmem =>
    rw [parseAckBody_ackBody hshares (hshaped receipt hmem)] at hack
    exact ⟨receipt, hmem, (Except.ok.inj hack).symm⟩

/-- A delivery that is confirmed has a receipt. -/
theorem Genuine.covers (h : Genuine env runtime network) (hshares : Shares env runtime)
    {step : Step Bytes} (hunforged : (Event.worker step).Unforged runtime secret network)
    {delivery : GovernancePropagationDelivery}
    (hconfirms : Confirms runtime.wire secret network.world.channels step delivery) :
    ∃ receipt ∈ network.receipts, Covers receipt delivery := by
  obtain ⟨body, signature, ack, publication, hcarries, -, hverified, hparsed, hpublication, hsurface,
    hversion, hdigest, -⟩ := hconfirms
  have hsigned := hunforged _ body signature hcarries hverified
  obtain ⟨receipt, hmem, rfl⟩ := (h.origin body hsigned).acknowledged hshares h.shaped hparsed
  exact ⟨receipt, hmem, hpublication, hsurface, hdigest, hversion⟩

end Acknowledging

section Runs

theorem Requested.mono {signed signed' : List Bytes} (hsub : ∀ body ∈ signed, body ∈ signed')
    (h : Requested env runtime signed receipt) : Requested env runtime signed' receipt := by
  obtain ⟨command, qualified, body, hsigned, hrest⟩ := h
  exact ⟨command, qualified, body, hsub body hsigned, hrest⟩

theorem Origin.mono {receipts receipts' : Receipts}
    (hsub : ∀ receipt ∈ receipts, receipt ∈ receipts') (h : Origin env runtime receipts body) :
    Origin env runtime receipts' body := by
  cases h with
  | request hbody => exact .request hbody
  | probe => exact .probe
  | ack hmem => exact .ack (hsub _ hmem)

theorem Genuine.empty : Genuine env runtime {} where
  synced hget := by cases hget
  requested receipt hmem := by cases hmem
  sound := sound_empty
  origin body hmem := by cases hmem
  shaped receipt hmem := by cases hmem

/-- One more body is signed. -/
theorem Genuine.sign (h : Genuine env runtime network)
    (horigin : Origin env runtime network.receipts body) :
    Genuine env runtime { network with signed := body :: network.signed } where
  synced := h.synced
  requested receipt hmem := (h.requested receipt hmem).mono fun _ hold => List.mem_cons_of_mem _ hold
  sound := h.sound
  origin other hmem := by
    rcases List.mem_cons.mp hmem with rfl | hold
    · exact horigin
    · exact h.origin other hold
  shaped := h.shaped

theorem Genuine.worker (h : Genuine env runtime network) (hshares : Shares env runtime)
    {step : Step Bytes} {world : World Bytes}
    (hunforged : (Event.worker step).Unforged runtime secret network)
    (hperform : Delivery.perform runtime.wire env secret maxAttempts step network.world =
      .ok world) : Genuine env runtime { network with world := world } where
  synced {i delivery'} hget hsynced := by
    have hchanges := perform_changes hperform
    have hsyncs := hchanges.syncsByAck h.sound
    rcases hsyncs.delivery hget hsynced with ⟨delivery, hold, hbefore⟩ | hconfirms
    · obtain ⟨propagation, hpair, -⟩ := h.sound.pair hold
      obtain ⟨next, _, hpair', henvelope, -, -⟩ := hchanges.continues h.sound hpair
      obtain ⟨receipt, hmem, hcovers⟩ := h.synced hold hbefore
      have hid : next.id = i :=
        (GovernancePropagationDelivery.envelope_id henvelope).trans (Table.get_key hold)
      have hfound := hpair'.found
      rw [hid, hget] at hfound
      obtain rfl := Option.some.inj hfound
      simp only [GovernancePropagationDelivery.envelope, Envelope.mk.injEq] at henvelope
      obtain ⟨-, -, hpublication, hsurface, hdigest, hversion⟩ := henvelope
      refine ⟨receipt, hmem, hcovers.publication.trans hpublication.symm,
        hcovers.surface.trans hsurface.symm, hcovers.digest.trans hdigest.symm, ?_⟩
      rw [hversion]
      exact hcovers.version
    · exact h.covers hshares hunforged hconfirms
  requested := h.requested
  sound := (perform_changes hperform).sound h.sound
  origin := h.origin
  shaped := h.shaped

/-- A request that reaches the consumer leaves at most one more receipt, for a signed request, and
signs acknowledgments of receipts that are kept. -/
theorem Genuine.arrival (h : Genuine env runtime network) (hshares : Shares env runtime)
    {exchange : Exchange} (hunforged : (Event.arrival exchange).Unforged runtime secret network) :
    Genuine env runtime { network with
      receipts := (serve runtime secret network.receipts exchange).2,
      signed := (serve runtime secret network.receipts exchange).1.signs ++ network.signed } := by
  have hreceipts : ∀ receipt ∈ (serve runtime secret network.receipts exchange).2,
      receipt ∈ network.receipts ∨
        receipt.Shaped runtime ∧ Requested env runtime network.signed receipt := by
    intro receipt hmem
    rcases serve_receipts runtime secret network.receipts exchange with
      heq | ⟨incoming, hauthentic, -, heq⟩
    · rw [heq] at hmem
      exact .inl hmem
    · rw [heq, List.mem_append, List.mem_singleton] at hmem
      refine hmem.imp_right ?_
      rintro rfl
      obtain ⟨body, payload, hbody, hasks⟩ := authenticate_ok hauthentic
      have hsigned := hunforged body hbody hasks.signed
      exact ⟨hasks.shaped hshares,
        (h.origin body hsigned).requested hshares h.shaped hsigned hasks⟩
  have hkept : ∀ receipt ∈ network.receipts,
      receipt ∈ (serve runtime secret network.receipts exchange).2 := by
    intro receipt hmem
    rcases serve_receipts runtime secret network.receipts exchange with
      heq | ⟨incoming, -, -, heq⟩
    · rwa [heq]
    · rw [heq]
      exact List.mem_append_left _ hmem
  have hsigned : ∀ body ∈ network.signed,
      body ∈ (serve runtime secret network.receipts exchange).1.signs ++ network.signed :=
    fun body hmem => List.mem_append_right _ hmem
  constructor
  · constructor
    · intro i delivery hget hsynced
      obtain ⟨receipt, hmem, hcovers⟩ := h.synced hget hsynced
      exact ⟨receipt, hkept receipt hmem, hcovers⟩
    · intro receipt hmem
      rcases hreceipts receipt hmem with hold | ⟨-, hrequested⟩
      · exact (h.requested receipt hold).mono hsigned
      · exact hrequested.mono hsigned
  · exact h.sound
  · intro body hmem
    rcases List.mem_append.mp hmem with hnew | hold
    · cases hresponse : (serve runtime secret network.receipts exchange).1 with
      | accepted answer headers =>
        obtain ⟨incoming, -, hheld, hacceptance⟩ := serve_accepted hresponse
        rw [hresponse, Response.signs, List.mem_singleton] at hnew
        rw [hacceptance] at hresponse
        cases hresponse
        rw [hnew]
        exact .ack hheld
      | error =>
        rw [hresponse] at hnew
        cases hnew
      | serverError =>
        rw [hresponse] at hnew
        cases hnew
    · exact (h.origin body hold).mono hkept
  · intro receipt hmem
    rcases hreceipts receipt hmem with hold | ⟨hshaped, -⟩
    · exact h.shaped receipt hold
    · exact hshaped

theorem receipts_arrival (network : Network) (exchange : Exchange) :
    (step (Event.perform env runtime secret maxAttempts) network (.arrival exchange)).receipts =
      (serve runtime secret network.receipts exchange).2 :=
  rfl

theorem perform_genuine (hshares : Shares env runtime) :
    Preserves (Event.perform env runtime secret maxAttempts)
      (fun network event => event.Unforged runtime secret network) (Genuine env runtime) := by
  intro network network' event h hunforged hperform
  cases event with
  | request publicationId command qualified =>
    simp only [Event.perform, bind_ok, demand_ok, pure_ok] at hperform
    obtain ⟨body, hbody, rfl⟩ := hperform
    exact h.sign (.request hbody)
  | probe =>
    obtain rfl := pure_ok.mp hperform
    exact h.sign .probe
  | worker step =>
    simp only [Event.perform, bind_ok, pure_ok] at hperform
    obtain ⟨world, hworld, rfl⟩ := hperform
    exact h.worker hshares hunforged hworld
  | arrival exchange =>
    obtain rfl := pure_ok.mp hperform
    exact h.arrival hshares hunforged

/-- In every run of the two ends in which nobody else signs, they agree in every state. -/
theorem run_agreed (env : Platform) (runtime : Runtime R) (secret : String) (maxAttempts : Nat)
    (hshares : Shares env runtime) (events : List Event)
    (hunforged : Meets (Event.perform env runtime secret maxAttempts)
      (fun network event => event.Unforged runtime secret network) {} events) :
    Agreed env runtime (run (Event.perform env runtime secret maxAttempts) {} events) := by
  have hkeeps : Preserves (Event.perform env runtime secret maxAttempts)
      (fun network event => event.Unforged runtime secret network) (Genuine env runtime) :=
    perform_genuine hshares
  exact (hkeeps.run .empty hunforged).toAgreed

/-- The request for the sample arrives and is kept. -/
theorem sample_agreed : ∃ events,
    (run (Event.perform samplePlatform sampleRuntime "secret" 5) {} events).receipts ≠ [] ∧
      Agreed samplePlatform sampleRuntime
        (run (Event.perform samplePlatform sampleRuntime "secret" 5) {} events) := by
  obtain ⟨hone, hall⟩ := sample_sendable
  obtain ⟨row, hrows⟩ := List.length_eq_one_iff.mp hone
  rw [List.all_eq_true] at hall
  have hrow : row ∈ (publishRun samplePlatform (fun key => key.2) 5 sampleSteps).deliveries := by
    rw [hrows]
    exact List.mem_singleton_self row
  have hships := publishRun_ships samplePlatform (fun key => key.2) 5 sampleSteps
  obtain ⟨-, body, hbody, hsize⟩ := sampleRow_fits (hall row hrow)
  obtain ⟨command, qualified, hshipped, -⟩ := hships row hrow
  have harrives := arrives_requestOf row body
  have hauthentic := hships.authenticate_sent sample_shares (by decide : "secret" ≠ "")
    (fun other hother => (sampleRow_fits (hall other hother)).1) hrow ⟨body, [], hbody, hsize, harrives⟩
  have hrequest : (Event.request row.publicationId command qualified).perform samplePlatform
      sampleRuntime "secret" 5 {} = .ok { signed := [body] } := by
    rw [requestBody, hshipped.1] at hbody
    simp only [Event.perform, hbody, demand, ok_bind]
    rfl
  have hstep : step (Event.perform samplePlatform sampleRuntime "secret" 5) {}
      (.request row.publicationId command qualified) = { signed := [body] } := by
    rw [step, hrequest]
  have hunforged : (Event.arrival ⟨requestOf row body, .none⟩).Unforged sampleRuntime "secret"
      { signed := [body] } := by
    intro other hread _
    rw [harrives.readBoundedBody hsize] at hread
    rw [Except.ok.inj hread]
    exact List.mem_singleton_self other
  have hmeets : Meets (Event.perform samplePlatform sampleRuntime "secret" 5)
      (fun network event => event.Unforged sampleRuntime "secret" network) {}
      [.request row.publicationId command qualified, .arrival ⟨requestOf row body, .none⟩] := by
    rw [Meets, Meets, hstep]
    exact ⟨trivial, hunforged, trivial⟩
  have hkept : (serve sampleRuntime "secret" [] ⟨requestOf row body, .none⟩).2 ≠ [] := by
    have hserves := serves sampleRuntime "secret" [] ⟨requestOf row body, .none⟩
    generalize serve sampleRuntime "secret" [] ⟨requestOf row body, .none⟩ = outcome at hserves ⊢
    cases hserves with
    | refused hrefused =>
      rw [hauthentic] at hrefused
      cases hrefused
    | unavailable _ hfault => exact absurd rfl hfault
    | unconfirmed => exact List.append_ne_nil_of_right_ne_nil _ (List.cons_ne_nil _ _)
    | created => exact List.append_ne_nil_of_right_ne_nil _ (List.cons_ne_nil _ _)
    | replayed _ _ hheld => cases hheld
    | conflicting _ _ hheld => cases hheld
  refine ⟨_, ?_, run_agreed samplePlatform sampleRuntime "secret" 5 sample_shares _ hmeets⟩
  rw [run_cons, run_cons, run_nil, hstep, receipts_arrival]
  exact hkept

end Runs

end Cygnus.Integrations
