import Cygnus.Publish.Durable

/-! `apply_durable_publish`: the checks of a command against the locked rows, and the rows a
publication stages. -/

namespace Cygnus.Publish

open Wiki Domain Governance Retrieval Text Result Sequence
open Delivery (GovernancePublication GovernancePropagation GovernancePropagationDelivery)

section Qualification

variable (env : Platform)

/-- The reviewed draft, its approval and digest, and the page it became. -/
structure Reviewed where
  draft : GovernedDraft
  approval : GovernanceLedgerEvent
  approvalDigest : String
  page : GovernedPage

/-- What the checks of a command establish. -/
structure Qualified extends Reviewed where
  sources : List AttestedSource
  object : KnowledgeObject
  rows : List AudienceBinding

def currentApprovalDigest (draft : GovernedDraft) (page : GovernedPage) : String :=
  Governance.approvalDigest env draft.toWikiPageDraft page.toWikiPage page.contentMd
    draft.reviewedById draft.reviewedAt draft.reviewerNote

def qualifyReview (state : Governed) (command : DurablePublishCommand) : Durable Reviewed := do
  let draft ← demand (state.drafts.get command.draftId)
    (.publishing (.durablePublishNotFound s!"draft_id={command.draftId.text} was not found"))
  require (draft.status = .approved) (denied
    s!"draft_id={command.draftId.text} is not approved (status={draft.status.value})")
  let approval ← demand (getApprovalEvent state draft.id command.approvalRef) (denied
    (s!"approval_ref={command.approvalRef.text} is not an approval for " ++
      s!"draft_id={draft.id.text}"))
  let pageId ← demand draft.pageId (denied "approved draft has no materialized WikiPage")
  let page ← demand (state.pages.get pageId) (denied "approved draft has no materialized WikiPage")
  require (page.version = command.expectedVersion) (conflict
    (s!"object version conflict: expected {command.expectedVersion}, " ++
      s!"current {page.version}"))
  let stored ← demand (storedApprovalDigest approval) (denied
    (s!"approval_ref={command.approvalRef.text} has no canonical approval digest; " ++
      "legacy approvals cannot publish"))
  require (currentApprovalDigest env draft page = stored ∧
      currentApprovalDigest env draft page = command.approvalDigest) (conflict
    ("approval content drift: the reviewed draft/page revision no longer " ++
      "matches the approved content, sources, or review metadata"))
  return ⟨draft, approval, stored, page⟩

def qualifySources (state : Governed) (page : GovernedPage) (now : Timestamp) :
    Durable (List AttestedSource) := do
  let sourceIds := page.sourceIds.eraseDups
  require (sourceIds ≠ []) (denied "published objects must reference at least one source")
  let sources ← demand (sourceIds.mapM state.sources.get)
    (denied "published objects require every linked source to exist and be ready")
  require (∀ source ∈ sources, source.status = "ready")
    (denied "published objects require every linked source to exist and be ready")
  let violations := freshnessViolations sources now
  require (violations = []) (denied
    ("published objects require every linked source to carry an explicit, " ++
      "unexpired FRESH attestation; " ++ "; ".intercalate violations))
  return sources

def qualifySignal (state : Governed) (command : DurablePublishCommand) (page : GovernedPage)
    (object : KnowledgeObject) : Durable GovernanceSignal := do
  let signal ← demand (state.signals.get command.signalId) (denied
    s!"signal_id={command.signalId.text} freshness attestation was not found")
  require (signal.pageId = some page.id ∧ signal.objectRef = object.objectId) (denied
    s!"signal_id={command.signalId.text} does not attest the requested publish object")
  require (signal.status = .active) (conflict
    (s!"signal lifecycle drift: signal_id={command.signalId.text} is no longer active " ++
      s!"(status={signal.status.value})"))
  require (signal.freshness = command.signalFreshness) (conflict
    (s!"freshness attestation drift: signal_id={command.signalId.text} freshness changed from " ++
      s!"{command.signalFreshness.value} to {signal.freshness.value}"))
  return signal

def qualify (state : Governed) (command : DurablePublishCommand) (now : Timestamp) :
    Durable Qualified := do
  let reviewed ← qualifyReview env state command
  let page := reviewed.page
  let sources ← qualifySources state page now
  let evidenceIds := page.sourceIds.eraseDups.map fun id => s!"ev-src-{id.text}"
  let projected ← (wikiPageToKnowledgeObject env page evidenceIds).mapError .publishing
  let object ← demand projected
    (denied "approved WikiPage must declare one supported knowledge object type")
  let rows := activeBindingRows state.bindings page.id object.objectId
  require (rows ≠ [])
    (denied "durable publish requires at least one explicit active audience binding")
  let signal ← qualifySignal state command page object
  let scopeDigest ← (publishScopeDigest env
    ⟨reviewed.approval.id, reviewed.approvalDigest, page.version, rows,
      orderedSourceScopeState env now sources, signal.freshness.value, command.actionKey,
      command.targetChannels, signal.id, signal.status.value⟩).mapError .publishing
  require (scopeDigest = command.scopeDigest) (conflict
    ("publish scope drift: the previewed approval, object version, " ++
      "bindings, freshness attestations, or action/targets no longer match " ++
      "current persisted truth"))
  return ⟨reviewed, sources, object, rows⟩

end Qualification

section Staging

variable (env : Platform)

/-- The ids of the rows a publication adds. -/
structure PublishIds where
  publication : Uuid
  event : Uuid
  propagation : String → Uuid
  delivery : String → Uuid

def texts (values : List String) : Json := .list (values.map .str)

def bindingPayload (row : AudienceBinding) : JsonObject := [
  ("binding_key", .str row.bindingKey), ("version", .int row.version),
  ("channel", .str row.channel), ("visibility", .str row.visibility.value),
  ("audience", .object [
    ("brands", texts row.brands), ("product_lines", texts row.productLines),
    ("plans", texts row.plans), ("regions", texts row.regions),
    ("languages", texts row.languages), ("product_versions", texts row.productVersions)])]

def buildCanonicalDeliveryPayload (publicationId : Uuid) (command : DurablePublishCommand)
    (qualified : Qualified) : JsonObject := [
  ("publication_id", .str publicationId.text), ("command_id", .str command.commandId),
  ("approval_ref", .str qualified.approval.id.text),
  ("approval_sequence", .int qualified.approval.sequence),
  ("object_ref", .str qualified.object.objectId),
  ("object_type", .str (objectTypeValue qualified.object.objectType)),
  ("object_version", .int qualified.page.version), ("action_key", .str command.actionKey),
  ("target_channels", texts command.targetChannels),
  ("bindings", .list ((command.requestedBindingRows qualified.rows).map fun row =>
    .object (bindingPayload row))),
  ("source_evidence_refs", .list (qualified.page.sourceIds.eraseDups.map fun id =>
    .str s!"ev-src-{id.text}")),
  ("content_sha256", .str (env.sha256 qualified.page.contentMd))]

def canonicalDeliveryDigest (payload : JsonObject) : String := canonicalSha256 env payload

def bindingVersionRefs (rows : List AudienceBinding) : List JsonObject :=
  rows.map fun row => [("binding_key", .str row.bindingKey), ("version", .int row.version)]

/-- `_binding_dicts_for_channel`. -/
def bindingsForChannel (result : PublishGovernanceResult) (channel : String) :
    List PublishBinding :=
  Dict.values (Dict.ofList (((result.updatedCandidate.targetBindings ++ result.removedBindings).filter
    (·.channel.1 = channel)).map fun binding => (binding.key, binding)))

def effectiveObjectStatus (result : PublishGovernanceResult) (status : String) : String :=
  if status = "evergreen" then status
  else if result.updatedCandidate.targetBindings ≠ [] then "mature" else "developing"

/-- What a publication ships to each of its channels. -/
structure Shipment where
  payload : JsonObject
  desiredDigest : String
  approvalVersion : Nat
  bindingVersions : List JsonObject
  maxAttempts : Nat

def shipment (publicationId : Uuid) (command : DurablePublishCommand) (qualified : Qualified)
    (maxAttempts : Nat) : Shipment :=
  let payload := buildCanonicalDeliveryPayload env publicationId command qualified
  ⟨payload, canonicalDeliveryDigest env payload, qualified.approval.sequence,
    bindingVersionRefs (command.requestedBindingRows qualified.rows), maxAttempts⟩

def publishEvent (publicationId actorId : Uuid) (command : DurablePublishCommand)
    (qualified : Qualified) (previous : List PublishBinding) (result : PublishGovernanceResult)
    (desiredDigest : String) : DraftEvent :=
  { draftId := qualified.draft.id, eventType := .published,
    fromState := some (if previous ≠ [] then .published else .approved),
    toState := if result.updatedCandidate.targetBindings ≠ [] then .published else .approved,
    actorId := some actorId, idempotencyKey := .publish command.commandId,
    reason := some (command.reason.getD s!"durable publish action {command.actionKey}"),
    payload := [
      ("publication_id", .str publicationId.text), ("approval_ref", .str command.approvalRef.text),
      ("approval_digest", .str command.approvalDigest), ("scope_digest", .str command.scopeDigest),
      ("command_id", .str command.commandId),
      ("request_fingerprint", .str (command.requestFingerprint env)),
      ("object_ref", .str qualified.object.objectId),
      ("object_version", .int qualified.page.version), ("action_key", .str command.actionKey),
      ("target_channels", texts command.targetChannels),
      ("reason", Json.ofOption .str command.reason),
      ("initial_propagation_status", .str Delivery.PropagationStatus.pending.value),
      ("desired_digest", .str desiredDigest)] }

def publicationRow (publicationId actorId eventId : Uuid) (command : DurablePublishCommand)
    (qualified : Qualified) (result : PublishGovernanceResult) (now : Timestamp) : PublicationRow :=
  { id := publicationId, draftId := qualified.draft.id, commandId := command.commandId,
    requestFingerprint := command.requestFingerprint env, objectRef := qualified.object.objectId,
    objectVersion := qualified.page.version, publishedAt := now, pageId := qualified.page.id,
    approvalEventId := qualified.approval.id, publishEventId := eventId,
    approvalDigest := command.approvalDigest, scopeDigest := command.scopeDigest,
    objectType := qualified.object.objectType, actionKey := command.actionKey,
    targetChannels := command.targetChannels, previousObjectStatus := qualified.page.status,
    effectiveObjectStatus := effectiveObjectStatus result qualified.page.status, result := result,
    publishedById := actorId }

def PublicationRow.propagation (publication : PublicationRow) (ids : PublishIds)
    (shipment : Shipment) (channel : String) : PropagationRow :=
  { id := ids.propagation channel, publicationId := publication.id, surfaceId := channel,
    desiredDigest := shipment.desiredDigest, status := .pending,
    reason := "awaiting_downstream_confirmation",
    followUpCommands := [s!"confirm_propagation:{publication.id.text}:{channel}"],
    lastEventId := publication.publishEventId, updatedById := some publication.publishedById,
    channelRefs := [channel], bindingRefs := bindingsForChannel publication.result channel }

def deliveryKey (publicationId : Uuid) (channel : String) : String :=
  s!"delivery:{publicationId.text}:{channel}"

def PublicationRow.delivery (publication : PublicationRow) (ids : PublishIds) (shipment : Shipment)
    (channel : String) : DeliveryRow :=
  { id := ids.delivery channel, propagationId := ids.propagation channel,
    publicationId := publication.id, surfaceId := channel,
    desiredDigest := shipment.desiredDigest, expectedPageVersion := publication.objectVersion,
    maxAttempts := shipment.maxAttempts, createdAt := publication.publishedAt,
    updatedAt := publication.publishedAt, commandId := deliveryKey publication.id channel,
    idempotencyKey := deliveryKey publication.id channel, canonicalPayload := shipment.payload,
    expectedApprovalVersion := shipment.approvalVersion,
    expectedBindingVersions := shipment.bindingVersions, actorId := publication.publishedById }

def stageChannel (publication : PublicationRow) (ids : PublishIds) (shipment : Shipment)
    (state : Governed) (channel : String) : Durable Governed := do
  let propagation := publication.propagation ids shipment channel
  let delivery := publication.delivery ids shipment channel
  require (∀ other ∈ state.propagations, ¬ (other.publicationId = propagation.publicationId ∧
      other.surfaceId = propagation.surfaceId))
    (.integrityError "uq_governance_propagations_publication_surface")
  let propagations ← state.propagations.insert
    (.integrityError "governance_propagations_pkey") propagation
  require (∀ other ∈ state.deliveries, other.propagationId ≠ delivery.propagationId)
    (.integrityError "governance_propagation_deliveries_propagation_id_key")
  require (∀ other ∈ state.deliveries, other.commandId ≠ delivery.commandId)
    (.integrityError "governance_propagation_deliveries_command_id_key")
  require (∀ other ∈ state.deliveries, other.idempotencyKey ≠ delivery.idempotencyKey)
    (.integrityError "governance_propagation_deliveries_idempotency_key_key")
  let deliveries ← state.deliveries.insert
    (.integrityError "governance_propagation_deliveries_pkey") delivery
  return { state with propagations := propagations, deliveries := deliveries }

end Staging

section Apply

variable (env : Platform) (repr : BindingKey → String) (maxAttempts : Nat)

/-- The rows an answer shows. -/
structure PublishReply where
  publication : PublicationRow
  propagations : List PropagationRow
  deliveries : List DeliveryRow
  replayed : Bool

def listPublicationPropagations (state : Governed) (publicationId : Uuid) : List PropagationRow :=
  sortedBy (·.surfaceId) (state.propagations.filter (·.publicationId = publicationId))

def listPropagationDeliveries (state : Governed) (propagationIds : List Uuid) : List DeliveryRow :=
  sortedBy (·.surfaceId) (state.deliveries.filter fun row => row.propagationId ∈ propagationIds)

def replayPublish (state : Governed) (existing : PublicationRow) : PublishReply :=
  let propagations := listPublicationPropagations state existing.id
  ⟨existing, propagations, listPropagationDeliveries state (propagations.map (·.id)), true⟩

/-- The rows of a command that no publication holds yet. -/
def publish (state : Governed) (command : DurablePublishCommand) (actorId : Uuid)
    (ids : PublishIds) (now : Timestamp) : Durable (PublishReply × Governed) := do
  let qualified ← qualify env state command now
  let previous := latestPublicationForObject state qualified.object.objectId
  let current := previous.map (·.result.updatedCandidate.targetBindings)
  let result ← (publishBindings repr command qualified.object current qualified.rows).mapError
    .publishing
  let shipped := shipment env ids.publication command qualified maxAttempts
  let (event, ledger) ← (appendDraftEvent state.ledger ids.event (publishEvent env ids.publication
    actorId command qualified (current.getD []) result shipped.desiredDigest)).mapError .ledger
  let publication := publicationRow env ids.publication actorId event.id command qualified result now
  require (∀ other ∈ state.publications, other.publishEventId ≠ publication.publishEventId)
    (.integrityError "governance_publications_publish_event_id_key")
  let publications ← state.publications.insert
    (.integrityError "governance_publications_pkey") publication
  let pages := state.pages.put
    { qualified.page with status := effectiveObjectStatus result qualified.page.status }
  let staged ← command.targetChannels.foldlM (stageChannel publication ids shipped)
    { state with pages := pages, publications := publications, ledger := ledger }
  return (⟨publication, command.targetChannels.map (publication.propagation ids shipped),
    command.targetChannels.map (publication.delivery ids shipped), false⟩, staged)

def applyDurablePublish (state : Governed) (command : DurablePublishCommand) (actorId : Uuid)
    (ids : PublishIds) (now : Timestamp) : Durable (PublishReply × Governed) :=
  match state.publications.find? (·.commandId = command.commandId) with
  | some existing => do
    require (existing.draftId = command.draftId ∧
        existing.requestFingerprint = command.requestFingerprint env)
      (conflict (s!"command_id={command.commandId} is already bound to a different publish " ++
        "request"))
    return (replayPublish state existing, state)
  | none => publish env repr maxAttempts state command actorId ids now

end Apply

end Cygnus.Publish
