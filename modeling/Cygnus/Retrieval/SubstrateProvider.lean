import Cygnus.Retrieval.SourceTrace

/-! The projection of the database that governed reads are served from. -/

namespace Cygnus.Retrieval

open Wiki Domain Governance Publish Delivery Text Result Sequence

section Rows

/-- A row of `sources` with the columns that an evidence record shows. -/
structure SourceDocument extends AttestedSource where
  title : Option String := none
  url : Option String := none
  fileName : Option String := none
  knowledgeTypeId : Option Uuid := none

structure KnowledgeType where
  id : Uuid
  slug : String

/-- A row of `governance_publications`, as far as a snapshot reads it. -/
structure PublicationTruth where
  id : Uuid
  pageId : Uuid
  approvalEventId : Uuid
  objectRef : String
  objectVersion : Nat
  effectiveObjectStatus : String
  approvalDigest : String
  scopeDigest : String
  publishedAt : Timestamp

def PublicationTruth.place (publication : PublicationTruth) : Timestamp ×ₗ Uuid :=
  toLex (publication.publishedAt, publication.id)

/-- A row of `governance_propagations`, its documents as they are stored. -/
structure PropagationTruth where
  id : Uuid
  publicationId : Uuid
  surfaceId : String
  desiredDigest : Option String
  status : PropagationStatus
  bindingRefs : Json

/-- A row of `governance_propagation_deliveries`, its documents as they are stored. -/
structure DeliveryTruth where
  id : Uuid
  propagationId : Uuid
  publicationId : Uuid
  surfaceId : String
  status : DeliveryStatus
  desiredDigest : String
  acknowledgedDigest : Option String
  expectedPageVersion : Nat
  expectedApprovalVersion : Nat
  expectedBindingVersions : Json
  acknowledgedVersion : Option Int

/-- The rows a snapshot is loaded from; pages, sources and types as the caller may see them. -/
structure SubstrateRows where
  pages : List GovernedPage := []
  sources : List SourceDocument := []
  knowledgeTypes : List KnowledgeType := []
  publications : List PublicationTruth := []
  bindings : List AudienceBinding := []
  propagations : List PropagationTruth := []
  deliveries : List DeliveryTruth := []
  approvalEvents : Table GovernanceLedgerEvent := []

end Rows

section Snapshot

structure SubstrateKnowledgeSnapshot where
  objects : List SupportObject := []
  evidence : List SupportEvidence := []
  persistedTruthByObject : Dict String PersistedObjectTruth := []
  deliveryRecordsByObject : Dict String (List PersistedDeliveryRecord) := []

variable (snapshot : SubstrateKnowledgeSnapshot)

def recordIsDeliveryEligible (record : PersistedDeliveryRecord) (truth : PersistedObjectTruth)
    (channel : String) (context : AudienceContext) : Bool :=
  record.channel.1 = channel && record.pageId = truth.pageId && truth.sourceEvidenceComplete &&
    record.audienceFilter.matchesContext context &&
    record.isCurrentSynced truth.pageVersion truth.approvalVersion record.bindingVersion &&
    truth.publicationRecords.any record.matchesPublicationRecord

/-- The truth of the object, where it is the truth of this object's page. -/
def SubstrateKnowledgeSnapshot.truth? (objectId : String) : Option PersistedObjectTruth :=
  (snapshot.persistedTruthByObject.lookup objectId).filter fun truth =>
    objectId = governedObjectRef truth.pageId

def SubstrateKnowledgeSnapshot.deliveryVerdict (objectId channel : String)
    (audienceContext : Option AudienceContext) : Bool :=
  match audienceContext with
  | none => false
  | some context =>
    if strip channel = "" then false
    else
      match snapshot.truth? objectId with
      | none => false
      | some truth =>
        ((snapshot.deliveryRecordsByObject.lookup objectId).getD []).any fun record =>
          recordIsDeliveryEligible record truth channel context

def SubstrateKnowledgeSnapshot.evidenceDeliveryVerdict (evidenceId channel : String)
    (audienceContext : Option AudienceContext) : Bool :=
  match audienceContext with
  | none => false
  | some context =>
    if strip channel = "" ∨ strip evidenceId = "" then false
    else
      snapshot.deliveryRecordsByObject.any fun item =>
        (snapshot.truth? item.1).any fun truth =>
          item.2.any fun record =>
            bindingScoped evidenceId record && recordIsDeliveryEligible record truth channel context

/-- The mappings of a resolver over the snapshot; of two values under one key the last counts. -/
def SubstrateKnowledgeSnapshot.resolver : SourceTraceResolver where
  objectById id := snapshot.objects.reverse.find? (·.objectId = id)
  evidenceById id := snapshot.evidence.reverse.find? (·.evidenceId.1 = id)
  truthByObject id := snapshot.persistedTruthByObject.lookup id
  deliveryRecordsByObject id := (snapshot.deliveryRecordsByObject.lookup id).getD []

end Snapshot

section Load

variable (env : Platform)

/-- `left or right`, where the left may be missing. -/
def orElseText (left : Option String) (right : String) : String :=
  (left.filter (· ≠ "")).getD right

def sourceToSupportEvidence (now : Timestamp) (source : SourceDocument)
    (knowledgeTypeSlug : Option String) (evidenceId : String) (audienceFilter : AudienceFilter) :
    Publishing SupportEvidence := do
  let slug := env.lower (strip (knowledgeTypeSlug.getD ""))
  let fallback := s!"source:{source.id.text}"
  let evidenceId ← nonBlank "evidence_id must not be blank" evidenceId
  let sourceRef ← nonBlank "source_ref must not be blank"
    (orElseText source.url (orElseText source.fileName fallback))
  let title ← nonBlank "title must not be blank"
    (orText (strip (source.title.getD "")) (orElseText source.fileName fallback))
  let content ← nonBlank "content must not be blank"
    (orText (excerpt (source.fullText.getD "")) (orElseText source.title fallback))
  let updatedAt := env.isoformat (source.freshnessAttestedAt.getD source.updatedAt)
  require (strip updatedAt ≠ "") (.valueError "updated_at must not be blank when provided")
  return {
    evidenceId, sourceType := (evidenceTypeBySlug slug).getD .internalSop, sourceRef, title, content,
    audienceFilter, freshnessState := resolveSourceFreshness source.toAttestedSource now,
    updatedAt := some updatedAt }

def approvalMatchesCurrentPublication (publication : PublicationTruth) (page : GovernedPage)
    (event : GovernanceLedgerEvent) : Bool :=
  (event.eventType = .approved || event.eventType = .stateImported) &&
    (Json.lookup event.payload "page_id").eq (.str page.id.text) &&
    (Json.lookup event.payload "page_version").eq (.int page.version) &&
    (Json.lookup event.payload "approval_digest").eq (.str publication.approvalDigest)

/-- A later entry for the key counts, and entries without a positive version do not. -/
def expectedBindingVersion (raw : Json) (bindingKey : String) : Option Int :=
  match raw with
  | .list items => (items.filterMap fun item =>
      match item with
      | .object fields =>
        if (Json.lookup fields "binding_key").asStr = some bindingKey then
          (Json.lookup fields "version").asInt.filter (1 ≤ ·)
        else none
      | _ => none).getLast?
  | _ => none

def audienceFilterDict (audience : AudienceFilter) : Json :=
  let texts (dimension : Dimension) : Json := .list (dimension.values.map .str)
  .object [
    ("visibility", .str audience.visibility.value), ("brands", texts audience.brands),
    ("product_lines", texts audience.productLines), ("plans", texts audience.plans),
    ("regions", texts audience.regions), ("languages", texts audience.languages),
    ("product_versions", texts audience.productVersions), ("is_global", .bool audience.isGlobal)]

def bindingIsReferenced (binding : AudienceBinding) (raw : Json) : Publishing Bool := do
  let audience ← audienceFilterFromBinding binding
  return match raw with
    | .list items => items.any fun item =>
        match item with
        | .object fields => (Json.lookup fields "channel").eq (.str binding.channel) &&
            (Json.lookup fields "audience_filter").eq (audienceFilterDict audience)
        | _ => false
    | _ => false

def makeDeliveryRecord (page : GovernedPage) (publication : PublicationTruth)
    (binding : AudienceBinding) (propagation : PropagationTruth) (delivery : DeliveryTruth) :
    Publishing PersistedDeliveryRecord := do
  let audienceFilter ← audienceFilterFromBinding binding
  let blank (label : String) := s!"persisted delivery {label} must not be blank"
  let publicationId ← nonBlank (blank "publication_id") publication.id.text
  let propagationId ← nonBlank (blank "propagation_id") propagation.id.text
  let deliveryId ← nonBlank (blank "delivery_id") delivery.id.text
  let channel ← nonBlank (blank "channel") binding.channel
  let bindingKey ← nonBlank (blank "binding_key") binding.bindingKey
  let desiredDigest ← nonBlank (blank "desired_digest") delivery.desiredDigest
  if positive : 1 ≤ binding.version ∧ 1 ≤ delivery.expectedPageVersion ∧
      1 ≤ delivery.expectedApprovalVersion then
    return {
      pageId := page.id, publicationId, propagationId, deliveryId, channel, bindingKey,
      bindingVersion := binding.version, audienceFilter, propagationStatus := propagation.status,
      deliveryStatus := delivery.status, propagationDigest := propagation.desiredDigest,
      desiredDigest, acknowledgedDigest := delivery.acknowledgedDigest,
      expectedPageVersion := delivery.expectedPageVersion,
      expectedApprovalVersion := delivery.expectedApprovalVersion,
      acknowledgedVersion := delivery.acknowledgedVersion, positive }
  else throw (.valueError "persisted delivery versions must be positive")

variable (rows : SubstrateRows)

/-- The records of one binding, where its delivery is the one the publication expects. -/
def bindingRecords (page : GovernedPage) (publication : PublicationTruth) (binding : AudienceBinding) :
    Publishing (Option (PersistedDeliveryRecord × PublicationRecord)) :=
  match rows.propagations.reverse.find? fun propagation =>
      propagation.publicationId = publication.id && propagation.surfaceId = binding.channel with
  | none => return none
  | some propagation => do
    let referenced ← bindingIsReferenced binding propagation.bindingRefs
    if !referenced then return none
    match rows.deliveries.reverse.find? (·.propagationId = propagation.id) with
    | none => return none
    | some delivery =>
      if delivery.publicationId ≠ publication.id ∨ delivery.surfaceId ≠ binding.channel ∨
          expectedBindingVersion delivery.expectedBindingVersions binding.bindingKey ≠
            some (binding.version : Int) then return none
      let record ← makeDeliveryRecord page publication binding propagation delivery
      let publicationRecord ← PublicationRecord.make binding.channel propagation.status.value
        publication.id.text [propagation.id.text] [delivery.id.text]
      return some (record, publicationRecord)

/-- The publication of the page, when the latest one is valid for the page as it is. -/
def currentPublication (page : GovernedPage) : Option (PublicationTruth × GovernanceLedgerEvent) := do
  let publication ← (rows.publications.filter (·.pageId = page.id)).argmax (·.place)
  let event ← rows.approvalEvents.get publication.approvalEventId
  guard (publication.objectRef = governedObjectRef page.id ∧
    publication.objectVersion = page.version ∧
    publication.effectiveObjectStatus ∈ ["mature", "evergreen"] ∧
    page.status ∈ ["mature", "evergreen"] ∧ approvalMatchesCurrentPublication publication page event)
  return (publication, event)

def activeBindings (page : GovernedPage) : List AudienceBinding :=
  rows.bindings.filter fun binding => binding.pageId = page.id &&
    binding.objectRef = governedObjectRef page.id && binding.lifecycleState = .active

def pageSources (page : GovernedPage) : List SourceDocument :=
  page.sourceIds.eraseDups.filterMap fun id => rows.sources.reverse.find? (·.id = id)

def sourceEvidenceComplete (page : GovernedPage) : Bool :=
  page.sourceIds ≠ [] && (pageSources rows page).length = page.sourceIds.eraseDups.length &&
    (pageSources rows page).all (·.status = "ready")

def pageEvidence (now : Timestamp) (page : GovernedPage) (records : List PersistedDeliveryRecord) :
    Publishing (List SupportEvidence) :=
  (records.flatMap fun record =>
      ((pageSources rows page).filter (·.status = "ready")).map fun source => (record, source)).mapM
    fun item => sourceToSupportEvidence env now item.2
      (item.2.knowledgeTypeId.bind fun id =>
        (rows.knowledgeTypes.reverse.find? (·.id = id)).map KnowledgeType.slug)
      s!"ev-page-{page.id.text}-src-{item.2.id.text}-binding-{item.1.bindingKey.1}"
      item.1.audienceFilter

/-- Binding keys and source ids are unique, so each of the three orders is decided before its key
ends. -/
def truthTokenPayload (now : Timestamp) (page : GovernedPage) (publication : PublicationTruth)
    (approvalVersion : Nat) (bindings : List AudienceBinding)
    (records : List PersistedDeliveryRecord) (sources : List SourceDocument) (complete : Bool) :
    JsonObject :=
  let lifecycle (state : AudienceBindingLifecycle) := match state with
    | .active => "active" | .held => "held" | .removed => "removed"
  [("page_id", .str page.id.text), ("page_version", .int page.version),
    ("publication_id", .str publication.id.text),
    ("approval_digest", .str publication.approvalDigest),
    ("approval_version", .int approvalVersion), ("scope_digest", .str publication.scopeDigest),
    ("source_ids", sortedTexts (page.sourceIds.eraseDups.map Uuid.text)),
    ("source_evidence_complete", .bool complete),
    ("bindings", .list ((sortedBy AudienceBinding.bindingKey bindings).map fun binding =>
      .list [.str binding.bindingKey, .int binding.version, .str (lifecycle binding.lifecycleState)])),
    ("deliveries", .list ((sortedBy (fun record : PersistedDeliveryRecord =>
        [record.propagationId.1, record.deliveryId.1, record.channel.1, record.bindingKey.1])
        records).map fun record =>
      .list [.str record.pageId.text, .str record.publicationId.1, .str record.propagationId.1,
        .str record.deliveryId.1, .str record.channel.1, .str record.bindingKey.1,
        .int record.bindingVersion, .str record.propagationStatus.value,
        .str record.deliveryStatus.value, Json.ofOption .str record.propagationDigest,
        .str record.desiredDigest.1, Json.ofOption .str record.acknowledgedDigest,
        .int record.expectedPageVersion, Json.ofOption .int record.acknowledgedVersion,
        .int record.expectedApprovalVersion])),
    ("sources", .list ((sortedBy (fun source : SourceDocument => source.id.text) sources).map
      fun source => .list [.str source.id.text, .str source.status,
        .str (resolveSourceFreshness source.toAttestedSource now).value,
        Json.ofOption (fun time => .str (env.isoformat time)) source.freshnessAttestedAt,
        Json.ofOption (fun time => .str (env.isoformat time)) source.freshnessExpiresAt,
        .str (env.isoformat source.updatedAt)]))]

def supportObject (page : GovernedPage) (object : KnowledgeObject) (evidenceIds : List String)
    (audiences : List AudienceFilter) : SupportObject :=
  { object with
    lifecycleState := if page.status ∈ ["mature", "evergreen"] then .published else .draft,
    supportedAudiences := audiences, evidenceIds := evidenceIds.map strip }

/-- What one page adds to a snapshot. -/
structure PageProjection where
  object : SupportObject
  evidence : List SupportEvidence
  truth : PersistedObjectTruth
  records : List PersistedDeliveryRecord

def projectPage (now : Timestamp) (page : GovernedPage) : Publishing (Option PageProjection) :=
  match currentPublication rows page with
  | none => return none
  | some (publication, event) => do
    let pairs ← (activeBindings rows page).mapM (bindingRecords rows page publication)
    let records := pairs.reduceOption.map Prod.fst
    if records = [] then return none
    let complete := sourceEvidenceComplete rows page
    let evidence ← pageEvidence env rows now page records
    let evidenceIds := evidence.map fun item => item.evidenceId.1
    let projected ← wikiPageToKnowledgeObject env page evidenceIds
    match projected with
    | none => return none
    | some object =>
      let truth ← PersistedObjectTruth.make page.id page.version event.sequence complete
        (canonicalSha256 env (truthTokenPayload env now page publication event.sequence
          (activeBindings rows page) records (pageSources rows page) complete))
        (pairs.reduceOption.map Prod.snd) [⟨"approval", "approved"⟩, ⟨"publication", "published"⟩]
      return some {
        object := supportObject page object evidenceIds
          (records.map PersistedDeliveryRecord.audienceFilter).eraseDups,
        evidence, truth, records }

/-- The values are assigned page by page. -/
def SubstrateKnowledgeSnapshot.ofProjections (projections : List PageProjection) :
    SubstrateKnowledgeSnapshot where
  objects := projections.map PageProjection.object
  evidence := projections.flatMap PageProjection.evidence
  persistedTruthByObject := Dict.ofList (projections.map fun page =>
    (page.object.objectId, page.truth))
  deliveryRecordsByObject := Dict.ofList (projections.map fun page =>
    (page.object.objectId, page.records))

def loadSubstrateSnapshot (now : Timestamp) : Publishing SubstrateKnowledgeSnapshot := do
  let projections ← rows.pages.mapM (projectPage env rows now)
  return .ofProjections projections.reduceOption

end Load

end Cygnus.Retrieval
