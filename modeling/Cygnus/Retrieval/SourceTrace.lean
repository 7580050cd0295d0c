import Cygnus.Retrieval.Contracts

/-! The trace of an object: the evidence one reader may see on one channel, and the publications
that put it there. -/

namespace Cygnus.Retrieval

open Wiki Domain Publish Text

section Objects

inductive LifecycleState
  | draft
  | inReview
  | approved
  | published
  | superseded
  | archived
  deriving DecidableEq

def LifecycleState.value : LifecycleState → String
  | .draft => "draft"
  | .inReview => "in_review"
  | .approved => "approved"
  | .published => "published"
  | .superseded => "superseded"
  | .archived => "archived"

structure AudienceVariant where
  audienceFilter : AudienceFilter
  label : Option NonBlank := none
  evidenceIds : List String := []

/-- A support object with what a trace reads of it; only an answer card has variants and targets. -/
structure SupportObject extends KnowledgeObject where
  lifecycleState : LifecycleState
  supportedAudiences : List AudienceFilter := []
  evidenceIds : List String
  audienceVariants : List AudienceVariant := []
  publishTargets : List NonBlank := []

structure EvidenceLink where
  evidenceId : String
  scope : String
  deriving DecidableEq

def audienceContextAllowed (context : AudienceContext) (audiences : List AudienceFilter) : Bool :=
  (audiences.filter fun audience => audience.matchesContext context) ≠ []

theorem audienceContextAllowed_singleton {context : AudienceContext} {audience : AudienceFilter} :
    audienceContextAllowed context [audience] = audience.matchesContext context := by
  cases h : audience.matchesContext context <;> simp [audienceContextAllowed, h]

variable (env : Platform)

def variantScope (index : Nat) (variant : AudienceVariant) : String :=
  let label := variant.label.elim s!"variant-{index}" Subtype.val
  s!"variant:{slugify env label}"

def collectEvidenceLinks (object : SupportObject) (context : Option AudienceContext) :
    List EvidenceLink :=
  let base := object.evidenceIds.map fun id => EvidenceLink.mk id "base"
  let variants := if object.objectType = .answerCard then object.audienceVariants else []
  let variant := (variants.zipIdx 1).flatMap fun item =>
    if context.all fun context => audienceContextAllowed context [item.1.audienceFilter] then
      item.1.evidenceIds.map fun id => EvidenceLink.mk id (variantScope env item.2 item.1)
    else []
  (base ++ variant).eraseDups

end Objects

section Resolver

/-- `SourceTraceResolver`, with its mappings as lookups. -/
structure SourceTraceResolver where
  objectById : String → Option SupportObject
  evidenceById : String → Option SupportEvidence
  truthByObject : String → Option PersistedObjectTruth
  deliveryRecordsByObject : String → List PersistedDeliveryRecord

/-- `evidence_id.endswith("-binding-" + binding_key)`. -/
def bindingScoped (evidenceId : String) (record : PersistedDeliveryRecord) : Bool :=
  ("-binding-" ++ record.bindingKey.1).toList.isSuffixOf evidenceId.toList

def SourceTrace.denied (object : SupportObject) (truth : PersistedObjectTruth) (blindSpot : String)
    (publicationRecords : List PublicationRecord := []) : SourceTrace :=
  { objectId := object.objectId, version := truth.pageVersion, freshness := .unknown,
    truthToken := some truth.truthToken.1, publicationRecords,
    reviewHistorySummary := truth.reviewHistorySummary, blindSpots := [blindSpot] }

/-- `_publication_records_for`, for objects that no database holds. -/
def publicationRecordsFor (object : SupportObject) (version : Nat) : Publishing (List PublicationRecord) :=
  object.publishTargets.mapM fun channel =>
    PublicationRecord.make channel.1 object.lifecycleState.value
      s!"fixture-pub:{object.objectId}:{channel.1}:v{version}"
      [s!"fixture-prop:{object.objectId}:{channel.1}:v{version}"] []

def evidenceRef (link : EvidenceLink) (evidence : SupportEvidence) : SourceTraceEvidenceRef :=
  { evidenceId := evidence.evidenceId.1, scope := link.scope,
    sourceType := evidence.sourceType.value, sourceRef := evidence.sourceRef.1,
    title := evidence.title.1, freshness := evidence.freshnessState,
    excerptRef := excerptRefFor evidence.evidenceId.1 evidence.content.1,
    updatedAt := evidence.updatedAt, revision := evidence.revision }

/-- What one link contributes: a reference, a blind spot, or nothing. -/
inductive LinkOutcome
  | omitted
  | missing (evidenceId : String)
  | readable (ref : SourceTraceEvidenceRef)

variable (env : Platform) (resolver : SourceTraceResolver)

def SourceTraceResolver.resolveLink (traceRecords : List PersistedDeliveryRecord)
    (context : Option AudienceContext) (link : EvidenceLink) : LinkOutcome :=
  if traceRecords ≠ [] ∧ ¬ traceRecords.any (bindingScoped link.evidenceId) then .omitted
  else
    match resolver.evidenceById link.evidenceId with
    | none => .missing link.evidenceId
    | some evidence =>
      if context.all fun context => audienceContextAllowed context [evidence.audienceFilter] then
        .readable (evidenceRef link evidence)
      else .omitted

def LinkOutcome.ref? : LinkOutcome → Option SourceTraceEvidenceRef
  | .readable ref => some ref
  | _ => none

def LinkOutcome.blindSpot? : LinkOutcome → Option String
  | .missing evidenceId => some s!"missing_evidence:{evidenceId}"
  | _ => none

/-- The end of `build_trace_for_object`: the links that are readable through these records. -/
def SourceTraceResolver.traceLinks (object : SupportObject) (context : Option AudienceContext)
    (truth : Option PersistedObjectTruth) (traceRecords : List PersistedDeliveryRecord)
    (publicationRecords : List PublicationRecord) : SourceTrace :=
  let links := collectEvidenceLinks env object context
  let outcomes := links.map (resolver.resolveLink traceRecords context)
  let refs := outcomes.filterMap LinkOutcome.ref?
  { objectId := object.objectId,
    version := truth.elim 1 PersistedObjectTruth.pageVersion,
    truthToken := truth.map fun truth => truth.truthToken.1,
    freshness := rollupFreshness (refs.map SourceTraceEvidenceRef.freshness),
    evidenceRefs := refs, publicationRecords,
    reviewHistorySummary := truth.elim [⟨"lifecycle", object.lifecycleState.value⟩]
      PersistedObjectTruth.reviewHistorySummary,
    blindSpots := (if links = [] then ["object_has_no_evidence"] else []) ++
      outcomes.filterMap LinkOutcome.blindSpot? ++
      (if links ≠ [] ∧ refs.isEmpty then ["object_has_no_readable_evidence"] else []) ++
      if refs.any (·.freshness = .stale) then ["stale_evidence_present"] else [] }

/-- The records of the channel that match the reader. -/
def matchingRecords (records : List PersistedDeliveryRecord) (context : Option AudienceContext)
    (channel : Option String) : List PersistedDeliveryRecord :=
  records.filter fun record =>
    channel = some record.channel.1 && context.any record.audienceFilter.matchesContext

def currentRecords (truth : PersistedObjectTruth) (records : List PersistedDeliveryRecord) :
    List PersistedDeliveryRecord :=
  records.filter fun record =>
    record.pageId = truth.pageId &&
      record.isCurrentSynced truth.pageVersion truth.approvalVersion record.bindingVersion

def matchedPublications (truth : PersistedObjectTruth) (records : List PersistedDeliveryRecord) :
    List PublicationRecord :=
  (truth.publicationRecords.filter fun publication =>
    records.any (·.matchesPublicationRecord publication)).eraseDups

def publishedRecords (records : List PersistedDeliveryRecord)
    (publications : List PublicationRecord) : List PersistedDeliveryRecord :=
  records.filter fun record => publications.any record.matchesPublicationRecord

def SourceTraceResolver.buildTraceForObject (object : SupportObject)
    (context : Option AudienceContext) (channel : Option String) : Publishing SourceTrace :=
  let records := matchingRecords (resolver.deliveryRecordsByObject object.objectId) context channel
  match resolver.truthByObject object.objectId with
  | none => do
    let publications ← publicationRecordsFor object 1
    return resolver.traceLinks env object context none records publications
  | some truth =>
    if object.objectId ≠ governedObjectRef truth.pageId then
      return .denied object truth "object_identity_mismatch"
    else if context = none ∨ channel = none then
      return .denied object truth "audience_context_and_channel_required"
    else if records = [] then
      return .denied object truth "channel_or_audience_not_bound"
    else
      let current := currentRecords truth records
      let publications := matchedPublications truth current
      let traced := publishedRecords current publications
      if current = [] then return .denied object truth "signed_delivery_not_current"
      else if traced = [] then return .denied object truth "publication_delivery_trace_mismatch"
      else if !truth.sourceEvidenceComplete then
        return .denied object truth "source_evidence_incomplete" publications
      else return resolver.traceLinks env object context (some truth) traced publications

end Resolver

end Cygnus.Retrieval
