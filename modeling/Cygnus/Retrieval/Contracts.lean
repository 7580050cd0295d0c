import Cygnus.Publish.Durable

/-! What governed reads see of publication and delivery: records that are projected from the
database for one request, and the trace they lead to. -/

namespace Cygnus.Retrieval

open Wiki Domain Publish Delivery Text Result

def nonBlank (message value : String) : Publishing NonBlank :=
  if h : strip value ≠ "" then .ok ⟨value, h⟩ else .error (.valueError message)

section Records

structure PublicationRecord where
  channel : NonBlank
  publicationState : String
  publicationRef : NonBlank
  propagationRefs : List NonBlank
  deliveryRefs : List NonBlank
  deriving DecidableEq

def PublicationRecord.make (channel publicationState publicationRef : String)
    (propagationRefs deliveryRefs : List String) : Publishing PublicationRecord := do
  let channel ← nonBlank "publication channel must not be blank" channel
  let publicationRef ← nonBlank "publication_ref must not be blank" publicationRef
  let propagationRefs ← propagationRefs.mapM
    (nonBlank "propagation_refs must not contain blank refs")
  let deliveryRefs ← deliveryRefs.mapM (nonBlank "delivery_refs must not contain blank refs")
  return ⟨channel, publicationState, publicationRef, propagationRefs, deliveryRefs⟩

structure ReviewHistoryItem where
  stage : String
  status : String
  deriving DecidableEq

/-- Current publication truth of one object. -/
structure PersistedObjectTruth where
  pageId : Uuid
  pageVersion : Nat
  approvalVersion : Nat
  sourceEvidenceComplete : Bool
  truthToken : NonBlank
  publicationRecords : List PublicationRecord
  reviewHistorySummary : List ReviewHistoryItem := []
  positive : 1 ≤ pageVersion ∧ 1 ≤ approvalVersion

def PersistedObjectTruth.make (pageId : Uuid) (pageVersion approvalVersion : Nat)
    (sourceEvidenceComplete : Bool) (truthToken : String)
    (publicationRecords : List PublicationRecord) (reviewHistorySummary : List ReviewHistoryItem) :
    Publishing PersistedObjectTruth := do
  if positive : 1 ≤ pageVersion ∧ 1 ≤ approvalVersion then
    let truthToken ← nonBlank "persisted object truth token must not be blank" truthToken
    return ⟨pageId, pageVersion, approvalVersion, sourceEvidenceComplete, truthToken,
      publicationRecords, reviewHistorySummary, positive⟩
  else throw (.valueError "persisted object truth versions must be positive")

/-- One delivery of the page to one channel, for one binding. -/
structure PersistedDeliveryRecord where
  pageId : Uuid
  publicationId : NonBlank
  propagationId : NonBlank
  deliveryId : NonBlank
  channel : NonBlank
  bindingKey : NonBlank
  bindingVersion : Nat
  audienceFilter : AudienceFilter
  propagationStatus : PropagationStatus
  deliveryStatus : DeliveryStatus
  propagationDigest : Option String
  desiredDigest : NonBlank
  acknowledgedDigest : Option String
  expectedPageVersion : Nat
  expectedApprovalVersion : Nat
  acknowledgedVersion : Option Int
  positive : 1 ≤ bindingVersion ∧ 1 ≤ expectedPageVersion ∧ 1 ≤ expectedApprovalVersion

/-- An exact signed acknowledgement of these versions. -/
def PersistedDeliveryRecord.isCurrentSynced (record : PersistedDeliveryRecord)
    (pageVersion approvalVersion bindingVersion : Nat) : Bool :=
  record.propagationStatus = .synced && record.deliveryStatus = .synced &&
    record.propagationDigest = some record.desiredDigest.1 &&
    record.acknowledgedDigest = some record.desiredDigest.1 &&
    record.expectedPageVersion = pageVersion &&
    record.expectedApprovalVersion = approvalVersion &&
    record.acknowledgedVersion = some (pageVersion : Int) &&
    record.bindingVersion = bindingVersion

def PersistedDeliveryRecord.matchesPublicationRecord (delivery : PersistedDeliveryRecord)
    (record : PublicationRecord) : Bool :=
  record.channel = delivery.channel &&
    record.publicationState = delivery.propagationStatus.value &&
    record.publicationRef = delivery.publicationId &&
    delivery.propagationId ∈ record.propagationRefs &&
    delivery.deliveryId ∈ record.deliveryRefs

end Records

section Evidence

inductive EvidenceSourceType
  | helpCenter
  | internalSop
  | resolvedTicket
  | releaseNote
  | incidentUpdate
  | chatTranscript
  | consumptionFeedback
  deriving DecidableEq

def EvidenceSourceType.value : EvidenceSourceType → String
  | .helpCenter => "help_center"
  | .internalSop => "internal_sop"
  | .resolvedTicket => "resolved_ticket"
  | .releaseNote => "release_note"
  | .incidentUpdate => "incident_update"
  | .chatTranscript => "chat_transcript"
  | .consumptionFeedback => "consumption_feedback"

/-- `_EVIDENCE_TYPE_BY_SLUG`: each value, the value with dashes, and the aliases. -/
def evidenceTypeBySlug : String → Option EvidenceSourceType
  | "help_center" | "help-center" | "faq" | "help" => some .helpCenter
  | "internal_sop" | "internal-sop" | "sop" => some .internalSop
  | "resolved_ticket" | "resolved-ticket" | "ticket" => some .resolvedTicket
  | "release_note" | "release-note" | "release-notes" => some .releaseNote
  | "incident_update" | "incident-update" | "incident" => some .incidentUpdate
  | "chat_transcript" | "chat-transcript" | "chat" => some .chatTranscript
  | "consumption_feedback" | "consumption-feedback" => some .consumptionFeedback
  | _ => none

structure SupportEvidence where
  evidenceId : NonBlank
  sourceType : EvidenceSourceType
  sourceRef : NonBlank
  title : NonBlank
  content : NonBlank
  audienceFilter : AudienceFilter
  freshnessState : FreshnessAttestation
  updatedAt : Option String
  revision : Option String := none

def rollupFreshness (states : List FreshnessAttestation) : FreshnessAttestation :=
  if .stale ∈ states then .stale
  else if states = [] ∨ .unknown ∈ states then .unknown
  else .fresh

def excerptRefFor (identifier content : String) (maxChars : Nat := 160) : String :=
  s!"{identifier}:0-{min content.length maxChars}"

end Evidence

section Traces

structure SourceTraceEvidenceRef where
  evidenceId : String
  scope : String
  sourceType : String
  sourceRef : String
  title : String
  freshness : FreshnessAttestation
  excerptRef : String
  updatedAt : Option String
  revision : Option String

structure SourceTrace where
  objectId : String
  version : Nat
  freshness : FreshnessAttestation
  truthToken : Option String := none
  evidenceRefs : List SourceTraceEvidenceRef := []
  publicationRecords : List PublicationRecord := []
  reviewHistorySummary : List ReviewHistoryItem := []
  blindSpots : List String := []

variable (env : Platform)

def isToken (c : Char) : Bool := c.isDigit || ('a' ≤ c && c ≤ 'z')

/-- The maximal runs of `[a-z0-9]+`. -/
def tokenize (value : String) : List String :=
  (((env.lower value).toList.splitOnP fun c => !isToken c).filter (· ≠ [])).map String.ofList

def slugify (value : String) : String :=
  let slug := "-".intercalate (tokenize env value)
  if slug = "" then "untitled" else slug

end Traces

end Cygnus.Retrieval
