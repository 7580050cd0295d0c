import Cygnus.Delivery.Channel
import Cygnus.Governance.ApprovalGuards
import Cygnus.Retrieval.KnowledgeObject

/-! Durable publication: the envelope a preview compiles for a governance signal, and the command
that publishes it. Each function is one database transaction. -/

namespace Cygnus.Publish

open Wiki Domain Governance Retrieval Text Result Sequence
open Delivery (GovernancePublication GovernancePropagation GovernancePropagationDelivery)

def FreshnessAttestation.value : FreshnessAttestation → String
  | .fresh => "fresh"
  | .stale => "stale"
  | .unknown => "unknown"

section Rows

/-- A row of `sources` with its freshness attestation. -/
structure AttestedSource extends Source where
  freshnessState : String := "unknown"
  freshnessActorId : Option Uuid := none
  freshnessReason : Option String := none
  freshnessAttestedAt : Option Timestamp := none
  freshnessExpiresAt : Option Timestamp := none
  updatedAt : Timestamp := 0

structure GovernedDraft extends WikiPageDraft where
  createdAt : Timestamp := 0

inductive PressureSignalType
  | ticketCluster
  | humanRewrite
  | sourceFailure
  | releaseDelta
  | incidentDelta
  | lowRating
  | staleAnswer
  deriving DecidableEq

def isFeedbackDerivedSignalType : PressureSignalType → Bool
  | .lowRating | .staleAnswer => true
  | _ => false

inductive SignalStatus
  | active
  | resolved
  | dismissed
  deriving DecidableEq

def SignalStatus.value : SignalStatus → String
  | .active => "active"
  | .resolved => "resolved"
  | .dismissed => "dismissed"

structure GovernanceSignal where
  id : Uuid
  signalType : PressureSignalType
  objectRef : String
  pageId : Option Uuid
  freshness : FreshnessAttestation
  reason : String
  status : SignalStatus := .active
  deriving DecidableEq

/-- A row of `governance_publications`; `result` stands for the columns it is spread over. -/
structure PublicationRow extends GovernancePublication where
  pageId : Uuid
  approvalEventId : Uuid
  publishEventId : Uuid
  approvalDigest : String
  scopeDigest : String
  objectType : KnowledgeObjectType
  actionKey : String
  targetChannels : List String
  previousObjectStatus : String
  effectiveObjectStatus : String
  result : PublishGovernanceResult
  publishedById : Uuid

structure PropagationRow extends GovernancePropagation where
  channelRefs : List String
  bindingRefs : List PublishBinding

structure DeliveryRow extends GovernancePropagationDelivery where
  commandId : String
  idempotencyKey : String
  canonicalPayload : JsonObject
  expectedApprovalVersion : Nat
  expectedBindingVersions : List JsonObject
  actorId : Uuid

instance : Row AttestedSource := ⟨fun source => source.id⟩
instance : Row GovernedDraft := ⟨fun draft => draft.id⟩
instance : Row GovernanceSignal := ⟨GovernanceSignal.id⟩
instance : Row PublicationRow := ⟨fun row => row.id⟩
instance : Row PropagationRow := ⟨fun row => row.id⟩
instance : Row DeliveryRow := ⟨fun row => row.id⟩

structure Governed where
  pages : Table GovernedPage := []
  drafts : Table GovernedDraft := []
  sources : Table AttestedSource := []
  bindings : List AudienceBinding := []
  signals : Table GovernanceSignal := []
  ledger : Table GovernanceLedgerEvent := []
  publications : Table PublicationRow := []
  propagations : Table PropagationRow := []
  deliveries : Table DeliveryRow := []

end Rows

inductive DurableError
  | publishing (error : PublishError)
  | ledger (error : ReviewError)
  | integrityError (constraint : String)
  deriving DecidableEq

abbrev Durable := Except DurableError

def denied (message : String) : DurableError := .publishing (.durablePublishDenied message)

def conflict (message : String) : DurableError := .publishing (.durablePublishConflict message)

section Freshness

variable (env : Platform)

/-- Database timestamps are aware, so a missing field is the only one that is not. -/
def resolveSourceFreshness (source : AttestedSource) (now : Timestamp) : FreshnessAttestation :=
  match FreshnessAttestation.parse (strip source.freshnessState) with
  | none => .unknown
  | some .stale => .stale
  | some .unknown => .unknown
  | some .fresh =>
    match source.freshnessActorId, source.freshnessReason, source.freshnessAttestedAt,
      source.freshnessExpiresAt with
    | some _, some reason, some attestedAt, some expiresAt =>
      if strip reason = "" ∨ expiresAt ≤ now ∨ attestedAt < source.updatedAt then .unknown
      else .fresh
    | _, _, _, _ => .unknown

def freshnessViolations (sources : List AttestedSource) (now : Timestamp) : List String :=
  sources.filterMap fun source =>
    match resolveSourceFreshness source now with
    | .fresh => none
    | state => some s!"source={source.id.text} freshness={state.value}"

def isoTime (time : Option Timestamp) : String := time.elim "" env.isoformat

def sourceScopeState (now : Timestamp) (source : AttestedSource) : Uuid × String :=
  (source.id, "|".intercalate [source.status, (resolveSourceFreshness source now).value,
    source.freshnessState, source.freshnessActorId.elim "None" Uuid.text,
    source.freshnessReason.getD "None", isoTime env source.freshnessAttestedAt,
    isoTime env source.freshnessExpiresAt, env.isoformat source.updatedAt])

def orderedSourceScopeState (now : Timestamp) (sources : List AttestedSource) :
    List (Uuid × String) :=
  (sortedBy (fun source : AttestedSource => source.id.text) sources).map (sourceScopeState env now)

end Freshness

section Digests

variable (env : Platform)

def sortedTexts (values : List String) : Json := .list ((sortedBy id values).map .str)

def bindingScopePayload (row : AudienceBinding) : JsonObject := [
  ("binding_key", .str row.bindingKey), ("version", .int row.version),
  ("channel", .str row.channel), ("visibility", .str row.visibility.value),
  ("brands", sortedTexts row.brands), ("product_lines", sortedTexts row.productLines),
  ("plans", sortedTexts row.plans), ("regions", sortedTexts row.regions),
  ("languages", sortedTexts row.languages), ("product_versions", sortedTexts row.productVersions)]

/-- What a preview signs and an apply compares. -/
structure PublishScope where
  approvalRef : Uuid
  approvalDigest : String
  objectVersion : Nat
  bindingRows : List AudienceBinding
  sourceState : List (Uuid × String)
  signalFreshness : String
  actionKey : String
  targetChannels : List String
  signalId : Uuid
  signalStatus : String

def publishScopeDigest (scope : PublishScope) : Publishing String := do
  require (strip scope.actionKey ≠ "") (.valueError "action_key must not be blank")
  require (strip scope.signalFreshness ≠ "") (.valueError "signal_freshness must not be blank")
  require (strip scope.signalStatus ≠ "") (.valueError "signal_status must not be blank")
  let channels ← normalizeLabelled "target channel" scope.targetChannels
  require (channels ≠ []) (.valueError "target_channels must not be empty")
  let bindings := sortedBy AudienceBinding.bindingKey
    (scope.bindingRows.filter fun row => row.channel ∈ channels)
  let sources := sortedBy (fun item => item.1.text) scope.sourceState
  return canonicalSha256 env [
    ("approval_ref", .str scope.approvalRef.text), ("approval_digest", .str scope.approvalDigest),
    ("object_version", .int scope.objectVersion),
    ("bindings", .list (bindings.map fun row => .object (bindingScopePayload row))),
    ("sources", .list (sources.map fun item =>
      .object [("source_id", .str item.1.text), ("status", .str item.2)])),
    ("signal_freshness", .str (strip scope.signalFreshness)),
    ("signal_id", .str scope.signalId.text), ("signal_status", .str (strip scope.signalStatus)),
    ("action_key", .str (strip scope.actionKey)), ("target_channels", sortedTexts channels)]

def DurablePublishCommand.requestFingerprint (command : DurablePublishCommand) : String :=
  canonicalSha256 env [
    ("draft_id", .str command.draftId.text), ("approval_ref", .str command.approvalRef.text),
    ("approval_digest", .str command.approvalDigest), ("scope_digest", .str command.scopeDigest),
    ("signal_id", .str command.signalId.text),
    ("signal_freshness", .str command.signalFreshness.value),
    ("action_key", .str command.actionKey),
    ("target_channels", .list (command.targetChannels.map .str)),
    ("expected_version", .int command.expectedVersion),
    ("reason", Json.ofOption .str command.reason)]

end Digests

section Queries

variable (state : Governed)

def isApproval (draftId : Uuid) (event : GovernanceLedgerEvent) : Bool :=
  event.draftId = draftId && event.toState = .approved &&
    (event.eventType = .approved || event.eventType = .stateImported)

/-- The digest an approval carries. -/
def storedApprovalDigest (approval : GovernanceLedgerEvent) : Option String :=
  match Json.lookup approval.payload "approval_digest" with
  | .str digest => if digest = "" then none else some digest
  | _ => none

def listActiveBindings (pageId : Uuid) (objectRef : String) : List AudienceBinding :=
  sortedBy AudienceBinding.sortKey (state.bindings.filter fun row =>
    row.pageId = pageId ∧ row.objectRef = objectRef ∧ row.lifecycleState = .active)

def latestPublicationForObject (objectRef : String) : Option PublicationRow :=
  (state.publications.filter (·.objectRef = objectRef)).argmax (·.place)

/-- The order by review time with none last, creation time and id. -/
def GovernedDraft.place (draft : GovernedDraft) : WithTop Timestampᵒᵈ ×ₗ Timestampᵒᵈ ×ₗ Uuid :=
  toLex (draft.reviewedAt.elim ⊤ fun time => ↑(OrderDual.toDual time),
    toLex (OrderDual.toDual draft.createdAt, draft.id))

def latestApprovedDraft (pageId : Uuid) : Option GovernedDraft :=
  (state.drafts.filter fun draft => draft.pageId = some pageId ∧ draft.status = .approved).argmin
    GovernedDraft.place

def latestApproval (draftId : Uuid) : Option GovernanceLedgerEvent :=
  (state.ledger.filter (isApproval draftId)).argmax GovernanceLedgerEvent.sequence

def getApprovalEvent (draftId approvalRef : Uuid) : Option GovernanceLedgerEvent :=
  state.ledger.find? fun event => event.id = approvalRef && isApproval draftId event

end Queries

section Preview

variable (env : Platform)

structure DurableEnvelope where
  draftId : Uuid
  approvalRef : Uuid
  approvalDigest : String
  scopeDigest : String
  signalId : Uuid
  signalFreshness : String
  commandId : String
  actionKey : String
  targetChannels : List String
  reason : String
  expectedVersion : Nat

/-- The command an envelope is executed as. -/
def DurableEnvelope.command (envelope : DurableEnvelope) : Publishing DurablePublishCommand :=
  DurablePublishCommand.make envelope.draftId envelope.approvalRef envelope.approvalDigest
    envelope.scopeDigest envelope.signalId envelope.signalFreshness envelope.commandId
    envelope.actionKey envelope.targetChannels envelope.expectedVersion (some envelope.reason)

def selectedAction (actionKey : Option String) (previous : Option PublicationRow) : String :=
  match actionKey with
  | some key => strip key
  | none => if previous.isSome then "republish" else "publish"

/-- The digest in the command id of a preview. -/
def previewIdentity (scope : PublishScope) (scopeDigest : String) (draftId : Uuid) : String :=
  canonicalSha256 env [
    ("signal_id", .str scope.signalId.text), ("draft_id", .str draftId.text),
    ("approval_ref", .str scope.approvalRef.text), ("approval_digest", .str scope.approvalDigest),
    ("scope_digest", .str scopeDigest), ("object_version", .int scope.objectVersion),
    ("signal_freshness", .str scope.signalFreshness), ("signal_status", .str scope.signalStatus),
    ("action_key", .str scope.actionKey),
    ("bindings", .list (scope.bindingRows.map fun row =>
      .object [("binding_key", .str row.bindingKey), ("version", .int row.version)]))]

/-- The body of `durable_publish_command_for_signal`: an error `none` is its answer `None`. -/
def compileEnvelope (state : Governed) (signal : GovernanceSignal) (actionKey : Option String)
    (now : Timestamp) : Except (Option PublishError) DurableEnvelope := do
  require (isFeedbackDerivedSignalType signal.signalType = false) none
  let pageId ← demand signal.pageId none
  require (signal.status = .active) none
  let page ← demand (state.pages.get pageId) none
  let projected ← (wikiPageToKnowledgeObject env page []).mapError some
  let object ← demand projected none
  require (object.objectId = signal.objectRef) none
  let sourceIds := page.sourceIds.eraseDups
  require (sourceIds ≠ []) none
  let sources ← demand (sourceIds.mapM state.sources.get) none
  require (∀ source ∈ sources, source.status = "ready") none
  let draft ← demand (latestApprovedDraft state page.id) none
  let approval ← demand (latestApproval state draft.id) none
  let approvalDigest ← demand (storedApprovalDigest approval) none
  let rows := listActiveBindings state page.id signal.objectRef
  require (rows ≠ []) none
  let targetChannels := (rows.map AudienceBinding.channel).eraseDups
  let previous := latestPublicationForObject state signal.objectRef
  let action := selectedAction actionKey previous
  require ((DurableAction.parse action).isSome) none
  require (¬ (previous = none ∧ action ≠ "publish")) none
  let scope : PublishScope :=
    ⟨approval.id, approvalDigest, page.version, rows, orderedSourceScopeState env now sources,
      signal.freshness.value, action, targetChannels, signal.id, signal.status.value⟩
  let scopeDigest ← (publishScopeDigest env scope).mapError some
  return ⟨draft.id, approval.id, approvalDigest, scopeDigest, signal.id, signal.freshness.value,
    s!"publish-preview:{previewIdentity env scope scopeDigest draft.id}", action, targetChannels,
    signal.reason, page.version⟩

def durablePublishCommandForSignal (state : Governed) (signal : GovernanceSignal)
    (actionKey : Option String) (now : Timestamp) : Publishing (Option DurableEnvelope) :=
  match compileEnvelope env state signal actionKey now with
  | .ok envelope => .ok (some envelope)
  | .error none => .ok none
  | .error (some error) => .error error

end Preview

end Cygnus.Publish
