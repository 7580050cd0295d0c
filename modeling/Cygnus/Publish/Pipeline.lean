import Cygnus.Governance.AudienceBindingLaws
import Cygnus.Publish.ActionLaws

namespace Cygnus.Publish

open Domain Governance Text Result Sequence

inductive FreshnessAttestation
  | fresh
  | stale
  | unknown
  deriving DecidableEq

def FreshnessAttestation.parse : String → Option FreshnessAttestation
  | "fresh" => some .fresh
  | "stale" => some .stale
  | "unknown" => some .unknown
  | _ => none

/-- No character outside ASCII lowers to a hexadecimal digit, so ASCII lowering decides. -/
def requireDigest (label value : String) : Publishing String := do
  let normalized := (strip value).map Char.toLower
  require (normalized.length = 64 ∧ normalized.toList.all fun c =>
      c ∈ "0123456789abcdef".toList)
    (.valueError s!"{label} must be a sha256 hex digest")
  return normalized

structure DurablePublishCommand where
  draftId : Uuid
  approvalRef : Uuid
  approvalDigest : String
  scopeDigest : String
  signalId : Uuid
  signalFreshness : FreshnessAttestation
  commandId : String
  actionKey : String
  targetChannels : List String
  expectedVersion : Nat
  reason : Option String
  stripped : ∀ channel ∈ targetChannels, Stripped channel
  targeted : targetChannels ≠ []

def DurablePublishCommand.make (draftId approvalRef : Uuid) (approvalDigest scopeDigest : String)
    (signalId : Uuid) (signalFreshness commandId actionKey : String) (targetChannels : List String)
    (expectedVersion : Int) (reason : Option String) : Publishing DurablePublishCommand := do
  let commandId := strip commandId
  let actionKey := strip actionKey
  let reason := reason.map strip
  require (commandId ≠ "") (.valueError "command_id must not be blank")
  require (commandId.length ≤ 200) (.valueError "command_id must not exceed 200 characters")
  require (actionKey ≠ "") (.valueError "action_key must not be blank")
  require (reason ≠ some "") (.valueError "reason must not be blank when provided")
  require (1 ≤ expectedVersion) (.valueError "expected_version must be positive")
  match FreshnessAttestation.parse (strip signalFreshness) with
  | none => throw (.valueError "signal_freshness must be one of: fresh, stale, unknown")
  | some signalFreshness =>
    let approvalDigest ← requireDigest "approval_digest" approvalDigest
    let scopeDigest ← requireDigest "scope_digest" scopeDigest
    match h : normalizeLabelled "target channel" targetChannels with
    | .error e => throw e
    | .ok targetChannels =>
      if hne : targetChannels ≠ [] then
        return ⟨draftId, approvalRef, approvalDigest, scopeDigest, signalId, signalFreshness,
          commandId, actionKey, targetChannels, expectedVersion.toNat, reason,
          normalizeStrings_stripped h, hne⟩
      else throw (.valueError "target_channels must not be empty")

/-- What a wiki page publishes as. -/
structure KnowledgeObject where
  objectId : String
  objectType : KnowledgeObjectType
  title : String
  deriving DecidableEq

def activeBindingRows (table : List AudienceBinding) (pageId : Uuid) (objectId : String) :
    List AudienceBinding :=
  sortedBy AudienceBinding.bindingKey (table.filter fun r =>
    r.pageId = pageId ∧ r.objectRef = objectId ∧ r.lifecycleState = .active)

def DurablePublishCommand.requestedBindingRows (command : DurablePublishCommand)
    (rows : List AudienceBinding) : List AudienceBinding :=
  rows.filter fun r => r.channel ∈ command.targetChannels

section Pipeline

variable (repr : BindingKey → String)

/-- The part of `apply_durable_publish` between the locked rows and the publication: `previous` is
the live bindings of the object's latest publication. -/
def publishBindings (command : DurablePublishCommand) (object : KnowledgeObject)
    (previous : Option (List PublishBinding)) (rows : List AudienceBinding) :
    Publishing PublishGovernanceResult := do
  let missing := command.targetChannels.filter fun c => c ∉ rows.map AudienceBinding.channel
  require (missing = []) (.durablePublishDenied
    ("durable publish target channels have no active audience binding: " ++
      ", ".intercalate missing))
  let requested := command.requestedBindingRows rows
  let bindings ← requested.mapM publishBindingFromRecord
  let targetBindings := bindings.eraseDups
  require (targetBindings ≠ []) (.durablePublishDenied
    "durable publish has no explicit binding for the requested channels")
  require (¬ (previous = none ∧ command.actionKey ≠ "publish")) (.durablePublishDenied
    "the first durable command for an object must use action_key=publish")
  let actionType := match previous with
    | none => PublishActionType.publish
    | some _ => .republish
  let blocked ← publishConflictsFromRecords repr requested
  let candidate ← PublishPreviewCandidate.make object.objectId object.objectType object.title
    actionType (targetBindings.map PublishBinding.audienceFilter).eraseDups command.targetChannels
    targetBindings (previous.getD []) blocked
  executeDurablePublishAction candidate command.actionKey command.reason

end Pipeline

/-- No reader of a channel is inside the live audiences of two records that route different
variants there. -/
def ExposesOneVariant (rows : List AudienceBinding) (result : PublishGovernanceResult) : Prop :=
  ∀ left ∈ rows, ∀ right ∈ rows, left.channel = right.channel →
    left.variantRef ≠ right.variantRef →
    ∀ l ∈ result.updatedCandidate.targetBindings, ∀ r ∈ result.updatedCandidate.targetBindings,
      publishBindingFromRecord left = .ok l → publishBindingFromRecord right = .ok r →
      ∀ context, ¬ (l.audienceFilter.matchesContext context = true ∧
        r.audienceFilter.matchesContext context = true)

end Cygnus.Publish
