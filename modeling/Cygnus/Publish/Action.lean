import Cygnus.Publish.Preview

namespace Cygnus.Publish

open Domain Text Result

/-- The keys of `reason_by_action`. -/
inductive DurableAction
  | publish
  | republish
  | restrictPublish
  | holdExternal
  | republishInternalOnly
  deriving DecidableEq

def DurableAction.parse : String → Option DurableAction
  | "publish" => some .publish
  | "republish" => some .republish
  | "restrict_publish" => some .restrictPublish
  | "hold_external" => some .holdExternal
  | "republish_internal_only" => some .republishInternalOnly
  | _ => none

def DurableAction.defaultReason : DurableAction → String
  | .publish => "open the approved governed publish path"
  | .republish => "refresh the approved governed publish path"
  | .restrictPublish => "withdraw the selected governed publish path"
  | .holdExternal => "hold external exposure pending explicit confirmation"
  | .republishInternalOnly => "keep internal support truth live while external exposure stops"

/-- `reason or reason_by_action[...]`: an empty reason counts as none. -/
def DurableAction.reasonOr (action : DurableAction) : Option String → String
  | none => action.defaultReason
  | some reason => if reason = "" then action.defaultReason else reason

structure PublishGovernanceResult where
  updatedCandidate : PublishPreviewCandidate
  preview : BlastRadiusPreview
  openedBindings : List PublishBinding
  removedBindings : List PublishBinding
  heldBindings : List PublishConflict
  actionLog : List String
  deriving DecidableEq

abbrev BlockedByKey := Dict BindingKey PublishConflict

def PublishPreviewCandidate.blockedByKey (candidate : PublishPreviewCandidate) : BlockedByKey :=
  Dict.ofList (candidate.blockedBindings.map fun b => (b.key, b))

def unblocked (blocked : BlockedByKey) (bindings : List PublishBinding) : List PublishBinding :=
  bindings.filter fun b => b.key ∉ blocked.keys

def ofVisibility (visibility : Visibility) (bindings : List PublishBinding) :
    List PublishBinding :=
  bindings.filter fun b => b.audienceFilter.visibility = visibility

def holdConflict (reason : Option String) (binding : PublishBinding) :
    Publishing (BindingKey × PublishConflict) := do
  let conflict ← PublishConflict.make binding.audienceFilter binding.channel
    ("Held for gated external review: " ++ DurableAction.holdExternal.reasonOr reason)
  return (binding.key, conflict)

/-- The five branches of the action: the bindings that stay live and the blocks that go with
them. -/
def DurableAction.apply (action : DurableAction) (candidate : PublishPreviewCandidate)
    (reason : Option String) : Publishing (List PublishBinding × BlockedByKey) :=
  let original := candidate.targetBindings
  let blocked := candidate.blockedByKey
  match action with
  | .publish | .republish => return (unblocked blocked original, blocked)
  | .restrictPublish => return ([], [])
  | .holdExternal => do
    let external := ofVisibility .external original
    require (external ≠ []) (.durablePublishDenied
      "hold_external is unavailable because persisted bindings have no external audience")
    let held ← external.mapM (holdConflict reason)
    let blocked := blocked.update held
    return (unblocked blocked original, blocked)
  | .republishInternalOnly => do
    let updated := unblocked blocked (ofVisibility .internal original)
    require (updated ≠ []) (.durablePublishDenied
      "republish_internal_only requires an unblocked explicit internal binding")
    let updatedKeys := updated.map PublishBinding.key
    return (updated, blocked.filter fun item => item.1 ∈ updatedKeys)

def executeDurablePublishAction (candidate : PublishPreviewCandidate) (actionKey : String)
    (reason : Option String) : Publishing PublishGovernanceResult := do
  let normalized := strip actionKey
  match DurableAction.parse normalized with
  | none => throw (.durablePublishDenied s!"unsupported durable action_key={normalized}")
  | some action =>
    let (updated, blocked) ← action.apply candidate reason
    let updatedCandidate ← PublishPreviewCandidate.make candidate.objectId candidate.objectType
      candidate.title candidate.actionType candidate.targetAudiences candidate.targetChannels
      updated candidate.currentBindings blocked.values
    let currentKeys := candidate.currentBindings.map PublishBinding.key
    let updatedKeys := updated.map PublishBinding.key
    let preview ← buildPublishBlastRadiusPreview updatedCandidate
    let actionLog ← normalizeLabelled "action log" [s!"{normalized}:{action.reasonOr reason}"]
    return {
      updatedCandidate
      preview
      openedBindings := updated.filter fun b => b.key ∉ currentKeys
      removedBindings := candidate.currentBindings.filter fun b => b.key ∉ updatedKeys
      heldBindings := blocked.values
      actionLog }

/-- Whether the action leaves a targeted binding of the candidate live. -/
def DurableAction.Keeps (action : DurableAction) (candidate : PublishPreviewCandidate)
    (binding : PublishBinding) : Prop :=
  match action with
  | .publish | .republish => binding.key ∉ candidate.blockedBindings.map PublishConflict.key
  | .restrictPublish => False
  | .holdExternal | .republishInternalOnly =>
    binding.audienceFilter.visibility = .internal ∧
      binding.key ∉ candidate.blockedBindings.map PublishConflict.key

/-- The result stays inside the persisted binding matrix and drops what the action withdrew. -/
structure KeepsBindingMatrix (action : DurableAction) (candidate : PublishPreviewCandidate)
    (reason : Option String) (result : PublishGovernanceResult) : Prop where
  subset : ∀ b ∈ result.updatedCandidate.targetBindings,
    b.key ∈ candidate.targetBindings.map PublishBinding.key
  notHeld : ∀ b ∈ result.updatedCandidate.targetBindings,
    b.key ∉ result.heldBindings.map PublishConflict.key
  restricted : action = .restrictPublish → result.updatedCandidate.targetBindings = []
  noExternal : action = .holdExternal ∨ action = .republishInternalOnly →
    ∀ b ∈ result.updatedCandidate.targetBindings, b.audienceFilter.visibility ≠ .external
  noConflict : action = .publish ∨ action = .republish →
    ∀ b ∈ result.updatedCandidate.targetBindings,
      b.key ∉ candidate.blockedBindings.map PublishConflict.key
  live : ∀ updated blocked, action.apply candidate reason = .ok (updated, blocked) →
    result.updatedCandidate.targetBindings = updated

end Cygnus.Publish
