import Cygnus.Data.Dict
import Cygnus.Domain.Audience

namespace Cygnus.Publish

open Domain Text Result

inductive KnowledgeObjectType
  | answerCard
  | troubleshootingFlow
  | policyRule
  | knownIssuePage
  | escalationRoute
  deriving DecidableEq

inductive PublishActionType
  | publish
  | republish
  | restrict
  deriving DecidableEq

inductive BlastRadiusEffect
  | newExposure
  | continuingExposure
  | stoppedExposure
  | conflict
  deriving DecidableEq

inductive PublishError
  | valueError (message : String)
  | durablePublishDenied (message : String)
  | durablePublishConflict (message : String)
  | durablePublishNotFound (message : String)
  deriving DecidableEq

abbrev Publishing := Except PublishError

def normalizeLabelled (label : String) (values : List String) : Publishing (List String) :=
  normalizeStrings (.valueError s!"{label} must not be blank") values

abbrev BindingKey := AudienceFilter × String

instance : LawfulBEq BindingKey := inferInstance

structure PublishBinding where
  audienceFilter : AudienceFilter
  channel : NonBlank
  deriving DecidableEq

def PublishBinding.key (b : PublishBinding) : BindingKey := (b.audienceFilter, b.channel)

def PublishBinding.make (audienceFilter : AudienceFilter) (channel : String) :
    Publishing PublishBinding :=
  if h : strip channel ≠ "" then .ok ⟨audienceFilter, channel, h⟩
  else .error (.valueError "channel must not be blank")

structure PublishConflict where
  audienceFilter : AudienceFilter
  channel : NonBlank
  reason : NonBlank
  deriving DecidableEq

def PublishConflict.key (b : PublishConflict) : BindingKey := (b.audienceFilter, b.channel)

def PublishConflict.make (audienceFilter : AudienceFilter) (channel reason : String) :
    Publishing PublishConflict :=
  if hc : strip channel ≠ "" then
    if hr : strip reason ≠ "" then .ok ⟨audienceFilter, ⟨channel, hc⟩, ⟨reason, hr⟩⟩
    else .error (.valueError "reason must not be blank")
  else .error (.valueError "channel must not be blank")

theorem PublishBinding.key_injective : Function.Injective PublishBinding.key := by
  rintro ⟨f, c⟩ ⟨f', c'⟩ h
  simp only [key, Prod.mk.injEq] at h
  rw [h.1, Subtype.ext h.2]

def bindingsToAudiences (bindings : List PublishBinding) : List AudienceFilter :=
  (bindings.map PublishBinding.audienceFilter).eraseDups

def bindingsToChannels (bindings : List PublishBinding) : List String :=
  (bindings.map fun b => b.channel.1).eraseDups

/-- A candidate as its constructor leaves it: some binding is targeted, and the audiences and
channels are read back from the bindings. -/
structure PublishPreviewCandidate where
  objectId : NonBlank
  objectType : KnowledgeObjectType
  title : NonBlank
  actionType : PublishActionType
  targetBindings : List PublishBinding
  currentBindings : List PublishBinding
  blockedBindings : List PublishConflict
  targeted : targetBindings ≠ []
  deriving DecidableEq

def PublishPreviewCandidate.targetAudiences (c : PublishPreviewCandidate) : List AudienceFilter :=
  bindingsToAudiences c.targetBindings

def PublishPreviewCandidate.targetChannels (c : PublishPreviewCandidate) : List String :=
  bindingsToChannels c.targetBindings

/-- Every audience on every channel. -/
def bindingMatrix (audiences : List AudienceFilter) (channels : List String) :
    Publishing (List PublishBinding) :=
  (audiences.flatMap fun audience => channels.map fun channel => (audience, channel)).mapM
    fun (audience, channel) => PublishBinding.make audience channel

theorem bindingMatrix_ne_nil {audiences : List AudienceFilter} {channels : List String}
    {bindings : List PublishBinding} (ha : audiences ≠ []) (hc : channels ≠ [])
    (h : bindingMatrix audiences channels = .ok bindings) : bindings ≠ [] := by
  cases audiences with
  | nil => exact absurd rfl ha
  | cons audience audiences =>
    cases channels with
    | nil => exact absurd rfl hc
    | cons channel channels =>
      obtain ⟨b, hb, -⟩ := exists_of_mapM_ok h (x := (audience, channel)) (by simp)
      exact List.ne_nil_of_mem hb

/-- An empty tuple of target bindings stands for the full matrix. -/
def resolveBindings (audiences : List AudienceFilter) (channels : List String)
    (targetBindings : List PublishBinding) (ha : audiences ≠ []) (hc : channels ≠ []) :
    Publishing { bs : List PublishBinding // bs ≠ [] } :=
  if h : targetBindings = [] then
    match hm : bindingMatrix audiences channels with
    | .ok bindings => .ok ⟨bindings, bindingMatrix_ne_nil ha hc hm⟩
    | .error e => .error e
  else .ok ⟨targetBindings, h⟩

def PublishPreviewCandidate.make (objectId : String) (objectType : KnowledgeObjectType)
    (title : String) (actionType : PublishActionType) (targetAudiences : List AudienceFilter)
    (targetChannels : List String) (targetBindings currentBindings : List PublishBinding)
    (blockedBindings : List PublishConflict) : Publishing PublishPreviewCandidate := do
  if hid : strip objectId ≠ "" then
    if htitle : strip title ≠ "" then
      let channels ← normalizeLabelled "target channel" targetChannels
      if ha : targetAudiences ≠ [] then
        if hc : channels ≠ [] then
          let bindings ← resolveBindings targetAudiences channels targetBindings ha hc
          return ⟨⟨objectId, hid⟩, objectType, ⟨title, htitle⟩, actionType, bindings.1,
            currentBindings, blockedBindings, bindings.2⟩
        else throw (.valueError "target_channels must not be empty")
      else throw (.valueError "target_audiences must not be empty")
    else throw (.valueError "title must not be blank")
  else throw (.valueError "object_id must not be blank")

theorem resolveBindings_ok {audiences : List AudienceFilter} {channels : List String}
    {targetBindings : List PublishBinding} {ha : audiences ≠ []} {hc : channels ≠ []}
    {bindings : { bs : List PublishBinding // bs ≠ [] }}
    (h : resolveBindings audiences channels targetBindings ha hc = .ok bindings) :
    if targetBindings = [] then bindingMatrix audiences channels = .ok bindings.1
      else bindings.1 = targetBindings := by
  unfold resolveBindings at h
  split at h
  · rename_i hempty
    rw [if_pos hempty]
    split at h
    · rename_i hm
      cases h
      exact hm
    · cases h
  · rename_i hne
    rw [if_neg hne]
    cases h
    rfl

/-- What a returned candidate holds: its arguments, with the targeted bindings resolved. -/
theorem PublishPreviewCandidate.make_ok {objectId : String} {objectType : KnowledgeObjectType}
    {title : String} {actionType : PublishActionType} {audiences : List AudienceFilter}
    {channels : List String} {targetBindings currentBindings : List PublishBinding}
    {blockedBindings : List PublishConflict} {c : PublishPreviewCandidate}
    (h : make objectId objectType title actionType audiences channels targetBindings
      currentBindings blockedBindings = .ok c) :
    (∃ normalized, normalizeLabelled "target channel" channels = .ok normalized ∧
      if targetBindings = [] then bindingMatrix audiences normalized = .ok c.targetBindings
        else c.targetBindings = targetBindings) ∧
      c.currentBindings = currentBindings ∧ c.blockedBindings = blockedBindings := by
  unfold make at h
  split at h
  · split at h
    · simp only [bind_ok] at h
      obtain ⟨normalized, hn, h⟩ := h
      split at h
      · split at h
        · simp only [bind_ok, pure_ok] at h
          obtain ⟨bindings, hb, rfl⟩ := h
          exact ⟨⟨normalized, hn, resolveBindings_ok hb⟩, rfl, rfl⟩
        · simp at h
      · simp at h
    · simp at h
  · simp at h

structure AudienceScopeSummary where
  totalAudiences : Nat
  visibilityMix : List String
  audienceLabels : List String
  affectedChannels : List String
  deriving DecidableEq

def AudienceScopeSummary.make (totalAudiences : Nat)
    (visibilityMix audienceLabels affectedChannels : List String) :
    Publishing AudienceScopeSummary := do
  require (0 < totalAudiences) (.valueError "total_audiences must be positive")
  return {
    totalAudiences
    visibilityMix := ← normalizeLabelled "visibility mix" visibilityMix
    audienceLabels := ← normalizeLabelled "audience label" audienceLabels
    affectedChannels := ← normalizeLabelled "affected channel" affectedChannels }

/-- The counts are never negative, by their type. -/
structure ChannelGateSummary where
  channel : NonBlank
  newExposure : Nat
  continuingExposure : Nat
  stoppedExposure : Nat
  conflicts : Nat
  deriving DecidableEq

structure BlastRadiusImpact where
  audienceFilter : AudienceFilter
  channel : NonBlank
  effect : BlastRadiusEffect
  reason : NonBlank
  deriving DecidableEq

structure BlastRadiusPreview where
  objectId : NonBlank
  objectType : KnowledgeObjectType
  title : NonBlank
  actionType : PublishActionType
  audienceScope : AudienceScopeSummary
  channelGateMatrix : List ChannelGateSummary
  impacts : List BlastRadiusImpact
  warnings : List String
  deriving DecidableEq

def audienceLabel (audience : AudienceFilter) : String :=
  let parts := audience.visibility.value ::
    (AudienceDimension.all.filterMap fun d =>
      match (audience.dimension d).values with
      | [] => none
      | values => some ("/".intercalate values))
  " · ".intercalate (if parts.length = 1 then parts ++ ["global"] else parts)

def continuingReason : NonBlank :=
  ⟨"This audience and channel are already exposed and would remain active.", by decide⟩

def newReason : NonBlank :=
  ⟨"This audience and channel would become newly exposed if the command proceeds.", by decide⟩

def stoppedReason : NonBlank :=
  ⟨"This audience and channel are currently exposed but would stop after the command.", by decide⟩

/-- What the command does to one targeted binding. -/
def targetImpact (currentByKey : Dict BindingKey PublishBinding)
    (blockedByKey : Dict BindingKey PublishConflict) (binding : PublishBinding) :
    BlastRadiusImpact :=
  match blockedByKey.lookup binding.key with
  | some blocked => ⟨binding.audienceFilter, binding.channel, .conflict, blocked.reason⟩
  | none =>
    if binding.key ∈ currentByKey.keys then
      ⟨binding.audienceFilter, binding.channel, .continuingExposure, continuingReason⟩
    else ⟨binding.audienceFilter, binding.channel, .newExposure, newReason⟩

def previewImpacts (candidate : PublishPreviewCandidate) : List BlastRadiusImpact :=
  let currentByKey := Dict.ofList (candidate.currentBindings.map fun b => (b.key, b))
  let blockedByKey := Dict.ofList (candidate.blockedBindings.map fun b => (b.key, b))
  let seenKeys := candidate.targetBindings.map PublishBinding.key
  candidate.targetBindings.map (targetImpact currentByKey blockedByKey) ++
    (candidate.currentBindings.filter fun b => b.key ∉ seenKeys).map fun b =>
      ⟨b.audienceFilter, b.channel, .stoppedExposure, stoppedReason⟩

def buildAudienceScope (impacts : List BlastRadiusImpact) : Publishing AudienceScopeSummary :=
  let audiences := (impacts.map BlastRadiusImpact.audienceFilter).eraseDups
  let channels := (impacts.map fun i => i.channel.1).eraseDups
  let visibilityMix := [Visibility.external, Visibility.internal].filterMap fun v =>
    let count := audiences.countP (·.visibility = v)
    if count ≠ 0 then some s!"{v.value}:{count}" else none
  AudienceScopeSummary.make audiences.length visibilityMix (audiences.map audienceLabel) channels

def buildChannelGateMatrix (impacts : List BlastRadiusImpact) : List ChannelGateSummary :=
  (impacts.map BlastRadiusImpact.channel).eraseDups.map fun channel =>
    let count (effect : BlastRadiusEffect) :=
      impacts.countP fun i => i.channel = channel ∧ i.effect = effect
    { channel
      newExposure := count .newExposure
      continuingExposure := count .continuingExposure
      stoppedExposure := count .stoppedExposure
      conflicts := count .conflict }

def buildWarnings (candidate : PublishPreviewCandidate) (impacts : List BlastRadiusImpact) :
    List String :=
  (if impacts.any (·.effect = .conflict) then
    ["At least one audience-channel path is blocked by a governance conflict."] else []) ++
  (if impacts.any (·.effect = .stoppedExposure) then
    ["This command would remove at least one current exposure path."] else []) ++
  (if candidate.actionType = .restrict ∧ impacts.any (fun i =>
      i.audienceFilter.visibility = .external ∧ i.effect = .newExposure) then
    ["A restrict command still introduces new external exposure and should be double-checked."]
  else [])

def buildPublishBlastRadiusPreview (candidate : PublishPreviewCandidate) :
    Publishing BlastRadiusPreview := do
  let impacts := previewImpacts candidate
  let audienceScope ← buildAudienceScope impacts
  let channelGateMatrix := buildChannelGateMatrix impacts
  let warnings ← normalizeLabelled "warning" (buildWarnings candidate impacts)
  require (channelGateMatrix ≠ []) (.valueError "channel_gate_matrix must not be empty")
  require (impacts ≠ []) (.valueError "impacts must not be empty")
  return {
    objectId := candidate.objectId
    objectType := candidate.objectType
    title := candidate.title
    actionType := candidate.actionType
    audienceScope
    channelGateMatrix
    impacts
    warnings }

end Cygnus.Publish
