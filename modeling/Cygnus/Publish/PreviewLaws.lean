import Cygnus.Publish.PipelineLaws

/-! The preview of a publish action against the bindings that the action opens and removes. -/

namespace Cygnus.Publish

open Domain Text Result Sequence

def BlastRadiusImpact.key (impact : BlastRadiusImpact) : BindingKey :=
  (impact.audienceFilter, impact.channel)

section Impacts

variable {candidate : PublishPreviewCandidate} {key : BindingKey}

def keysWith (effect : BlastRadiusEffect) (impacts : List BlastRadiusImpact) : List BindingKey :=
  (impacts.filter fun i => i.effect = effect).map BlastRadiusImpact.key

theorem mem_keysWith {effect : BlastRadiusEffect} {impacts : List BlastRadiusImpact} :
    key ∈ keysWith effect impacts ↔ ∃ i ∈ impacts, i.effect = effect ∧ i.key = key := by
  simp [keysWith, and_assoc]

variable {currentByKey : Dict BindingKey PublishBinding}
  {blockedByKey : Dict BindingKey PublishConflict}

theorem targetImpact_key (binding : PublishBinding) :
    (targetImpact currentByKey blockedByKey binding).key = binding.key := by
  unfold targetImpact
  split
  · rfl
  · split <;> rfl

theorem targetImpact_effect (binding : PublishBinding) :
    (targetImpact currentByKey blockedByKey binding).effect =
      if binding.key ∈ blockedByKey.keys then .conflict
      else if binding.key ∈ currentByKey.keys then .continuingExposure else .newExposure := by
  have hlookup : blockedByKey.lookup binding.key = none ↔ binding.key ∉ blockedByKey.keys := by
    rw [List.lookup_eq_none_iff, Dict.keys, List.mem_map]
    constructor
    · rintro h ⟨item, hitem, heq⟩
      simpa [heq] using h item hitem
    · intro h item hitem
      simpa using fun heq => h ⟨item, hitem, Eq.symm heq⟩
  unfold targetImpact
  split
  · rename_i blocked hsome
    rw [if_pos]
    by_contra hfree
    rw [hlookup.mpr hfree] at hsome
    cases hsome
  · rename_i hnone
    rw [if_neg (hlookup.mp hnone)]
    split <;> rfl

theorem mem_keys_ofBindings (bindings : List PublishBinding) :
    key ∈ (Dict.ofList (bindings.map fun b => (b.key, b))).keys ↔
      key ∈ bindings.map PublishBinding.key := by
  rw [Dict.mem_keys_ofList]
  simp [Dict.keys]

/-- The impacts name the targeted bindings, then the current ones that are not targeted. -/
theorem map_key_previewImpacts (candidate : PublishPreviewCandidate) :
    (previewImpacts candidate).map BlastRadiusImpact.key =
      candidate.targetBindings.map PublishBinding.key ++
        (candidate.currentBindings.filter fun b =>
          b.key ∉ candidate.targetBindings.map PublishBinding.key).map PublishBinding.key := by
  rw [previewImpacts, List.map_append, List.map_map, List.map_map]
  congr 1
  exact List.map_congr_left fun b _ => targetImpact_key b

theorem nodup_key_previewImpacts (htarget : candidate.targetBindings.Nodup)
    (hcurrent : candidate.currentBindings.Nodup) :
    ((previewImpacts candidate).map BlastRadiusImpact.key).Nodup := by
  rw [map_key_previewImpacts, List.nodup_append]
  refine ⟨htarget.map PublishBinding.key_injective,
    (hcurrent.filter _).map PublishBinding.key_injective, ?_⟩
  rintro first hfirst second hsecond rfl
  obtain ⟨b, hb, rfl⟩ := List.mem_map.mp hsecond
  simp only [List.mem_filter, decide_eq_true_eq] at hb
  exact hb.2 hfirst

theorem mem_newExposure : key ∈ keysWith .newExposure (previewImpacts candidate) ↔
    key ∈ candidate.targetBindings.map PublishBinding.key ∧
      key ∉ candidate.blockedBindings.map PublishConflict.key ∧
      key ∉ candidate.currentBindings.map PublishBinding.key := by
  rw [mem_keysWith]
  constructor
  · rintro ⟨i, hi, heffect, rfl⟩
    rcases List.mem_append.mp hi with hi | hi
    · obtain ⟨b, hb, rfl⟩ := List.mem_map.mp hi
      rw [targetImpact_effect] at heffect
      rw [targetImpact_key]
      split at heffect
      · cases heffect
      · split at heffect
        · cases heffect
        · rename_i hblocked hcurrent
          rw [mem_keys_ofBindings] at hcurrent
          rw [← PublishPreviewCandidate.blockedByKey, mem_keys_blockedByKey] at hblocked
          exact ⟨List.mem_map_of_mem hb, hblocked, hcurrent⟩
    · obtain ⟨b, -, rfl⟩ := List.mem_map.mp hi
      cases heffect
  · rintro ⟨htarget, hblocked, hcurrent⟩
    obtain ⟨b, hb, rfl⟩ := List.mem_map.mp htarget
    refine ⟨_, List.mem_append_left _ (List.mem_map_of_mem hb), ?_, targetImpact_key b⟩
    rw [targetImpact_effect, if_neg, if_neg]
    · rw [mem_keys_ofBindings]
      exact hcurrent
    · rw [← PublishPreviewCandidate.blockedByKey, mem_keys_blockedByKey]
      exact hblocked

theorem mem_stoppedExposure : key ∈ keysWith .stoppedExposure (previewImpacts candidate) ↔
    key ∈ candidate.currentBindings.map PublishBinding.key ∧
      key ∉ candidate.targetBindings.map PublishBinding.key := by
  rw [mem_keysWith]
  constructor
  · rintro ⟨i, hi, heffect, rfl⟩
    rcases List.mem_append.mp hi with hi | hi
    · obtain ⟨b, -, rfl⟩ := List.mem_map.mp hi
      rw [targetImpact_effect] at heffect
      split at heffect
      · cases heffect
      · split at heffect <;> cases heffect
    · obtain ⟨b, hb, rfl⟩ := List.mem_map.mp hi
      simp only [List.mem_filter, decide_eq_true_eq] at hb
      exact ⟨List.mem_map_of_mem hb.1, hb.2⟩
  · rintro ⟨hcurrent, htarget⟩
    obtain ⟨b, hb, rfl⟩ := List.mem_map.mp hcurrent
    refine ⟨⟨b.audienceFilter, b.channel, .stoppedExposure, stoppedReason⟩,
      List.mem_append_right _ (List.mem_map.mpr ⟨b, ?_, rfl⟩), rfl, rfl⟩
    simpa [hb] using htarget

end Impacts

section Agreement

def ChannelGateSummary.exposure (row : ChannelGateSummary) : BlastRadiusEffect → Nat
  | .newExposure => row.newExposure
  | .continuingExposure => row.continuingExposure
  | .stoppedExposure => row.stoppedExposure
  | .conflict => row.conflicts

/-- The preview and the lists of the result say the same. -/
structure PreviewAgrees (candidate : PublishPreviewCandidate) (result : PublishGovernanceResult) :
    Prop where
  opened : ∀ key, key ∈ keysWith .newExposure result.preview.impacts ↔
    key ∈ result.openedBindings.map PublishBinding.key
  removed : ∀ key, key ∈ keysWith .stoppedExposure result.preview.impacts ↔
    key ∈ result.removedBindings.map PublishBinding.key
  once : ∀ b, b ∈ result.updatedCandidate.targetBindings ∨ b ∈ candidate.currentBindings →
    (result.preview.impacts.map BlastRadiusImpact.key).count b.key = 1
  channels : (result.preview.channelGateMatrix.map ChannelGateSummary.channel).Nodup ∧
    ∀ channel, channel ∈ result.preview.channelGateMatrix.map ChannelGateSummary.channel ↔
      channel ∈ result.preview.impacts.map BlastRadiusImpact.channel
  counts : ∀ row ∈ result.preview.channelGateMatrix, ∀ effect, row.exposure effect =
    (result.preview.impacts.filter fun i => i.channel = row.channel ∧ i.effect = effect).length

/-- Whether the action files a binding key under the blocked ones. -/
def DurableAction.Blocks (action : DurableAction) (candidate : PublishPreviewCandidate)
    (key : BindingKey) : Prop :=
  match action with
  | .publish | .republish => key ∈ candidate.blockedBindings.map PublishConflict.key
  | .restrictPublish | .republishInternalOnly => False
  | .holdExternal => key ∈ candidate.blockedBindings.map PublishConflict.key ∨
      key ∈ (ofVisibility .external candidate.targetBindings).map PublishBinding.key

/-- Some targeted binding stays live, or no binding of the full matrix is current and all are blocked. -/
def DurableAction.Previewed (action : DurableAction) (candidate : PublishPreviewCandidate) : Prop :=
  (∃ b ∈ candidate.targetBindings, action.Keeps candidate b) ∨
    ∀ audience ∈ candidate.targetAudiences, ∀ channel ∈ candidate.targetChannels.map strip,
      action.Blocks candidate (audience, channel) ∧
        (audience, channel) ∉ candidate.currentBindings.map PublishBinding.key

variable {candidate : PublishPreviewCandidate} {actionKey : String} {reason : Option String}
  {action : DurableAction} {result : PublishGovernanceResult}

theorem DurableAction.mem_blocked {updated : List PublishBinding} {blocked : BlockedByKey}
    (h : action.apply candidate reason = .ok (updated, blocked)) (key : BindingKey) :
    key ∈ blocked.values.map PublishConflict.key ↔ action.Blocks candidate key := by
  rw [(DurableAction.apply_ok h).2.2.mem_keys]
  cases action with
  | publish | republish =>
    simp only [apply, pure_ok, Prod.mk.injEq] at h
    obtain ⟨-, rfl⟩ := h
    exact mem_keys_blockedByKey candidate key
  | restrictPublish =>
    simp only [apply, pure_ok, Prod.mk.injEq] at h
    obtain ⟨-, rfl⟩ := h
    exact iff_of_false List.not_mem_nil id
  | holdExternal =>
    simp only [apply, bind_ok, require_ok, pure_ok, Prod.mk.injEq] at h
    obtain ⟨-, -, held, hheld, -, rfl⟩ := h
    rw [Dict.mem_keys_update, mem_keys_blockedByKey, mem_keys_held hheld]
    rfl
  | republishInternalOnly =>
    simp only [apply, bind_ok, require_ok, pure_ok, Prod.mk.injEq] at h
    obtain ⟨-, -, -, rfl⟩ := h
    refine iff_of_false ?_ id
    intro hkey
    obtain ⟨item, hitem, rfl⟩ := List.mem_map.mp hkey
    obtain ⟨hblocked, hlive⟩ := List.mem_filter.mp hitem
    obtain ⟨b, hb, hsame⟩ := List.mem_map.mp (of_decide_eq_true hlive)
    exact (mem_unblocked.mp hb).2 (hsame ▸ List.mem_map_of_mem hblocked)

theorem updated_nodup {updated : List PublishBinding} {blocked : BlockedByKey}
    (h : action.apply candidate reason = .ok (updated, blocked))
    (htarget : candidate.targetBindings.Nodup) : updated.Nodup := by
  cases action with
  | publish | republish =>
    simp only [DurableAction.apply, pure_ok, Prod.mk.injEq] at h
    exact h.1 ▸ htarget.filter _
  | restrictPublish =>
    simp only [DurableAction.apply, pure_ok, Prod.mk.injEq] at h
    exact h.1 ▸ List.nodup_nil
  | holdExternal =>
    simp only [DurableAction.apply, bind_ok, pure_ok, Prod.mk.injEq] at h
    obtain ⟨-, -, held, -, rfl, -⟩ := h
    exact htarget.filter _
  | republishInternalOnly =>
    simp only [DurableAction.apply, bind_ok, pure_ok, Prod.mk.injEq] at h
    obtain ⟨-, -, rfl, -⟩ := h
    exact (htarget.filter _).filter _

/-- The keys of the full matrix. -/
theorem mem_key_bindingMatrix {audiences : List AudienceFilter} {channels : List String}
    {matrix : List PublishBinding} (h : bindingMatrix audiences channels = .ok matrix)
    (key : BindingKey) :
    key ∈ matrix.map PublishBinding.key ↔ key.1 ∈ audiences ∧ key.2 ∈ channels := by
  rw [List.mem_map]
  constructor
  · rintro ⟨b, hb, rfl⟩
    obtain ⟨⟨audience, channel⟩, hpair, hmake⟩ := mem_of_mapM_ok h hb
    rw [PublishBinding.make_ok hmake]
    simp only [List.mem_flatMap, List.mem_map, Prod.mk.injEq] at hpair
    obtain ⟨_, haudience, _, hchannel, rfl, rfl⟩ := hpair
    exact ⟨haudience, hchannel⟩
  · rintro ⟨haudience, hchannel⟩
    have hpair : key ∈ audiences.flatMap fun audience =>
        channels.map fun channel => (audience, channel) :=
      List.mem_flatMap.mpr ⟨key.1, haudience, List.mem_map_of_mem hchannel⟩
    obtain ⟨b, hb, hmake⟩ := exists_of_mapM_ok h hpair
    exact ⟨b, hb, PublishBinding.make_ok hmake⟩

theorem nodup_bindingMatrix {audiences : List AudienceFilter} {channels : List String}
    {matrix : List PublishBinding} (h : bindingMatrix audiences channels = .ok matrix)
    (haudiences : audiences.Nodup) (hchannels : channels.Nodup) : matrix.Nodup := by
  refine List.Nodup.of_map PublishBinding.key ?_
  have hkeys : matrix.map PublishBinding.key =
      audiences.flatMap fun audience => channels.map fun channel => (audience, channel) := by
    refine List.forall₂_eq_eq_eq ▸ ?_
    rw [List.forall₂_map_left_iff]
    exact (mapM_ok.mp h).flip.imp fun b pair hmake => PublishBinding.make_ok hmake
  rw [hkeys]
  exact haudiences.product hchannels

theorem mem_key_filter {bindings : List PublishBinding} {keys : List BindingKey} (key : BindingKey) :
    key ∈ (bindings.filter fun b => b.key ∉ keys).map PublishBinding.key ↔
      key ∈ bindings.map PublishBinding.key ∧ key ∉ keys := by
  simp only [List.mem_map, List.mem_filter, decide_eq_true_eq]
  constructor
  · rintro ⟨b, ⟨hb, hfree⟩, rfl⟩
    exact ⟨⟨b, hb, rfl⟩, hfree⟩
  · rintro ⟨⟨b, hb, rfl⟩, hfree⟩
    exact ⟨b, ⟨hb, hfree⟩, rfl⟩

/-- What the result of an action consists of. -/
theorem executeDurablePublishAction_result (hkey : DurableAction.parse (strip actionKey) = some action)
    (h : executeDurablePublishAction candidate actionKey reason = .ok result) :
    ∃ updated blocked, action.apply candidate reason = .ok (updated, blocked) ∧
      PublishPreviewCandidate.make candidate.objectId candidate.objectType candidate.title
        candidate.actionType candidate.targetAudiences candidate.targetChannels updated
        candidate.currentBindings blocked.values = .ok result.updatedCandidate ∧
      result.openedBindings =
        (updated.filter fun b => b.key ∉ candidate.currentBindings.map PublishBinding.key) ∧
      result.removedBindings =
        (candidate.currentBindings.filter fun b => b.key ∉ updated.map PublishBinding.key) ∧
      result.preview.impacts = previewImpacts result.updatedCandidate ∧
      result.preview.channelGateMatrix =
        buildChannelGateMatrix (previewImpacts result.updatedCandidate) := by
  simp only [executeDurablePublishAction, hkey, bind_ok, pure_ok] at h
  obtain ⟨⟨updated, blocked⟩, happly, updatedCandidate, hmake, preview, hpreview, log, -, rfl⟩ := h
  simp only [buildPublishBlastRadiusPreview, bind_ok, pure_ok] at hpreview
  obtain ⟨scope, -, warnings, -, -, -, -, -, rfl⟩ := hpreview
  exact ⟨updated, blocked, happly, hmake, rfl, rfl, rfl, rfl⟩

theorem matrix_channels (impacts : List BlastRadiusImpact) :
    ((buildChannelGateMatrix impacts).map ChannelGateSummary.channel).Nodup ∧
      ∀ channel, channel ∈ (buildChannelGateMatrix impacts).map ChannelGateSummary.channel ↔
        channel ∈ impacts.map BlastRadiusImpact.channel := by
  have hchannels : (buildChannelGateMatrix impacts).map ChannelGateSummary.channel =
      (impacts.map BlastRadiusImpact.channel).eraseDups := by
    rw [buildChannelGateMatrix, List.map_map]
    exact List.map_id _
  rw [hchannels]
  exact ⟨nodup_eraseDups _, fun channel => List.mem_eraseDups⟩

theorem matrix_counts {impacts : List BlastRadiusImpact} {row : ChannelGateSummary}
    (h : row ∈ buildChannelGateMatrix impacts) (effect : BlastRadiusEffect) :
    row.exposure effect =
      (impacts.filter fun i => i.channel = row.channel ∧ i.effect = effect).length := by
  obtain ⟨channel, -, rfl⟩ := List.mem_map.mp h
  rw [← List.countP_eq_length_filter]
  cases effect <;> rfl

/-- The bindings that the result targets: the live ones, or the full matrix if there are none. -/
theorem updatedCandidate_targets {updated : List PublishBinding} {blocked : BlockedByKey}
    {updatedCandidate : PublishPreviewCandidate}
    (hmake : PublishPreviewCandidate.make candidate.objectId candidate.objectType candidate.title
      candidate.actionType candidate.targetAudiences candidate.targetChannels updated
      candidate.currentBindings blocked.values = .ok updatedCandidate) :
    (updated ≠ [] ∧ updatedCandidate.targetBindings = updated) ∨
      updated = [] ∧ updatedCandidate.targetBindings.Nodup ∧
        ∀ key, key ∈ updatedCandidate.targetBindings.map PublishBinding.key ↔
          key.1 ∈ candidate.targetAudiences ∧ key.2 ∈ candidate.targetChannels.map strip := by
  obtain ⟨⟨normalized, hnormalized, hresolved⟩, -, -⟩ := PublishPreviewCandidate.make_ok hmake
  split at hresolved
  · rename_i hempty
    obtain ⟨rfl, -⟩ := normalizeStrings_ok hnormalized
    refine .inr ⟨hempty, nodup_bindingMatrix hresolved (nodup_eraseDups _) (nodup_eraseDups _), ?_⟩
    intro key
    rw [mem_key_bindingMatrix hresolved, List.mem_eraseDups]
  · rename_i hne
    exact .inl ⟨hne, hresolved⟩

/-- The preview of a result agrees with its opened and removed bindings exactly if a targeted binding
stays live, or the matrix rebuilt in its place is blocked and not current. -/
theorem previewAgrees_iff (htarget : candidate.targetBindings.Nodup)
    (hcurrent : candidate.currentBindings.Nodup)
    (hkey : DurableAction.parse (strip actionKey) = some action)
    (h : executeDurablePublishAction candidate actionKey reason = .ok result) :
    PreviewAgrees candidate result ↔ action.Previewed candidate := by
  obtain ⟨updated, blocked, happly, hmake, hopened, hremoved, himpacts, hmatrix⟩ :=
    executeDurablePublishAction_result hkey h
  obtain ⟨hlive, hfree, hkeyed⟩ := DurableAction.apply_ok happly
  obtain ⟨-, hcurrent', hblocked'⟩ := PublishPreviewCandidate.make_ok hmake
  have hnew : ∀ key, key ∈ keysWith .newExposure result.preview.impacts ↔
      key ∈ result.updatedCandidate.targetBindings.map PublishBinding.key ∧
        ¬ action.Blocks candidate key ∧
        key ∉ candidate.currentBindings.map PublishBinding.key := by
    intro key
    rw [himpacts, mem_newExposure, hcurrent', hblocked', DurableAction.mem_blocked happly]
  have hstopped : ∀ key, key ∈ keysWith .stoppedExposure result.preview.impacts ↔
      key ∈ candidate.currentBindings.map PublishBinding.key ∧
        key ∉ result.updatedCandidate.targetBindings.map PublishBinding.key := by
    intro key
    rw [himpacts, mem_stoppedExposure, hcurrent']
  have hnodup : result.updatedCandidate.targetBindings.Nodup := by
    rcases updatedCandidate_targets hmake with ⟨-, heq⟩ | ⟨-, hnodup, -⟩
    · rw [heq]
      exact updated_nodup happly htarget
    · exact hnodup
  have honce : ∀ b, b ∈ result.updatedCandidate.targetBindings ∨ b ∈ candidate.currentBindings →
      (result.preview.impacts.map BlastRadiusImpact.key).count b.key = 1 := by
    intro b hb
    rw [himpacts]
    refine List.count_eq_one_of_mem
      (nodup_key_previewImpacts hnodup (hcurrent' ▸ hcurrent)) ?_
    rw [map_key_previewImpacts, List.mem_append, mem_key_filter, hcurrent']
    by_cases htargeted : b.key ∈ result.updatedCandidate.targetBindings.map PublishBinding.key
    · exact .inl htargeted
    · refine .inr ⟨List.mem_map_of_mem (hb.resolve_left fun hmem => ?_), htargeted⟩
      exact htargeted (List.mem_map_of_mem hmem)
  have hagrees : PreviewAgrees candidate result ↔
      (∀ key, key ∈ keysWith .newExposure result.preview.impacts ↔
        key ∈ result.openedBindings.map PublishBinding.key) ∧
      ∀ key, key ∈ keysWith .stoppedExposure result.preview.impacts ↔
        key ∈ result.removedBindings.map PublishBinding.key := by
    refine ⟨fun hagrees => ⟨hagrees.opened, hagrees.removed⟩, ?_⟩
    rintro ⟨hopens, hremoves⟩
    refine ⟨hopens, hremoves, honce, ?_, ?_⟩ <;> rw [hmatrix, himpacts]
    · exact matrix_channels _
    · exact fun row hrow => matrix_counts hrow
  rw [hagrees, hopened, hremoved]
  simp only [hnew, hstopped, mem_key_filter]
  have hkeeps : (∃ b ∈ candidate.targetBindings, action.Keeps candidate b) ↔ updated ≠ [] := by
    simp only [← hlive]
    exact ⟨fun ⟨b, hb⟩ => List.ne_nil_of_mem hb, List.exists_mem_of_ne_nil _⟩
  rw [DurableAction.Previewed, hkeeps]
  rcases updatedCandidate_targets hmake with ⟨hne, heq⟩ | ⟨hempty, -, hmem⟩
  · refine iff_of_true ⟨?_, ?_⟩ (.inl hne)
    · intro key
      rw [heq]
      refine ⟨fun hkey => ⟨hkey.1, hkey.2.2⟩, fun hkey => ⟨hkey.1, ?_, hkey.2⟩⟩
      obtain ⟨b, hb, rfl⟩ := List.mem_map.mp hkey.1
      rw [← DurableAction.mem_blocked happly, hkeyed.mem_keys]
      exact hfree b hb
    · intro key
      rw [heq]
  · simp only [hempty, List.map_nil, List.not_mem_nil, false_and, not_false_eq_true, and_true,
      iff_false, ne_eq, not_true_eq_false, false_or, hmem]
    constructor
    · rintro ⟨hopens, hremoves⟩ audience haudience channel hchannel
      have hfree' : (audience, channel) ∉ candidate.currentBindings.map PublishBinding.key :=
        fun hcur => ((hremoves _).mpr hcur).2 ⟨haudience, hchannel⟩
      refine ⟨?_, hfree'⟩
      by_contra hblocks
      exact hopens _ ⟨⟨haudience, hchannel⟩, hblocks, hfree'⟩
    · intro hall
      constructor
      · rintro key ⟨⟨haudience, hchannel⟩, hblocks, -⟩
        exact hblocks (hall _ haudience _ hchannel).1
      · intro key
        refine ⟨fun hkey => hkey.1, fun hcur => ⟨hcur, ?_⟩⟩
        rintro ⟨haudience, hchannel⟩
        exact (hall _ haudience _ hchannel).2 hcur

/-- Republishing the card agrees with its preview. -/
theorem republish_previewed :
    ∃ result, executeDurablePublishAction webCandidate " republish " none = .ok result ∧
      PreviewAgrees webCandidate result := by
  refine ⟨_, rfl, (@previewAgrees_iff webCandidate " republish " none .republish _ (by decide)
    (by decide) (by decide) rfl).mpr ?_⟩
  exact .inl ⟨webBinding, List.mem_singleton_self _, by simp [DurableAction.Keeps, webCandidate]⟩

/-- Withdrawing the card: its binding is removed, but the preview shows it as continuing. -/
theorem restrict_publish_misses_removed :
    ∃ result, executeDurablePublishAction webCandidate "restrict_publish" none = .ok result ∧
      webBinding.key ∈ result.removedBindings.map PublishBinding.key ∧
      webBinding.key ∉ keysWith .stoppedExposure result.preview.impacts ∧
      ¬ PreviewAgrees webCandidate result := by
  have hremoved : ∃ result,
      executeDurablePublishAction webCandidate "restrict_publish" none = .ok result ∧
      webBinding.key ∈ result.removedBindings.map PublishBinding.key ∧
      webBinding.key ∉ keysWith .stoppedExposure result.preview.impacts :=
    ⟨_, rfl, by decide, by decide⟩
  obtain ⟨result, hok, hmem, hnot⟩ := hremoved
  exact ⟨result, hok, hmem, hnot, fun hagrees => hnot ((hagrees.removed _).mpr hmem)⟩

end Agreement

end Cygnus.Publish
