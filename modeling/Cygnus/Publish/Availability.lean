import Cygnus.Publish.PipelineLaws

/-! When publishing a set of well-formed bindings succeeds: the only refusals left are those of an
action that finds no binding to act on. -/

namespace Cygnus.Publish

open Domain Governance Text Result Sequence

theorem normalizeLabelled_of_forall {label : String} {values : List String}
    (h : ∀ v ∈ values, strip v ≠ "") :
    normalizeLabelled label values = .ok (values.map strip).eraseDups :=
  normalizeStrings_of_forall _ h

theorem returns_normalizeLabelled {label : String} {values : List String}
    (h : ∀ v ∈ values, strip v ≠ "") : Returns (normalizeLabelled label values) :=
  ⟨_, normalizeLabelled_of_forall h⟩

section Conflicts

/-- A binding as its constructor leaves it. -/
structure WellFormedBinding (row : AudienceBinding) : Prop where
  channel : Stripped row.channel
  audience : Returns (audienceFilterFromBinding row)

variable {row left right : AudienceBinding} {rows : List AudienceBinding}

theorem WellFormedBinding.strip_channel (h : WellFormedBinding row) : strip row.channel ≠ "" := by
  rw [h.channel.1]
  exact h.channel.2

theorem returns_publishBinding_make {audience : AudienceFilter} {channel : String}
    (h : strip channel ≠ "") : Returns (PublishBinding.make audience channel) := by
  rw [PublishBinding.make, dif_pos h]
  exact returns_ok _

theorem WellFormedBinding.returns_publishBinding (h : WellFormedBinding row) :
    Returns (publishBindingFromRecord row) := by
  refine Returns.bind h.audience ?_
  intro audience _
  exact returns_publishBinding_make h.strip_channel

theorem returns_conflictBetween (hleft : WellFormedBinding left) (hright : WellFormedBinding right) :
    Returns (conflictBetween left right) := by
  unfold conflictBetween
  split
  · exact returns_pure _
  · split
    · exact returns_pure _
    · split
      · exact returns_pure _
      · refine Returns.bind hleft.audience fun _ _ => Returns.bind hright.audience fun _ _ => ?_
        split
        · exact returns_pure _
        · exact returns_pure _

theorem returns_detectAudienceBindingConflicts (h : ∀ row ∈ rows, WellFormedBinding row) :
    Returns (detectAudienceBindingConflicts rows) := by
  refine Returns.bind (returns_mapM ?_) fun _ _ => returns_pure _
  rintro ⟨left, right⟩ hpair
  obtain ⟨hleft, hright⟩ := mem_of_mem_combinations hpair
  rw [mem_sortedBy, List.mem_filter] at hleft hright
  exact returns_conflictBetween (h left hleft.1) (h right hright.1)

theorem strip_conflict_reason (conflict : AudienceBindingConflictRecord) :
    strip conflict.reason ≠ "" := by
  have hhead : 'A' ∈ (toString "Active variants ").toList := by decide
  have hmem : 'A' ∈ conflict.reason.toList := by
    unfold AudienceBindingConflictRecord.reason
    repeat
      rw [String.toList_append]
      refine List.mem_append_left _ ?_
    exact hhead
  exact strip_ne_empty hmem (by decide)

theorem returns_publishConflict_make {audience : AudienceFilter} {channel reason : String}
    (hchannel : strip channel ≠ "") (hreason : strip reason ≠ "") :
    Returns (PublishConflict.make audience channel reason) := by
  rw [PublishConflict.make, dif_pos hchannel, dif_pos hreason]
  exact returns_ok _

theorem returns_conflictBlock (conflict : AudienceBindingConflictRecord)
    (h : WellFormedBinding row) : Returns (conflictBlock conflict row) := by
  refine Returns.bind h.audience fun audience _ => ?_
  exact Returns.bind (returns_publishConflict_make h.strip_channel (strip_conflict_reason conflict))
    fun _ _ => returns_pure _

theorem returns_publishConflictsFromRecords (repr : BindingKey → String)
    (h : ∀ row ∈ rows, WellFormedBinding row) : Returns (publishConflictsFromRecords repr rows) := by
  refine Returns.bind (returns_detectAudienceBindingConflicts h) fun conflicts hconflicts => ?_
  refine Returns.bind (returns_mapM ?_) fun _ _ => returns_pure _
  rintro ⟨conflict, record⟩ hpair
  obtain ⟨found, hfound, hside⟩ := List.mem_flatMap.mp hpair
  obtain ⟨hleft, hright, -⟩ := mem_detectAudienceBindingConflicts hconflicts hfound
  simp only [List.mem_cons, Prod.mk.injEq, List.not_mem_nil, or_false] at hside
  rcases hside with ⟨rfl, rfl⟩ | ⟨rfl, rfl⟩
  · exact returns_conflictBlock _ (h _ hleft)
  · exact returns_conflictBlock _ (h _ hright)

end Conflicts

section Preview

theorem returns_bindingMatrix {audiences : List AudienceFilter} {channels : List String}
    (h : ∀ channel ∈ channels, strip channel ≠ "") : Returns (bindingMatrix audiences channels) := by
  refine returns_mapM ?_
  rintro ⟨audience, channel⟩ hpair
  simp only [List.mem_flatMap, List.mem_map, Prod.mk.injEq] at hpair
  obtain ⟨_, -, _, hchannel, -, rfl⟩ := hpair
  exact returns_publishBinding_make (h _ hchannel)

theorem returns_resolveBindings {audiences : List AudienceFilter} {channels : List String}
    {targetBindings : List PublishBinding} {ha : audiences ≠ []} {hc : channels ≠ []}
    (h : ∀ channel ∈ channels, strip channel ≠ "") :
    Returns (resolveBindings audiences channels targetBindings ha hc) := by
  unfold resolveBindings
  split
  · split
    · exact returns_ok _
    · rename_i e hmatrix
      obtain ⟨bindings, hbindings⟩ := @returns_bindingMatrix audiences channels h
      rw [hbindings] at hmatrix
      cases hmatrix
  · exact returns_ok _

/-- The constructor of a candidate accepts texts that are not blank and some audience and channel. -/
theorem returns_candidate_make {objectId title : String} {objectType : KnowledgeObjectType}
    {actionType : PublishActionType} {audiences : List AudienceFilter} {channels : List String}
    {targetBindings currentBindings : List PublishBinding} {blocked : List PublishConflict}
    (hid : strip objectId ≠ "") (htitle : strip title ≠ "") (haudiences : audiences ≠ [])
    (hchannels : channels ≠ []) (hblank : ∀ channel ∈ channels, strip channel ≠ "") :
    Returns (PublishPreviewCandidate.make objectId objectType title actionType audiences channels
      targetBindings currentBindings blocked) := by
  have hnormal : (channels.map strip).eraseDups ≠ [] := by
    obtain ⟨channel, hchannel⟩ := List.exists_mem_of_ne_nil _ hchannels
    refine List.ne_nil_of_mem (a := strip channel) ?_
    rw [List.mem_eraseDups]
    exact List.mem_map_of_mem hchannel
  unfold PublishPreviewCandidate.make
  rw [dif_pos hid, dif_pos htitle]
  refine Returns.bind (returns_normalizeLabelled hblank) fun normal hok => ?_
  rw [normalizeLabelled_of_forall hblank] at hok
  obtain rfl := Except.ok.inj hok
  rw [dif_pos haudiences, dif_pos hnormal]
  refine Returns.bind (returns_resolveBindings ?_) fun _ _ => returns_pure _
  intro channel hchannel
  rw [List.mem_eraseDups] at hchannel
  obtain ⟨raw, hraw, rfl⟩ := List.mem_map.mp hchannel
  rw [strip_strip]
  exact hblank raw hraw

theorem strip_audienceLabel (audience : AudienceFilter) : strip (audienceLabel audience) ≠ "" := by
  have hhead : 'e' ∈ audience.visibility.value.toList := by
    cases audience.visibility <;> decide
  have hmem : 'e' ∈ (audienceLabel audience).toList := by
    unfold audienceLabel
    dsimp only
    split
    · rw [List.cons_append]
      exact mem_intercalate_head hhead
    · exact mem_intercalate_head hhead
  exact strip_ne_empty hmem (by decide)

theorem strip_visibilityMix (visibility : Visibility) (count : Nat) :
    strip s!"{visibility.value}:{count}" ≠ "" := by
  have hhead : 'e' ∈ (toString visibility.value).toList := by
    cases visibility <;> decide
  refine strip_ne_empty ?_ (show isSpace 'e' = false by decide)
  repeat
    rw [String.toList_append]
    refine List.mem_append_left _ ?_
  exact hhead

theorem returns_buildAudienceScope {impacts : List BlastRadiusImpact} (h : impacts ≠ []) :
    Returns (buildAudienceScope impacts) := by
  have hsome : 0 < (impacts.map BlastRadiusImpact.audienceFilter).eraseDups.length := by
    obtain ⟨impact, himpact⟩ := List.exists_mem_of_ne_nil _ h
    refine List.length_pos_of_mem (a := impact.audienceFilter) ?_
    rw [List.mem_eraseDups]
    exact List.mem_map_of_mem himpact
  refine Returns.bind (returns_require.mpr hsome) fun _ _ => ?_
  refine Returns.bind (returns_normalizeLabelled ?_) fun _ _ => ?_
  · intro text htext
    obtain ⟨visibility, -, hcount⟩ := List.mem_filterMap.mp htext
    dsimp only at hcount
    split at hcount
    · obtain rfl := Option.some.inj hcount
      exact strip_visibilityMix visibility _
    · cases hcount
  · refine Returns.bind (returns_normalizeLabelled ?_) fun _ _ => ?_
    · intro text htext
      obtain ⟨audience, -, rfl⟩ := List.mem_map.mp htext
      exact strip_audienceLabel audience
    · refine Returns.bind (returns_normalizeLabelled ?_) fun _ _ => returns_pure _
      intro text htext
      rw [List.mem_eraseDups] at htext
      obtain ⟨impact, -, rfl⟩ := List.mem_map.mp htext
      exact impact.channel.2

theorem previewImpacts_ne_nil (candidate : PublishPreviewCandidate) :
    previewImpacts candidate ≠ [] := by
  intro hnil
  simp only [previewImpacts, List.append_eq_nil_iff, List.map_eq_nil_iff] at hnil
  exact candidate.targeted hnil.1

theorem buildChannelGateMatrix_ne_nil {impacts : List BlastRadiusImpact} (h : impacts ≠ []) :
    buildChannelGateMatrix impacts ≠ [] := by
  obtain ⟨impact, himpact⟩ := List.exists_mem_of_ne_nil _ h
  intro hnil
  simp only [buildChannelGateMatrix, List.map_eq_nil_iff] at hnil
  have hmem : impact.channel ∈ (impacts.map BlastRadiusImpact.channel).eraseDups := by
    rw [List.mem_eraseDups]
    exact List.mem_map_of_mem himpact
  rw [hnil] at hmem
  cases hmem

theorem strip_buildWarnings (candidate : PublishPreviewCandidate)
    (impacts : List BlastRadiusImpact) : ∀ text ∈ buildWarnings candidate impacts, strip text ≠ "" := by
  intro text htext
  simp only [buildWarnings, List.mem_append] at htext
  rcases htext with (htext | htext) | htext
  all_goals
    split at htext
    · obtain rfl := List.mem_singleton.mp htext
      decide
    · cases htext

/-- A preview of a candidate is always built. -/
theorem returns_buildPublishBlastRadiusPreview (candidate : PublishPreviewCandidate) :
    Returns (buildPublishBlastRadiusPreview candidate) := by
  have hne := previewImpacts_ne_nil candidate
  refine Returns.bind (returns_buildAudienceScope hne) fun _ _ => ?_
  refine Returns.bind (returns_normalizeLabelled (strip_buildWarnings candidate _)) fun _ _ => ?_
  refine Returns.bind (returns_require.mpr (buildChannelGateMatrix_ne_nil hne)) fun _ _ => ?_
  exact Returns.bind (returns_require.mpr hne) fun _ _ => returns_pure _

end Preview

section Action

variable {action : DurableAction} {candidate : PublishPreviewCandidate} {reason : Option String}

/-- The targeted bindings the action needs are there. -/
def DurableAction.Available (action : DurableAction) (candidate : PublishPreviewCandidate) : Prop :=
  match action with
  | .publish | .republish | .restrictPublish => True
  | .holdExternal =>
    ∃ binding ∈ candidate.targetBindings, binding.audienceFilter.visibility = .external
  | .republishInternalOnly =>
    ∃ binding ∈ candidate.targetBindings, binding.audienceFilter.visibility = .internal ∧
      binding.key ∉ candidate.blockedBindings.map PublishConflict.key

theorem returns_holdConflict (reason : Option String) (binding : PublishBinding) :
    Returns (holdConflict reason binding) := by
  have hreason : strip ("Held for gated external review: " ++
      DurableAction.holdExternal.reasonOr reason) ≠ "" := by
    have hhead : 'H' ∈ "Held for gated external review: ".toList := by decide
    refine strip_ne_empty (c := 'H') ?_ (by decide)
    rw [String.toList_append]
    exact List.mem_append_left _ hhead
  exact Returns.bind (returns_publishConflict_make binding.channel.2 hreason)
    fun _ _ => returns_pure _

theorem DurableAction.returns_apply_iff :
    Returns (action.apply candidate reason) ↔ action.Available candidate := by
  cases action with
  | publish => simp [apply, Available]
  | republish => simp [apply, Available]
  | restrictPublish => simp [apply, Available]
  | holdExternal =>
    have hsome : ofVisibility .external candidate.targetBindings ≠ [] ↔
        DurableAction.holdExternal.Available candidate := by
      simp [ofVisibility, Available, List.filter_eq_nil_iff]
    rw [← hsome]
    simp only [apply]
    constructor
    · intro h
      rw [returns_bind] at h
      obtain ⟨_, hrequire, -⟩ := h
      exact require_ok.mp hrequire
    · intro h
      refine Returns.bind (returns_require.mpr h) fun _ _ => ?_
      exact Returns.bind (returns_mapM fun binding _ => returns_holdConflict reason binding)
        fun _ _ => returns_pure _
  | republishInternalOnly =>
    have hsome : unblocked candidate.blockedByKey
        (ofVisibility .internal candidate.targetBindings) ≠ [] ↔
          DurableAction.republishInternalOnly.Available candidate := by
      have hmem : ∀ binding, binding ∈ unblocked candidate.blockedByKey
          (ofVisibility .internal candidate.targetBindings) ↔
            binding ∈ candidate.targetBindings ∧ binding.audienceFilter.visibility = .internal ∧
              binding.key ∉ candidate.blockedBindings.map PublishConflict.key := by
        intro binding
        rw [mem_unblocked, mem_ofVisibility, mem_keys_blockedByKey, and_assoc]
      constructor
      · intro hne
        obtain ⟨binding, hbinding⟩ := List.exists_mem_of_ne_nil _ hne
        exact ⟨binding, (hmem binding).mp hbinding⟩
      · rintro ⟨binding, hbinding⟩
        exact List.ne_nil_of_mem ((hmem binding).mpr hbinding)
    rw [← hsome]
    simp only [apply]
    constructor
    · intro h
      rw [returns_bind] at h
      obtain ⟨_, hrequire, -⟩ := h
      exact require_ok.mp hrequire
    · intro h
      exact Returns.bind (returns_require.mpr h) fun _ _ => returns_pure _

theorem strip_actionLog (key reason : String) : strip s!"{key}:{reason}" ≠ "" := by
  have hmark : ':' ∈ (toString ":").toList := by decide
  refine strip_ne_empty (c := ':') ?_ (by decide)
  rw [String.toList_append, String.toList_append]
  exact List.mem_append_left _ (List.mem_append_right _ hmark)

theorem targetChannels_ne_nil (candidate : PublishPreviewCandidate) :
    candidate.targetChannels ≠ [] ∧ candidate.targetAudiences ≠ [] := by
  obtain ⟨binding, hbinding⟩ := List.exists_mem_of_ne_nil _ candidate.targeted
  constructor
  · refine List.ne_nil_of_mem (a := binding.channel.1) ?_
    rw [PublishPreviewCandidate.targetChannels, bindingsToChannels, List.mem_eraseDups]
    exact List.mem_map_of_mem hbinding
  · refine List.ne_nil_of_mem (a := binding.audienceFilter) ?_
    rw [PublishPreviewCandidate.targetAudiences, bindingsToAudiences, List.mem_eraseDups]
    exact List.mem_map_of_mem hbinding

theorem strip_targetChannels (candidate : PublishPreviewCandidate) :
    ∀ channel ∈ candidate.targetChannels, strip channel ≠ "" := by
  intro channel hchannel
  rw [PublishPreviewCandidate.targetChannels, bindingsToChannels, List.mem_eraseDups] at hchannel
  obtain ⟨binding, -, rfl⟩ := List.mem_map.mp hchannel
  exact binding.channel.2

theorem returns_executeDurablePublishAction_iff {actionKey : String} :
    Returns (executeDurablePublishAction candidate actionKey reason) ↔
      ∃ action, DurableAction.parse (strip actionKey) = some action ∧
        action.Available candidate := by
  constructor
  · rintro ⟨result, hresult⟩
    obtain ⟨action, updated, blocked, hparse, happly, -, -⟩ := executeDurablePublishAction_ok hresult
    exact ⟨action, hparse, DurableAction.returns_apply_iff.mp ⟨_, happly⟩⟩
  · rintro ⟨action, hparse, havailable⟩
    unfold executeDurablePublishAction
    simp only [hparse]
    refine Returns.bind (DurableAction.returns_apply_iff.mpr havailable) ?_
    rintro ⟨updated, blocked⟩ -
    obtain ⟨hchannels, haudiences⟩ := targetChannels_ne_nil candidate
    refine Returns.bind (returns_candidate_make candidate.objectId.2 candidate.title.2 haudiences
      hchannels (strip_targetChannels candidate)) fun updatedCandidate _ => ?_
    refine Returns.bind (returns_buildPublishBlastRadiusPreview updatedCandidate) fun _ _ => ?_
    refine Returns.bind (returns_normalizeLabelled ?_) fun _ _ => returns_pure _
    intro text htext
    obtain rfl := List.mem_singleton.mp htext
    exact strip_actionLog _ _

end Action

section Pipeline

variable {repr : BindingKey → String} {command : DurablePublishCommand} {object : KnowledgeObject}
  {previous : Option (List PublishBinding)} {rows : List AudienceBinding}

/-- The bindings the action needs are among the rows. -/
def DurableAction.AvailableOn (action : DurableAction) (rows : List AudienceBinding) : Prop :=
  match action with
  | .publish | .republish | .restrictPublish => True
  | .holdExternal => ∃ row ∈ rows, row.visibility = .external
  | .republishInternalOnly =>
    ∃ row ∈ rows, row.visibility = .internal ∧ ∀ other ∈ rows, ¬ Conflicting row other

theorem DurableAction.available_iff {action : DurableAction} {candidate : PublishPreviewCandidate}
    {pageId : Uuid} {objectId : String}
    (hrows : ∀ row ∈ rows, row.pageId = pageId ∧ row.objectRef = objectId ∧
      row.lifecycleState = .active)
    (hreturns : ∀ row ∈ rows, Returns (publishBindingFromRecord row))
    (htarget : ∀ binding, binding ∈ candidate.targetBindings ↔
      ∃ row ∈ rows, publishBindingFromRecord row = .ok binding)
    (hblocked : publishConflictsFromRecords repr rows = .ok candidate.blockedBindings) :
    action.Available candidate ↔ action.AvailableOn rows := by
  have hvisibility : ∀ {row : AudienceBinding} {binding : PublishBinding},
      publishBindingFromRecord row = .ok binding →
        binding.audienceFilter.visibility = row.visibility := by
    intro row binding hbinding
    exact audienceFilterFromBinding_visibility (publishBindingFromRecord_ok hbinding).1
  cases action with
  | publish => exact Iff.rfl
  | republish => exact Iff.rfl
  | restrictPublish => exact Iff.rfl
  | holdExternal =>
    constructor
    · rintro ⟨binding, hbinding, hexternal⟩
      obtain ⟨row, hrow, hrecord⟩ := (htarget binding).mp hbinding
      exact ⟨row, hrow, (hvisibility hrecord).symm.trans hexternal⟩
    · rintro ⟨row, hrow, hexternal⟩
      obtain ⟨binding, hrecord⟩ := hreturns row hrow
      exact ⟨binding, (htarget binding).mpr ⟨row, hrow, hrecord⟩,
        (hvisibility hrecord).trans hexternal⟩
  | republishInternalOnly =>
    constructor
    · rintro ⟨binding, hbinding, hinternal, hfree⟩
      obtain ⟨row, hrow, hrecord⟩ := (htarget binding).mp hbinding
      refine ⟨row, hrow, (hvisibility hrecord).symm.trans hinternal, ?_⟩
      intro other hother hconflict
      exact hfree ((key_blocked_iff hrows hblocked hrow hrecord).mpr ⟨other, hother, hconflict⟩)
    · rintro ⟨row, hrow, hinternal, hfree⟩
      obtain ⟨binding, hrecord⟩ := hreturns row hrow
      refine ⟨binding, (htarget binding).mpr ⟨row, hrow, hrecord⟩,
        (hvisibility hrecord).trans hinternal, ?_⟩
      intro hheld
      obtain ⟨other, hother, hconflict⟩ := (key_blocked_iff hrows hblocked hrow hrecord).mp hheld
      exact hfree other hother hconflict

/-- A command that targets every channel of well-formed rows gets as far as its action. -/
theorem publishBindings_eq (hrows : ∀ row ∈ rows, WellFormedBinding row) (hne : rows ≠ [])
    (hchannels : ∀ channel, channel ∈ command.targetChannels ↔
      channel ∈ rows.map AudienceBinding.channel)
    (hfirst : previous = none → command.actionKey = "publish")
    (hid : strip object.objectId ≠ "") (htitle : strip object.title ≠ "") :
    ∃ candidate, publishBindings repr command object previous rows =
        executeDurablePublishAction candidate command.actionKey command.reason ∧
      (∀ binding, binding ∈ candidate.targetBindings ↔
        ∃ row ∈ rows, publishBindingFromRecord row = .ok binding) ∧
      publishConflictsFromRecords repr rows = .ok candidate.blockedBindings := by
  have hrequested : command.requestedBindingRows rows = rows := by
    rw [DurablePublishCommand.requestedBindingRows, List.filter_eq_self]
    intro row hrow
    simpa using (hchannels row.channel).mpr (List.mem_map_of_mem hrow)
  have hmissing : (command.targetChannels.filter fun channel =>
      channel ∉ rows.map AudienceBinding.channel) = [] := by
    rw [List.filter_eq_nil_iff]
    intro channel hchannel
    simpa using (hchannels channel).mp hchannel
  obtain ⟨bindings, hbindings⟩ :=
    returns_mapM fun row hrow => (hrows row hrow).returns_publishBinding
  obtain ⟨blocked, hblocked⟩ := returns_publishConflictsFromRecords repr hrows
  have hsome : bindings.eraseDups ≠ [] := by
    obtain ⟨row, hrow⟩ := List.exists_mem_of_ne_nil _ hne
    obtain ⟨binding, hbinding, -⟩ := exists_of_mapM_ok hbindings hrow
    exact List.ne_nil_of_mem (List.mem_eraseDups.mpr hbinding)
  have haudiences : (bindings.eraseDups.map PublishBinding.audienceFilter).eraseDups ≠ [] := by
    obtain ⟨binding, hbinding⟩ := List.exists_mem_of_ne_nil _ hsome
    exact List.ne_nil_of_mem (List.mem_eraseDups.mpr (List.mem_map_of_mem hbinding))
  have hblank : ∀ channel ∈ command.targetChannels, strip channel ≠ "" := by
    intro channel hchannel
    rw [(command.stripped channel hchannel).1]
    exact (command.stripped channel hchannel).2
  have hallowed : ¬ (previous = none ∧ command.actionKey ≠ "publish") := by
    rintro ⟨hnone, haction⟩
    exact haction (hfirst hnone)
  have hparts : ∃ actionType, publishBindings repr command object previous rows =
      (PublishPreviewCandidate.make object.objectId object.objectType object.title actionType
        (bindings.eraseDups.map PublishBinding.audienceFilter).eraseDups command.targetChannels
        bindings.eraseDups (previous.getD []) blocked >>= fun candidate =>
          executeDurablePublishAction candidate command.actionKey command.reason) := by
    unfold publishBindings
    simp only [hmissing, hrequested, hbindings, hblocked, require_of, ok_bind, hsome, hallowed,
      ne_eq, not_false_eq_true]
    cases previous with
    | none => exact ⟨.publish, rfl⟩
    | some bindings => exact ⟨.republish, rfl⟩
  obtain ⟨actionType, hparts⟩ := hparts
  obtain ⟨candidate, hcandidate⟩ := @returns_candidate_make object.objectId object.title
    object.objectType actionType _ _ bindings.eraseDups (previous.getD []) blocked hid htitle
    haudiences command.targeted hblank
  obtain ⟨⟨_, -, htarget⟩, -, hheld⟩ := PublishPreviewCandidate.make_ok hcandidate
  rw [if_neg hsome] at htarget
  refine ⟨candidate, ?_, ?_, ?_⟩
  · rw [hparts, hcandidate]
    rfl
  · intro binding
    rw [htarget, List.mem_eraseDups]
    constructor
    · intro hbinding
      exact mem_of_mapM_ok hbindings hbinding
    · rintro ⟨row, hrow, hrecord⟩
      obtain ⟨found, hfound, hok⟩ := exists_of_mapM_ok hbindings hrow
      rw [hrecord] at hok
      rw [Except.ok.inj hok]
      exact hfound
  · rw [hheld]
    exact hblocked

theorem returns_publishBindings_iff {pageId : Uuid} {objectId : String}
    (hactive : ∀ row ∈ rows, row.pageId = pageId ∧ row.objectRef = objectId ∧
      row.lifecycleState = .active)
    (hrows : ∀ row ∈ rows, WellFormedBinding row) (hne : rows ≠ [])
    (hchannels : ∀ channel, channel ∈ command.targetChannels ↔
      channel ∈ rows.map AudienceBinding.channel)
    (hfirst : previous = none → command.actionKey = "publish")
    (hid : strip object.objectId ≠ "") (htitle : strip object.title ≠ "") :
    Returns (publishBindings repr command object previous rows) ↔
      ∃ action, DurableAction.parse (strip command.actionKey) = some action ∧
        action.AvailableOn rows := by
  obtain ⟨candidate, heq, htarget, hblocked⟩ :=
    @publishBindings_eq repr command object previous rows hrows hne hchannels hfirst hid htitle
  rw [heq, returns_executeDurablePublishAction_iff]
  have hreturns : ∀ row ∈ rows, Returns (publishBindingFromRecord row) := by
    intro row hrow
    exact (hrows row hrow).returns_publishBinding
  constructor
  · rintro ⟨action, hparse, havailable⟩
    exact ⟨action, hparse,
      (DurableAction.available_iff hactive hreturns htarget hblocked).mp havailable⟩
  · rintro ⟨action, hparse, havailable⟩
    exact ⟨action, hparse,
      (DurableAction.available_iff hactive hreturns htarget hblocked).mpr havailable⟩

end Pipeline

end Cygnus.Publish
