import Cygnus.Publish.Pipeline

namespace Cygnus.Publish

open Domain Governance Text Result Sequence

theorem mem_activeBindingRows {table : List AudienceBinding} {pageId : Uuid} {objectId : String}
    {r : AudienceBinding} (h : r ∈ activeBindingRows table pageId objectId) :
    r.pageId = pageId ∧ r.objectRef = objectId ∧ r.lifecycleState = .active := by
  rw [activeBindingRows, mem_sortedBy, List.mem_filter] at h
  simpa using h.2

theorem DurablePublishCommand.mem_requestedBindingRows {command : DurablePublishCommand}
    {rows : List AudienceBinding} {r : AudienceBinding} :
    r ∈ command.requestedBindingRows rows ↔ r ∈ rows ∧ r.channel ∈ command.targetChannels := by
  simp [requestedBindingRows]

theorem PublishBinding.make_ok {audience : AudienceFilter} {channel : String} {b : PublishBinding}
    (h : PublishBinding.make audience channel = .ok b) : b.key = (audience, channel) := by
  unfold PublishBinding.make at h
  split at h
  · cases h
    rfl
  · cases h

/-- The rebuilt matrix holds every binding whose channel survives stripping. -/
theorem mem_bindingMatrix {bindings matrix : List PublishBinding} {normalized : List String}
    (hn : normalizeLabelled "target channel" (bindingsToChannels bindings) = .ok normalized)
    (hm : bindingMatrix (bindingsToAudiences bindings) normalized = .ok matrix)
    {b : PublishBinding} (hb : b ∈ bindings) (hstripped : strip b.channel.1 = b.channel.1) :
    b ∈ matrix := by
  obtain ⟨rfl, -⟩ := normalizeStrings_ok hn
  have haudience : b.audienceFilter ∈ bindingsToAudiences bindings := by
    rw [bindingsToAudiences, List.mem_eraseDups]
    exact List.mem_map_of_mem hb
  have hchannel : b.channel.1 ∈ bindingsToChannels bindings := by
    rw [bindingsToChannels, List.mem_eraseDups]
    exact List.mem_map_of_mem hb
  have hpair : (b.audienceFilter, b.channel.1) ∈
      (bindingsToAudiences bindings).flatMap fun audience =>
        (((bindingsToChannels bindings).map strip).eraseDups).map fun channel =>
          (audience, channel) := by
    simp only [List.mem_flatMap, List.mem_map, Prod.mk.injEq, List.mem_eraseDups]
    exact ⟨_, haudience, _, ⟨_, hchannel, hstripped⟩, rfl, rfl⟩
  obtain ⟨y, hy, hmake⟩ := exists_of_mapM_ok hm hpair
  have hkey : y.key = b.key := PublishBinding.make_ok hmake
  rwa [← PublishBinding.key_injective hkey]

/-- A record's key is blocked exactly when the record conflicts with another requested one. -/
theorem key_blocked_iff {repr : BindingKey → String} {requested : List AudienceBinding}
    {blocked : List PublishConflict} {pageId : Uuid} {objectId : String}
    (hrows : ∀ r ∈ requested,
      r.pageId = pageId ∧ r.objectRef = objectId ∧ r.lifecycleState = .active)
    (hblocked : publishConflictsFromRecords repr requested = .ok blocked)
    {r : AudienceBinding} (hr : r ∈ requested) {b : PublishBinding}
    (hb : publishBindingFromRecord r = .ok b) :
    b.key ∈ blocked.map PublishConflict.key ↔ ∃ r' ∈ requested, Conflicting r r' := by
  obtain ⟨conflicts, hconflicts, hkeys⟩ := mem_publishConflictsFromRecords hblocked
  obtain ⟨haudience, hchannel⟩ := publishBindingFromRecord_ok hb
  rw [hkeys]
  constructor
  · rintro ⟨conflict, hmem, record, hside, audience, hrecord, hkey⟩
    simp only [PublishBinding.key, Prod.mk.injEq] at hkey
    obtain ⟨rfl, hsame⟩ := hkey
    obtain ⟨hleft, hright, hconflict⟩ := mem_detectAudienceBindingConflicts hconflicts hmem
    have hch : r.channel = record.channel := hchannel.symm.trans hsame
    rcases hside with rfl | rfl
    · rcases hconflict.of_same_key hrecord haudience hch with h | h
      · exact ⟨_, hleft, h⟩
      · exact ⟨_, hright, h⟩
    · rcases hconflict.symm.of_same_key hrecord haudience hch with h | h
      · exact ⟨_, hright, h⟩
      · exact ⟨_, hleft, h⟩
  · rintro ⟨r', hr', hconflict⟩
    have hkey : b.key = (b.audienceFilter, r.channel) := by rw [PublishBinding.key, hchannel]
    obtain ⟨hpage, hobject, hactive⟩ := hrows r hr
    obtain ⟨hpage', hobject', hactive'⟩ := hrows r' hr'
    rcases exists_detectAudienceBindingConflicts hconflicts hr hr' hactive hactive'
      (hpage.trans hpage'.symm) (hobject.trans hobject'.symm) hconflict with hmem | hmem
    · exact ⟨_, hmem, r, .inl rfl, b.audienceFilter, haudience, hkey⟩
    · exact ⟨_, hmem, r, .inr rfl, b.audienceFilter, haudience, hkey⟩

variable {repr : BindingKey → String} {command : DurablePublishCommand} {object : KnowledgeObject}
  {previous : Option (List PublishBinding)} {rows : List AudienceBinding}
  {result : PublishGovernanceResult}

theorem publishBindings_ok (h : publishBindings repr command object previous rows = .ok result) :
    ∃ bindings blocked candidate,
      (command.requestedBindingRows rows).mapM publishBindingFromRecord = .ok bindings ∧
      publishConflictsFromRecords repr (command.requestedBindingRows rows) = .ok blocked ∧
      (∀ b, b ∈ candidate.targetBindings ↔ b ∈ bindings) ∧ candidate.blockedBindings = blocked ∧
      executeDurablePublishAction candidate command.actionKey command.reason = .ok result := by
  simp only [publishBindings, bind_ok, require_ok] at h
  obtain ⟨-, -, bindings, hbindings, -, hne, -, -, blocked, hblocked, candidate, hmake, h⟩ := h
  obtain ⟨⟨_, -, htarget⟩, -, hheld⟩ := PublishPreviewCandidate.make_ok hmake
  rw [if_neg hne] at htarget
  refine ⟨bindings, blocked, candidate, hbindings, hblocked, fun b => ?_, hheld, h⟩
  rw [htarget, List.mem_eraseDups]

theorem DurableAction.keeps_iff {action : DurableAction}
    (haction : action = .publish ∨ action = .republish) (candidate : PublishPreviewCandidate)
    (b : PublishBinding) :
    action.Keeps candidate b ↔ b.key ∉ candidate.blockedBindings.map PublishConflict.key := by
  rcases haction with rfl | rfl <;> rfl

section Exposure

variable {candidate : PublishPreviewCandidate} {requested : List AudienceBinding}
  {bindings : List PublishBinding} {action : DurableAction}

/-- A targeted binding stays live exactly when the records behind it are in no conflict. -/
def LiveUnlessConflicting (action : DurableAction) (candidate : PublishPreviewCandidate)
    (requested : List AudienceBinding) : Prop :=
  ∀ r ∈ requested, ∀ b, publishBindingFromRecord r = .ok b →
    (action.Keeps candidate b ↔ ∀ r' ∈ requested, ¬ Conflicting r r')

theorem exposesOneVariant_of_free (hrequested : requested = command.requestedBindingRows rows)
    (hbindings : requested.mapM publishBindingFromRecord = .ok bindings)
    (htarget : ∀ b, b ∈ candidate.targetBindings ↔ b ∈ bindings)
    (hkeeps : LiveUnlessConflicting action candidate requested)
    (hkey : DurableAction.parse (strip command.actionKey) = some action)
    (h : executeDurablePublishAction candidate command.actionKey command.reason = .ok result)
    (hfree : ∃ r ∈ requested, ∀ r' ∈ requested, ¬ Conflicting r r') :
    ExposesOneVariant rows result := by
  obtain ⟨r, hr, hnone⟩ := hfree
  obtain ⟨b, hb, hrb⟩ := exists_of_mapM_ok hbindings hr
  obtain ⟨updated, _, happly, hupdated, -⟩ := targetBindings_of_keeps hkey h
    ⟨b, (htarget b).mpr hb, (hkeeps r hr b hrb).mpr hnone⟩
  have hlive := (DurableAction.apply_ok happly).1
  -- a record whose binding is live sits on a requested channel
  have hmem : ∀ record ∈ rows, ∀ b ∈ updated, publishBindingFromRecord record = .ok b →
      record ∈ requested := by
    intro record hrecord b hb hrb
    obtain ⟨r₀, hr₀, hr₀b⟩ := mem_of_mapM_ok hbindings ((htarget b).mp ((hlive b).mp hb).1)
    rw [hrequested, DurablePublishCommand.mem_requestedBindingRows] at hr₀ ⊢
    refine ⟨hrecord, ?_⟩
    rw [← (publishBindingFromRecord_ok hrb).2, (publishBindingFromRecord_ok hr₀b).2]
    exact hr₀.2
  intro left hleft right hright hchannel hvariant l hl r hr hleftl hrightr context hboth
  rw [hupdated] at hl hr
  have hleft := hmem left hleft l hl hleftl
  have hright := hmem right hright r hr hrightr
  refine (hkeeps left hleft l hleftl).mp ((hlive l).mp hl).2 right hright
    ⟨_, _, (publishBindingFromRecord_ok hleftl).1, (publishBindingFromRecord_ok hrightr).1,
      hchannel, hvariant, ?_⟩
  exact overlap_of_context hboth.1 hboth.2

/-- With every requested record in a conflict, all of them are live again. -/
theorem requested_live_of_not_free (hrequested : requested = command.requestedBindingRows rows)
    (hbindings : requested.mapM publishBindingFromRecord = .ok bindings)
    (htarget : ∀ b, b ∈ candidate.targetBindings ↔ b ∈ bindings)
    (hkeeps : LiveUnlessConflicting action candidate requested)
    (hkey : DurableAction.parse (strip command.actionKey) = some action)
    (h : executeDurablePublishAction candidate command.actionKey command.reason = .ok result)
    (hfree : ¬ ∃ r ∈ requested, ∀ r' ∈ requested, ¬ Conflicting r r') :
    ∀ r ∈ requested, ∃ b ∈ result.updatedCandidate.targetBindings,
      publishBindingFromRecord r = .ok b := by
  have hnone : ¬ ∃ b ∈ candidate.targetBindings, action.Keeps candidate b := by
    rintro ⟨b, hb, hk⟩
    obtain ⟨r, hr, hrb⟩ := mem_of_mapM_ok hbindings ((htarget b).mp hb)
    exact hfree ⟨r, hr, (hkeeps r hr b hrb).mp hk⟩
  obtain ⟨normalized, hn, hmatrix⟩ := targetBindings_of_not_keeps hkey h hnone
  intro r hr
  obtain ⟨b, hb, hrb⟩ := exists_of_mapM_ok hbindings hr
  refine ⟨b, mem_bindingMatrix hn hmatrix ((htarget b).mpr hb) ?_, hrb⟩
  rw [hrequested, DurablePublishCommand.mem_requestedBindingRows] at hr
  rw [(publishBindingFromRecord_ok hrb).2]
  exact (command.stripped _ hr.2).1

/-- Two live conflicting records share a reader. -/
theorem not_exposesOneVariant {left right : AudienceBinding} (hconflict : Conflicting left right)
    (hleft : left ∈ rows) (hright : right ∈ rows)
    (hl : ∃ b ∈ result.updatedCandidate.targetBindings, publishBindingFromRecord left = .ok b)
    (hr : ∃ b ∈ result.updatedCandidate.targetBindings, publishBindingFromRecord right = .ok b) :
    ¬ ExposesOneVariant rows result := by
  intro hone
  obtain ⟨leftAudience, rightAudience, hla, hra, hchannel, hvariant, hoverlap⟩ := hconflict
  obtain ⟨context, hcl, hcr⟩ := exists_context_of_overlap hoverlap
  obtain ⟨l, hl, hleftl⟩ := hl
  obtain ⟨r, hr, hrightr⟩ := hr
  refine hone left hleft right hright hchannel hvariant l hl r hr hleftl hrightr context ⟨?_, ?_⟩
  · rw [(publishBindingFromRecord_ok hleftl).1] at hla
    rw [Except.ok.inj hla]
    exact hcl
  · rw [(publishBindingFromRecord_ok hrightr).1] at hra
    rw [Except.ok.inj hra]
    exact hcr

end Exposure

/-- Publishing exposes one variant to each reader exactly when some requested record is in no
conflict: with all of them blocked, the rebuilt matrix exposes every one. -/
theorem exposesOneVariant_iff (repr : BindingKey → String) (command : DurablePublishCommand)
    (object : KnowledgeObject) (previous : Option (List PublishBinding))
    (table : List AudienceBinding) (pageId : Uuid) (action : DurableAction)
    (result : PublishGovernanceResult)
    (hkey : DurableAction.parse (strip command.actionKey) = some action)
    (haction : action = .publish ∨ action = .republish)
    (h : publishBindings repr command object previous
      (activeBindingRows table pageId object.objectId) = .ok result) :
    ExposesOneVariant (activeBindingRows table pageId object.objectId) result ↔
      ∃ r ∈ command.requestedBindingRows (activeBindingRows table pageId object.objectId),
        ∀ r' ∈ command.requestedBindingRows (activeBindingRows table pageId object.objectId),
          ¬ Conflicting r r' := by
  obtain ⟨bindings, blocked, candidate, hbindings, hblocked, htarget, rfl, hexec⟩ :=
    publishBindings_ok h
  have hrows : ∀ r ∈ command.requestedBindingRows (activeBindingRows table pageId object.objectId),
      r.pageId = pageId ∧ r.objectRef = object.objectId ∧ r.lifecycleState = .active := by
    intro r hr
    exact mem_activeBindingRows (DurablePublishCommand.mem_requestedBindingRows.mp hr).1
  have hkeeps : LiveUnlessConflicting action candidate
      (command.requestedBindingRows (activeBindingRows table pageId object.objectId)) := by
    intro r hr b hb
    rw [DurableAction.keeps_iff haction, key_blocked_iff hrows hblocked hr hb]
    simp
  constructor
  · intro hone
    by_contra hfree
    have hlive := requested_live_of_not_free rfl hbindings htarget hkeeps hkey hexec hfree
    obtain ⟨b, hb⟩ := List.exists_mem_of_ne_nil _ candidate.targeted
    obtain ⟨left, hleft, -⟩ := mem_of_mapM_ok hbindings ((htarget b).mp hb)
    push Not at hfree
    obtain ⟨right, hright, hconflict⟩ := hfree left hleft
    exact not_exposesOneVariant hconflict
      (DurablePublishCommand.mem_requestedBindingRows.mp hleft).1
      (DurablePublishCommand.mem_requestedBindingRows.mp hright).1 (hlive left hleft)
      (hlive right hright) hone
  · exact exposesOneVariant_of_free rfl hbindings htarget hkeeps hkey hexec

def refundsObject : KnowledgeObject := ⟨"wiki:refunds", .answerCard, "Refunds"⟩

def publishWeb : DurablePublishCommand where
  draftId := 1
  approvalRef := 2
  approvalDigest := ""
  scopeDigest := ""
  signalId := 3
  signalFreshness := .fresh
  commandId := "cmd-1"
  actionKey := "publish"
  targetChannels := ["web"]
  expectedVersion := 1
  reason := none
  stripped := by decide
  targeted := by decide

def webRecord (id : Uuid) (variantRef : String) (visibility : Visibility) : AudienceBinding where
  id := id
  pageId := 7
  objectRef := "wiki:refunds"
  variantRef := variantRef
  channel := "web"
  visibility := visibility
  bindingKey := variantRef

/-- The hypotheses hold together: beside two conflicting external variants, an internal record
keeps the pipeline from rebuilding the matrix. -/
theorem internal_record_keeps_one_variant :
    ∃ result, publishBindings (fun key => key.2) publishWeb refundsObject none
        (activeBindingRows [webRecord 1 "a" .external, webRecord 2 "b" .external,
          webRecord 3 "c" .internal] 7 "wiki:refunds") = .ok result ∧
      ExposesOneVariant (activeBindingRows [webRecord 1 "a" .external, webRecord 2 "b" .external,
        webRecord 3 "c" .internal] 7 "wiki:refunds") result := by
  refine ⟨_, rfl, (exposesOneVariant_iff (fun key => key.2) publishWeb refundsObject none _ _ .publish
    _ (by decide) (.inl rfl) rfl).mpr ⟨webRecord 3 "c" .internal, by decide, ?_⟩⟩
  intro r hr hconflict
  have hrows : r = webRecord 1 "a" .external ∨ r = webRecord 2 "b" .external ∨
      r = webRecord 3 "c" .internal := by
    have hmem := (DurablePublishCommand.mem_requestedBindingRows.mp hr).1
    rw [activeBindingRows, mem_sortedBy] at hmem
    simpa using List.mem_of_mem_filter hmem
  rcases hrows with rfl | rfl | rfl
  · exact absurd hconflict.visibility_eq (by decide)
  · exact absurd hconflict.visibility_eq (by decide)
  · obtain ⟨_, _, _, _, _, hvariant, _⟩ := hconflict
    exact hvariant rfl

/-- Two variants on one channel for every external reader: both end up exposed. -/
theorem conflicting_variants_exposed :
    ∃ result, publishBindings (fun key => key.2) publishWeb refundsObject none
        (activeBindingRows [webRecord 1 "a" .external, webRecord 2 "b" .external] 7
          "wiki:refunds") = .ok result ∧
      ¬ ExposesOneVariant (activeBindingRows [webRecord 1 "a" .external,
        webRecord 2 "b" .external] 7 "wiki:refunds") result := by
  refine ⟨_, rfl, ?_⟩
  intro h
  exact h (webRecord 1 "a" .external) (by decide) (webRecord 2 "b" .external) (by decide) rfl
    (by decide) webBinding (List.mem_singleton_self _) webBinding (List.mem_singleton_self _) rfl
    rfl { visibility := .external } ⟨rfl, rfl⟩

end Cygnus.Publish
