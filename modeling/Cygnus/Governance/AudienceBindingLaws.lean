import Cygnus.Governance.AudienceBinding
import Mathlib.Data.List.ReduceOption

namespace Cygnus.Governance

open Domain Publish Text Result Sequence

theorem audienceFilterFromBinding_visibility {record : AudienceBinding} {audience : AudienceFilter}
    (h : audienceFilterFromBinding record = .ok audience) :
    audience.visibility = record.visibility := by
  rw [audienceFilterFromBinding, mapError_ok] at h
  simp only [AudienceFilter.make, bind_ok, pure_ok] at h
  obtain ⟨_, -, _, -, _, -, _, -, _, -, _, -, rfl⟩ := h
  rfl

theorem publishBindingFromRecord_ok {record : AudienceBinding} {binding : PublishBinding}
    (h : publishBindingFromRecord record = .ok binding) :
    audienceFilterFromBinding record = .ok binding.audienceFilter ∧
      binding.channel.1 = record.channel := by
  simp only [publishBindingFromRecord, PublishBinding.make, bind_ok] at h
  obtain ⟨audience, haudience, h⟩ := h
  split at h
  · cases h
    exact ⟨haudience, rfl⟩
  · cases h

/-- Two records route different variants to one channel and some reader is inside both
audiences. -/
def Conflicting (left right : AudienceBinding) : Prop :=
  ∃ leftAudience rightAudience, audienceFilterFromBinding left = .ok leftAudience ∧
    audienceFilterFromBinding right = .ok rightAudience ∧ left.channel = right.channel ∧
    left.variantRef ≠ right.variantRef ∧ audienceFiltersOverlap leftAudience rightAudience = true

theorem audienceFiltersOverlap_comm {left right : AudienceFilter}
    (h : audienceFiltersOverlap left right = true) : audienceFiltersOverlap right left = true := by
  obtain ⟨c, hl, hr⟩ := exists_context_of_overlap h
  exact overlap_of_context hr hl

theorem Conflicting.symm {left right : AudienceBinding} (h : Conflicting left right) :
    Conflicting right left := by
  obtain ⟨leftAudience, rightAudience, hl, hr, hchannel, hvariant, hoverlap⟩ := h
  exact ⟨rightAudience, leftAudience, hr, hl, hchannel.symm, hvariant.symm,
    audienceFiltersOverlap_comm hoverlap⟩

theorem Conflicting.visibility_eq {left right : AudienceBinding} (h : Conflicting left right) :
    left.visibility = right.visibility := by
  obtain ⟨leftAudience, rightAudience, hl, hr, -, -, hoverlap⟩ := h
  rw [← audienceFilterFromBinding_visibility hl, ← audienceFilterFromBinding_visibility hr]
  simp only [audienceFiltersOverlap, Bool.and_eq_true, beq_iff_eq] at hoverlap
  exact hoverlap.1

/-- A record that shares its audience and channel with one side of a conflict is itself in a
conflict with one of the two sides. -/
theorem Conflicting.of_same_key {left right record : AudienceBinding} {audience : AudienceFilter}
    (h : Conflicting left right) (hleft : audienceFilterFromBinding left = .ok audience)
    (hrecord : audienceFilterFromBinding record = .ok audience)
    (hchannel : record.channel = left.channel) :
    Conflicting record left ∨ Conflicting record right := by
  obtain ⟨leftAudience, rightAudience, hl, hr, hch, hvariant, hoverlap⟩ := h
  obtain rfl : leftAudience = audience := by
    rw [hl] at hleft
    exact Except.ok.inj hleft
  by_cases hv : record.variantRef = right.variantRef
  · refine .inl ⟨_, _, hrecord, hl, hchannel, ?_, ?_⟩
    · rw [hv]
      exact hvariant.symm
    · obtain ⟨c, hc, -⟩ := exists_context_of_overlap hoverlap
      exact overlap_of_context hc hc
  · exact .inr ⟨_, _, hrecord, hr, hchannel.trans hch, hv, hoverlap⟩

theorem conflictBetween_some {left right : AudienceBinding} {conflict}
    (h : conflictBetween left right = .ok (some conflict)) :
    conflict = ⟨left, right⟩ ∧ Conflicting left right := by
  simp only [conflictBetween] at h
  split at h
  · cases h
  · split at h
    · cases h
    · split at h
      · cases h
      · rename_i hplace hvariant
        simp only [bind_ok] at h
        obtain ⟨leftAudience, hl, rightAudience, hr, h⟩ := h
        split at h
        · rename_i hoverlap
          simp only [pure_ok, Option.some.injEq] at h
          simp only [not_or, not_not] at hplace
          exact ⟨h.symm, leftAudience, rightAudience, hl, hr, hplace.1, hvariant, hoverlap⟩
        · cases h

theorem conflictBetween_of_conflicting {left right : AudienceBinding} {found}
    (hpage : left.pageId = right.pageId) (hobject : left.objectRef = right.objectRef)
    (hconflict : Conflicting left right) (h : conflictBetween left right = .ok found) :
    found = some ⟨left, right⟩ := by
  obtain ⟨leftAudience, rightAudience, hl, hr, hchannel, hvariant, hoverlap⟩ := id hconflict
  have hfound : conflictBetween left right = .ok (some ⟨left, right⟩) := by
    simp [conflictBetween, hpage, hobject, hchannel, hconflict.visibility_eq, hvariant, hl, hr,
      hoverlap, bind_ok]
  rw [hfound] at h
  exact (Except.ok.inj h).symm

variable {bindings : List AudienceBinding} {conflicts : List AudienceBindingConflictRecord}

theorem mem_detectAudienceBindingConflicts (h : detectAudienceBindingConflicts bindings = .ok conflicts)
    {conflict} (hmem : conflict ∈ conflicts) :
    conflict.left ∈ bindings ∧ conflict.right ∈ bindings ∧
      Conflicting conflict.left conflict.right := by
  simp only [detectAudienceBindingConflicts, bind_ok, pure_ok] at h
  obtain ⟨found, hfound, rfl⟩ := h
  rw [List.reduceOption_mem_iff] at hmem
  obtain ⟨⟨left, right⟩, hpair, hbetween⟩ := mem_of_mapM_ok hfound hmem
  obtain ⟨rfl, hconflict⟩ := conflictBetween_some hbetween
  obtain ⟨hleft, hright⟩ := mem_of_mem_combinations hpair
  rw [mem_sortedBy, List.mem_filter] at hleft hright
  exact ⟨hleft.1, hright.1, hconflict⟩

theorem exists_detectAudienceBindingConflicts
    (h : detectAudienceBindingConflicts bindings = .ok conflicts) {left right : AudienceBinding}
    (hl : left ∈ bindings) (hr : right ∈ bindings) (hla : left.lifecycleState = .active)
    (hra : right.lifecycleState = .active) (hpage : left.pageId = right.pageId)
    (hobject : left.objectRef = right.objectRef) (hconflict : Conflicting left right) :
    ⟨left, right⟩ ∈ conflicts ∨ ⟨right, left⟩ ∈ conflicts := by
  simp only [detectAudienceBindingConflicts, bind_ok, pure_ok] at h
  obtain ⟨found, hfound, rfl⟩ := h
  have hne : left ≠ right := by
    rintro rfl
    obtain ⟨_, _, _, _, _, hvariant, _⟩ := hconflict
    exact hvariant rfl
  rw [List.reduceOption_mem_iff, List.reduceOption_mem_iff]
  have hleft : left ∈ sortedBy AudienceBinding.sortKey
      (bindings.filter (·.lifecycleState = .active)) := by simp [hl, hla]
  rcases mem_combinations hleft (by simp [hr, hra]) hne with hpair | hpair
  · obtain ⟨y, hy, hbetween⟩ := exists_of_mapM_ok hfound hpair
    rw [conflictBetween_of_conflicting hpage hobject hconflict hbetween] at hy
    exact .inl hy
  · obtain ⟨y, hy, hbetween⟩ := exists_of_mapM_ok hfound hpair
    rw [conflictBetween_of_conflicting hpage.symm hobject.symm hconflict.symm hbetween] at hy
    exact .inr hy

theorem conflictBlock_ok {conflict : AudienceBindingConflictRecord} {record : AudienceBinding}
    {item : BindingKey × PublishConflict} (h : conflictBlock conflict record = .ok item) :
    ∃ audience, audienceFilterFromBinding record = .ok audience ∧
      item.1 = (audience, record.channel) ∧ item.2.key = item.1 := by
  simp only [conflictBlock, PublishConflict.make, bind_ok, pure_ok] at h
  obtain ⟨audience, haudience, blocked, hblocked, rfl⟩ := h
  refine ⟨audience, haudience, ?_, rfl⟩
  split at hblocked
  · split at hblocked
    · cases hblocked
      rfl
    · cases hblocked
  · cases hblocked

/-- The keys blocked: those of the records on either side of a conflict. -/
theorem mem_publishConflictsFromRecords {repr : BindingKey → String}
    {blocked : List PublishConflict}
    (h : publishConflictsFromRecords repr bindings = .ok blocked) :
    ∃ conflicts, detectAudienceBindingConflicts bindings = .ok conflicts ∧
      ∀ k, k ∈ blocked.map PublishConflict.key ↔
        ∃ conflict ∈ conflicts, ∃ record, (record = conflict.left ∨ record = conflict.right) ∧
          ∃ audience, audienceFilterFromBinding record = .ok audience ∧
            k = (audience, record.channel) := by
  simp only [publishConflictsFromRecords, bind_ok, pure_ok] at h
  obtain ⟨conflicts, hconflicts, blocks, hblocks, rfl⟩ := h
  refine ⟨conflicts, hconflicts, fun k => ?_⟩
  simp only [Dict.values, List.map_map, List.mem_map, mem_sortedBy, Function.comp_apply]
  constructor
  · rintro ⟨item, hitem, rfl⟩
    obtain ⟨⟨conflict, record⟩, hpair, hblock⟩ := mem_of_mapM_ok hblocks (Dict.mem_ofList hitem)
    obtain ⟨audience, haudience, hkey, hown⟩ := conflictBlock_ok hblock
    simp only [List.mem_flatMap, List.mem_cons, Prod.mk.injEq, List.not_mem_nil, or_false] at hpair
    obtain ⟨conflict', hmem, hside⟩ := hpair
    refine ⟨conflict', hmem, record, ?_, audience, haudience, hown.trans hkey⟩
    exact hside.imp And.right And.right
  · rintro ⟨conflict, hmem, record, hside, audience, haudience, rfl⟩
    obtain ⟨item, hitem, hblock⟩ := exists_of_mapM_ok hblocks (x := (conflict, record)) (by
      simp only [List.mem_flatMap, List.mem_cons, Prod.mk.injEq, List.not_mem_nil, or_false]
      exact ⟨conflict, hmem, hside.imp (⟨rfl, ·⟩) (⟨rfl, ·⟩)⟩)
    obtain ⟨audience', haudience', hkey, -⟩ := conflictBlock_ok hblock
    rw [haudience] at haudience'
    obtain rfl := Except.ok.inj haudience'
    have hk : item.1 ∈ Dict.keys (Dict.ofList blocks) :=
      (Dict.mem_keys_ofList _ _).mpr (List.mem_map_of_mem hitem)
    obtain ⟨item', hitem', hfst⟩ := List.mem_map.mp hk
    refine ⟨item', hitem', ?_⟩
    obtain ⟨pair, -, hblock'⟩ := mem_of_mapM_ok hblocks (Dict.mem_ofList hitem')
    obtain ⟨_, _, _, hown⟩ := conflictBlock_ok hblock'
    rw [hown, hfst, hkey]

end Cygnus.Governance
