import Cygnus.Publish.Action

namespace Cygnus.Publish

open Domain Text Result

@[simp] theorem mem_unblocked {blocked : BlockedByKey} {bindings : List PublishBinding}
    {b : PublishBinding} : b ∈ unblocked blocked bindings ↔ b ∈ bindings ∧ b.key ∉ blocked.keys := by
  simp [unblocked]

@[simp] theorem mem_ofVisibility {v : Visibility} {bindings : List PublishBinding}
    {b : PublishBinding} :
    b ∈ ofVisibility v bindings ↔ b ∈ bindings ∧ b.audienceFilter.visibility = v := by
  simp [ofVisibility]

@[simp] theorem mem_keys_blockedByKey (candidate : PublishPreviewCandidate) (k : BindingKey) :
    k ∈ candidate.blockedByKey.keys ↔ k ∈ candidate.blockedBindings.map PublishConflict.key := by
  rw [PublishPreviewCandidate.blockedByKey, Dict.mem_keys_ofList]
  simp [Dict.keys]

/-- Every block is filed under its own key. -/
def BlockedByKey.Keyed (blocked : BlockedByKey) : Prop := ∀ item ∈ blocked, item.1 = item.2.key

theorem BlockedByKey.Keyed.mem_keys {blocked : BlockedByKey} (h : blocked.Keyed) (k : BindingKey) :
    k ∈ blocked.values.map PublishConflict.key ↔ k ∈ blocked.keys := by
  simp only [Dict.values, Dict.keys, List.map_map, List.mem_map, Function.comp_apply]
  constructor
  · rintro ⟨item, hitem, rfl⟩
    exact ⟨item, hitem, h item hitem⟩
  · rintro ⟨item, hitem, rfl⟩
    exact ⟨item, hitem, (h item hitem).symm⟩

theorem keyed_blockedByKey (candidate : PublishPreviewCandidate) :
    BlockedByKey.Keyed candidate.blockedByKey := by
  intro item hitem
  obtain ⟨b, -, rfl⟩ := List.mem_map.mp (Dict.mem_ofList hitem)
  rfl

theorem holdConflict_ok {reason : Option String} {b : PublishBinding}
    {item : BindingKey × PublishConflict} (h : holdConflict reason b = .ok item) :
    item.1 = b.key ∧ item.2.key = b.key := by
  simp only [holdConflict, PublishConflict.make, bind_ok, pure_ok] at h
  obtain ⟨conflict, hc, rfl⟩ := h
  split at hc
  · split at hc
    · cases hc
      exact ⟨rfl, rfl⟩
    · cases hc
  · cases hc

theorem mem_keys_held {reason : Option String} {bindings : List PublishBinding}
    {held : List (BindingKey × PublishConflict)} (h : bindings.mapM (holdConflict reason) = .ok held)
    (k : BindingKey) : k ∈ Dict.keys held ↔ k ∈ bindings.map PublishBinding.key := by
  simp only [Dict.keys, List.mem_map]
  constructor
  · rintro ⟨item, hitem, rfl⟩
    obtain ⟨b, hb, hitem⟩ := mem_of_mapM_ok h hitem
    exact ⟨b, hb, (holdConflict_ok hitem).1.symm⟩
  · rintro ⟨b, hb, rfl⟩
    obtain ⟨item, hmem, hitem⟩ := exists_of_mapM_ok h hb
    exact ⟨item, hmem, (holdConflict_ok hitem).1⟩

theorem key_mem_external {bindings : List PublishBinding} {b : PublishBinding} (hb : b ∈ bindings) :
    b.key ∈ (ofVisibility .external bindings).map PublishBinding.key ↔
      b.audienceFilter.visibility = .external := by
  rw [List.mem_map]
  constructor
  · rintro ⟨b', hb', hkey⟩
    rw [← PublishBinding.key_injective hkey]
    exact (mem_ofVisibility.mp hb').2
  · intro hv
    exact ⟨b, mem_ofVisibility.mpr ⟨hb, hv⟩, rfl⟩

theorem visibility_ne_external {v : Visibility} : v ≠ .external ↔ v = .internal := by
  cases v <;> simp

/-- The branches of `apply`, said once: which bindings stay live, and that none of them is
blocked. -/
theorem DurableAction.apply_ok {action : DurableAction} {candidate : PublishPreviewCandidate}
    {reason : Option String} {updated : List PublishBinding} {blocked : BlockedByKey}
    (h : action.apply candidate reason = .ok (updated, blocked)) :
    (∀ b, b ∈ updated ↔ b ∈ candidate.targetBindings ∧ action.Keeps candidate b) ∧
      (∀ b ∈ updated, b.key ∉ blocked.keys) ∧ blocked.Keyed := by
  cases action with
  | publish | republish =>
    simp only [apply, pure_ok, Prod.mk.injEq] at h
    obtain ⟨rfl, rfl⟩ := h
    refine ⟨fun b => ?_, fun b hb => (mem_unblocked.mp hb).2, keyed_blockedByKey candidate⟩
    rw [mem_unblocked, mem_keys_blockedByKey]
    rfl
  | restrictPublish =>
    simp only [apply, pure_ok, Prod.mk.injEq] at h
    obtain ⟨rfl, rfl⟩ := h
    exact ⟨fun b => by simp [Keeps], by simp, by simp [BlockedByKey.Keyed]⟩
  | holdExternal =>
    simp only [apply, bind_ok, require_ok, pure_ok, Prod.mk.injEq] at h
    obtain ⟨-, -, held, hheld, rfl, rfl⟩ := h
    refine ⟨fun b => ?_, fun b hb => (mem_unblocked.mp hb).2, ?_⟩
    · rw [mem_unblocked, Dict.mem_keys_update, mem_keys_blockedByKey, mem_keys_held hheld]
      refine and_congr_right fun hb => ?_
      rw [key_mem_external hb, not_or, ← Ne, visibility_ne_external, and_comm]
      rfl
    · intro item hitem
      rcases Dict.mem_update hitem with hitem | hitem
      · exact keyed_blockedByKey candidate item hitem
      · obtain ⟨b, -, hok⟩ := mem_of_mapM_ok hheld hitem
        rw [(holdConflict_ok hok).1, (holdConflict_ok hok).2]
  | republishInternalOnly =>
    simp only [apply, bind_ok, require_ok, pure_ok, Prod.mk.injEq] at h
    obtain ⟨-, -, rfl, rfl⟩ := h
    refine ⟨fun b => ?_, fun b hb hmem => ?_, fun item hitem => ?_⟩
    · rw [mem_unblocked, mem_ofVisibility, mem_keys_blockedByKey, and_assoc]
      rfl
    · obtain ⟨item, hitem, hkey⟩ := List.mem_map.mp hmem
      apply (mem_unblocked.mp hb).2
      rw [← hkey]
      exact List.mem_map_of_mem (List.mem_of_mem_filter hitem)
    · exact keyed_blockedByKey candidate item (List.mem_of_mem_filter hitem)

theorem executeDurablePublishAction_ok {candidate : PublishPreviewCandidate} {actionKey : String}
    {reason : Option String} {result : PublishGovernanceResult}
    (h : executeDurablePublishAction candidate actionKey reason = .ok result) :
    ∃ action updated blocked, DurableAction.parse (strip actionKey) = some action ∧
      action.apply candidate reason = .ok (updated, blocked) ∧
      PublishPreviewCandidate.make candidate.objectId candidate.objectType candidate.title
        candidate.actionType candidate.targetAudiences candidate.targetChannels updated
        candidate.currentBindings blocked.values = .ok result.updatedCandidate ∧
      result.heldBindings = blocked.values := by
  simp only [executeDurablePublishAction] at h
  split at h
  · simp at h
  · rename_i action hparse
    simp only [bind_ok, pure_ok] at h
    obtain ⟨⟨updated, blocked⟩, happly, updatedCandidate, hmake, _, -, _, -, rfl⟩ := h
    exact ⟨action, updated, blocked, hparse, happly, hmake, rfl⟩

/-- While some targeted binding stays live, the result targets exactly the live ones. -/
theorem targetBindings_of_keeps {candidate : PublishPreviewCandidate} {actionKey : String}
    {reason : Option String} {action : DurableAction} {result : PublishGovernanceResult}
    (hkey : DurableAction.parse (strip actionKey) = some action)
    (h : executeDurablePublishAction candidate actionKey reason = .ok result)
    (hkeeps : ∃ b ∈ candidate.targetBindings, action.Keeps candidate b) :
    ∃ updated blocked, action.apply candidate reason = .ok (updated, blocked) ∧
      result.updatedCandidate.targetBindings = updated ∧
      result.heldBindings = blocked.values := by
  obtain ⟨action', updated, blocked, hparse, happly, hmake, hheld⟩ :=
    executeDurablePublishAction_ok h
  obtain rfl : action' = action := by simpa [hparse] using hkey
  obtain ⟨hlive, -, -⟩ := DurableAction.apply_ok happly
  obtain ⟨⟨normalized, -, hresolved⟩, -, -⟩ := PublishPreviewCandidate.make_ok hmake
  obtain ⟨b, hb⟩ := hkeeps
  rw [if_neg (List.ne_nil_of_mem ((hlive b).mpr hb))] at hresolved
  exact ⟨updated, blocked, happly, hresolved, hheld⟩

/-- With no targeted binding left live, the result targets the full matrix of the candidate's
audiences and channels. -/
theorem targetBindings_of_not_keeps {candidate : PublishPreviewCandidate} {actionKey : String}
    {reason : Option String} {action : DurableAction} {result : PublishGovernanceResult}
    (hkey : DurableAction.parse (strip actionKey) = some action)
    (h : executeDurablePublishAction candidate actionKey reason = .ok result)
    (hkeeps : ¬ ∃ b ∈ candidate.targetBindings, action.Keeps candidate b) :
    ∃ normalized, normalizeLabelled "target channel" candidate.targetChannels = .ok normalized ∧
      bindingMatrix candidate.targetAudiences normalized =
        .ok result.updatedCandidate.targetBindings := by
  obtain ⟨action', updated, blocked, hparse, happly, hmake, -⟩ := executeDurablePublishAction_ok h
  obtain rfl : action' = action := by simpa [hparse] using hkey
  obtain ⟨hlive, -, -⟩ := DurableAction.apply_ok happly
  obtain ⟨⟨normalized, hn, hresolved⟩, -, -⟩ := PublishPreviewCandidate.make_ok hmake
  have hempty : updated = [] := by
    rw [List.eq_nil_iff_forall_not_mem]
    intro b hb
    exact hkeeps ⟨b, (hlive b).mp hb⟩
  rw [if_pos hempty] at hresolved
  exact ⟨normalized, hn, hresolved⟩

/-- The result keeps the persisted matrix exactly when the action leaves some targeted binding
live: with none left, the candidate's constructor rebuilds the full matrix. -/
theorem keepsBindingMatrix_iff (candidate : PublishPreviewCandidate) (actionKey : String)
    (reason : Option String) (action : DurableAction) (result : PublishGovernanceResult)
    (hkey : DurableAction.parse (strip actionKey) = some action)
    (h : executeDurablePublishAction candidate actionKey reason = .ok result) :
    KeepsBindingMatrix action candidate reason result ↔
      ∃ b ∈ candidate.targetBindings, action.Keeps candidate b := by
  constructor
  · intro hkeeps
    obtain ⟨action', updated, blocked, hparse, happly, -, -⟩ := executeDurablePublishAction_ok h
    obtain rfl : action' = action := by simpa [hparse] using hkey
    obtain ⟨b, hb⟩ := List.exists_mem_of_ne_nil _ result.updatedCandidate.targeted
    rw [hkeeps.live updated blocked happly] at hb
    exact ⟨b, ((DurableAction.apply_ok happly).1 b).mp hb⟩
  · intro hkeeps
    obtain ⟨updated, blocked, happly, hupdated, hheld⟩ := targetBindings_of_keeps hkey h hkeeps
    obtain ⟨hlive, hfree, hkeyed⟩ := DurableAction.apply_ok happly
    refine ⟨?_, ?_, ?_, ?_, ?_, ?_⟩ <;> rw [hupdated]
    · intro b hb
      exact List.mem_map_of_mem ((hlive b).mp hb).1
    · intro b hb
      rw [hheld, hkeyed.mem_keys]
      exact hfree b hb
    · rintro rfl
      obtain ⟨b, -, hfalse⟩ := hkeeps
      exact hfalse.elim
    · intro haction b hb
      have hk := ((hlive b).mp hb).2
      rcases haction with rfl | rfl <;> exact visibility_ne_external.mpr hk.1
    · intro haction b hb
      have hk := ((hlive b).mp hb).2
      rcases haction with rfl | rfl <;> exact hk
    · intro updated' blocked' happly'
      rw [happly] at happly'
      cases happly'
      rfl

def webBinding : PublishBinding := ⟨{ visibility := .external }, "web", by decide⟩

/-- One approved card, exposed to every external reader of the web channel. -/
def webCandidate : PublishPreviewCandidate where
  objectId := ⟨"wiki:refunds", by decide⟩
  objectType := .answerCard
  title := ⟨"Refunds", by decide⟩
  actionType := .republish
  targetBindings := [webBinding]
  currentBindings := [webBinding]
  blockedBindings := []
  targeted := by simp

/-- The hypotheses hold together: republishing the card keeps its one binding. -/
theorem republish_keeps_webBinding :
    ∃ result, executeDurablePublishAction webCandidate " republish " none = .ok result ∧
      KeepsBindingMatrix .republish webCandidate none result := by
  refine ⟨_, rfl, (keepsBindingMatrix_iff _ " republish " _ _ _ (by decide) rfl).mpr ?_⟩
  exact ⟨webBinding, List.mem_singleton_self _, by simp [DurableAction.Keeps, webCandidate]⟩

/-- Withdrawing the card leaves its binding targeted. -/
theorem restrict_publish_keeps_exposure :
    ∃ result, executeDurablePublishAction webCandidate "restrict_publish" none = .ok result ∧
      webBinding ∈ result.updatedCandidate.targetBindings ∧
      ¬ KeepsBindingMatrix .restrictPublish webCandidate none result := by
  refine ⟨_, rfl, List.mem_singleton_self _, ?_⟩
  intro h
  exact List.cons_ne_nil _ _ (h.restricted rfl)

end Cygnus.Publish
