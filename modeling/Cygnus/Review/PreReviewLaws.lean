import Cygnus.Review.DraftSteps
import Cygnus.Review.PreReview

/-! What each step of the pre-review may do to a draft and to the row of its revision. -/

namespace Cygnus.Review.PreReview

open Wiki Result

/-- A sweep or a job may still take the row up. -/
def Active (status : DispatchStatus) : Prop := status ∈ [.pending, .dispatching, .enqueued]

/-- The statuses no row may leave. -/
def Final (status : DispatchStatus) : Prop := status ∈ [.completed, .disabled, .stale, .failed]

instance (status : DispatchStatus) : Decidable (Active status) := inferInstanceAs (Decidable (_ ∈ _))

instance (status : DispatchStatus) : Decidable (Final status) := inferInstanceAs (Decidable (_ ∈ _))

section Rows

variable {rows : Table WikiDraftAiPreReviewDispatch} {row row' : WikiDraftAiPreReviewDispatch}
  {staged : PendingAiPreReview}

/-- The two unique keys of the outbox. -/
structure Outbox (rows : Table WikiDraftAiPreReviewDispatch) : Prop where
  keyed : rows.Keyed
  revisions : (rows.map stagedFromDispatch).Nodup

theorem load_some (h : loadExpectedDispatch rows staged = some row) :
    row ∈ rows ∧ stagedFromDispatch row = staged := by
  constructor
  · exact List.mem_of_find?_eq_some h
  · simpa using List.find?_some h

theorem load_none : loadExpectedDispatch rows staged = none ↔
    ∀ row ∈ rows, stagedFromDispatch row ≠ staged := by
  simp [loadExpectedDispatch]

theorem Outbox.load_of_mem (h : Outbox rows) (hmem : row ∈ rows) :
    loadExpectedDispatch rows (stagedFromDispatch row) = some row := by
  cases hload : loadExpectedDispatch rows (stagedFromDispatch row) with
  | none => exact absurd rfl (load_none.mp hload row hmem)
  | some found =>
    obtain ⟨hfound, hstaged⟩ := load_some hload
    rw [List.inj_on_of_nodup_map h.revisions hfound hmem hstaged]

theorem Outbox.load_of_get (h : Outbox rows) {id : Uuid} (hget : rows.get id = some row) :
    loadExpectedDispatch rows (stagedFromDispatch row) = some row :=
  h.load_of_mem (Table.get_mem hget)

theorem Outbox.get_of_load (h : Outbox rows) (hload : loadExpectedDispatch rows staged = some row) :
    rows.get row.id = some row :=
  h.keyed.get_of_mem (load_some hload).1

theorem Outbox.put (h : Outbox rows) (hrow : rows.get row'.id = some row)
    (hstaged : stagedFromDispatch row' = stagedFromDispatch row) : Outbox (rows.put row') := by
  constructor
  · exact h.keyed.put row'
  · rw [Table.map_put h.keyed hrow hstaged]
    exact h.revisions

theorem Outbox.load_put (h : Outbox rows) (hrow : rows.get row'.id = some row)
    (hstaged : stagedFromDispatch row' = stagedFromDispatch row) (staged : PendingAiPreReview) :
    loadExpectedDispatch (rows.put row') staged =
      if stagedFromDispatch row = staged then some row' else loadExpectedDispatch rows staged := by
  have hout := h.put hrow hstaged
  split
  · rename_i hsame
    have hget : (rows.put row').get row'.id = some row' := by
      refine (Table.get_put row' rows row'.id).trans ?_
      rw [hrow]
      exact if_pos rfl
    have hload := hout.load_of_get hget
    rwa [hstaged, hsame] at hload
  · rename_i hother
    rw [loadExpectedDispatch, Table.find_put h.keyed hrow (by rw [hstaged])]
    cases hload : loadExpectedDispatch rows staged with
    | none =>
      rw [loadExpectedDispatch] at hload
      rw [hload]
      rfl
    | some found =>
      have hne : Row.key found ≠ Row.key row' := by
        intro hkey
        have hfound := h.get_of_load hload
        change rows.get (Row.key found) = some found at hfound
        rw [hkey] at hfound
        change rows.get row'.id = some found at hfound
        rw [hrow] at hfound
        cases hfound
        exact hother (load_some hload).2
      rw [loadExpectedDispatch] at hload
      rw [hload, Option.map_some, if_neg hne]

theorem Outbox.insert {taken : ReviewError} {rows' : Table WikiDraftAiPreReviewDispatch}
    (h : Outbox rows) (hfree : loadExpectedDispatch rows (stagedFromDispatch row) = none)
    (hinsert : rows.insert taken row = .ok rows') : Outbox rows' := by
  obtain ⟨hid, rfl⟩ := Table.insert_ok hinsert
  constructor
  · exact h.keyed.append hid
  · rw [List.map_append, List.nodup_append]
    refine ⟨h.revisions, by simp, ?_⟩
    rintro old hold new hnew rfl
    obtain ⟨row', hrow', rfl⟩ := List.mem_map.mp hold
    exact load_none.mp hfree row' hrow' (by simpa using hnew)

def statusOf (rows : Table WikiDraftAiPreReviewDispatch) (staged : PendingAiPreReview) :
    Option DispatchStatus :=
  (loadExpectedDispatch rows staged).map WikiDraftAiPreReviewDispatch.dispatchStatus

end Rows

section Steps

variable {now : Timestamp} {draft draft' : WikiPageDraft}
  {row row' : WikiDraftAiPreReviewDispatch} {status : DispatchStatus}

/-- What the AI status of a draft in review promises about the row of its revision. -/
structure Awaiting (draft : WikiPageDraft) (status : Option DispatchStatus) : Prop where
  pending : draft.aiCheckStatus = "pending" → status = some .pending
  queued : draft.aiCheckStatus = "queued" → ∃ active, status = some active ∧ Active active

/-- At most the AI columns of the draft differ. -/
structure AiOnly (draft draft' : WikiPageDraft) : Prop where
  id : draft'.id = draft.id
  status : draft'.status = draft.status
  sameRevision : SameRevision draft draft'

/-- One step on a draft and a row of one of its revisions. Only the AI columns of the draft change,
and only when the revision is in review or its draft still carries the queue marker. -/
structure Handles (draft draft' : WikiPageDraft) (row row' : WikiDraftAiPreReviewDispatch) :
    Prop where
  rowId : row'.id = row.id
  staged : stagedFromDispatch row' = stagedFromDispatch row
  active : Active row'.dispatchStatus → Active row.dispatchStatus
  aiOnly : AiOnly draft draft'
  ai : draft'.aiCheckStatus = draft.aiCheckStatus ∨
    (draft.version = row.draftVersion ∧ draft.revisionRound = row.revisionRound) ∧
      (draft.status = .pending ∨ draft.aiCheckStatus = "queued")
  awaiting : matchesDraftRevision draft (stagedFromDispatch row) →
    Awaiting draft (some row.dispatchStatus) → Awaiting draft' (some row'.dispatchStatus)

theorem awaiting_of_settled {status : Option DispatchStatus}
    (h : draft.aiCheckStatus ∉ ["pending", "queued"]) : Awaiting draft status := by
  simp only [List.mem_cons, List.not_mem_nil, or_false, not_or] at h
  exact ⟨fun hp => absurd hp h.1, fun hq => absurd hq h.2⟩

theorem Awaiting.settled (h : Awaiting draft (some status)) (hstatus : ¬ Active status) :
    draft.aiCheckStatus ∉ ["pending", "queued"] := by
  simp only [List.mem_cons, List.not_mem_nil, or_false, not_or]
  constructor
  · intro hp
    have hpending := h.pending hp
    cases hpending
    exact hstatus (by decide)
  · intro hq
    obtain ⟨active, hactive, hin⟩ := h.queued hq
    cases hactive
    exact hstatus hin

/-- The row changes and the draft does not. -/
theorem Handles.keep (hid : row'.id = row.id)
    (hstaged : stagedFromDispatch row' = stagedFromDispatch row)
    (hactive : Active row'.dispatchStatus → Active row.dispatchStatus)
    (hawaiting : matchesDraftRevision draft (stagedFromDispatch row) →
      Awaiting draft (some row.dispatchStatus) → Awaiting draft (some row'.dispatchStatus)) :
    Handles draft draft row row' :=
  ⟨hid, hstaged, hactive, ⟨rfl, rfl, rfl, rfl, rfl⟩, .inl rfl, hawaiting⟩

/-- The draft of the revision under review takes another AI status. -/
theorem Handles.mark (hdraft : AiOnly draft draft')
    (hmatches : matchesDraftRevision draft (stagedFromDispatch row)) (hid : row'.id = row.id)
    (hstaged : stagedFromDispatch row' = stagedFromDispatch row)
    (hactive : Active row'.dispatchStatus → Active row.dispatchStatus)
    (hawaiting : Awaiting draft' (some row'.dispatchStatus)) : Handles draft draft' row row' :=
  ⟨hid, hstaged, hactive, hdraft, .inr ⟨hmatches.2, .inl hmatches.1⟩, fun _ _ => hawaiting⟩

/-- The row ends, and with it a queue marker on its revision. -/
theorem Handles.clear (hid : row'.id = row.id)
    (hstaged : stagedFromDispatch row' = stagedFromDispatch row)
    (hended : ¬ Active row'.dispatchStatus)
    (hpending : matchesDraftRevision draft (stagedFromDispatch row) →
      Awaiting draft (some row.dispatchStatus) → draft.aiCheckStatus ≠ "pending") :
    Handles draft (clearStaleQueuedDraft draft (stagedFromDispatch row)) row row' := by
  unfold clearStaleQueuedDraft
  split
  · rename_i hcleared
    refine ⟨hid, hstaged, fun h => absurd h hended, ⟨rfl, rfl, rfl, rfl, rfl⟩,
      .inr ⟨⟨hcleared.1, hcleared.2.1⟩, .inr hcleared.2.2⟩, fun _ _ => ?_⟩
    apply awaiting_of_settled
    simp [withAiStatus]
  · rename_i hkept
    refine Handles.keep hid hstaged (fun h => absurd h hended) ?_
    intro hmatches hawaiting
    apply awaiting_of_settled
    simp only [List.mem_cons, List.not_mem_nil, or_false, not_or]
    exact ⟨hpending hmatches hawaiting, fun hq => hkept ⟨hmatches.2.1, hmatches.2.2, hq⟩⟩

theorem settled_of_final (h : draft.aiCheckStatus ∈ finalDraftAiStatuses) :
    draft.aiCheckStatus ∉ ["pending", "queued"] := by
  intro hmem
  simp only [finalDraftAiStatuses, List.mem_cons, List.not_mem_nil, or_false] at h hmem
  rcases hmem with hp | hq
  · simp [hp] at h
  · simp [hq] at h

theorem Handles.terminal {reason : String}
    (h : hasTerminalDraftVerdict draft (stagedFromDispatch row)) :
    Handles draft draft row (markCompleted now row reason) :=
  .keep rfl rfl (fun hactive => absurd hactive (by simp [Active, markCompleted]))
    fun _ _ => awaiting_of_settled (settled_of_final h.2)

theorem Handles.superseded
    (hpending : row.dispatchStatus = .pending → ¬ matchesPendingDraft draft (stagedFromDispatch row)) :
    Handles draft (clearStaleQueuedDraft draft (stagedFromDispatch row)) row (markStale now row) := by
  refine Handles.clear rfl rfl (by simp [Active, markStale, markStaleWith]) ?_
  intro hmatches hawaiting hp
  exact hpending (Option.some.inj (hawaiting.pending hp)) ⟨hmatches, hp⟩

theorem claimDue_handles {enabled : Bool} (hactive : Active row.dispatchStatus) :
    Handles draft (claimDue now enabled draft row).1 row (claimDue now enabled draft row).2.1 := by
  unfold claimDue
  dsimp only
  split
  · rename_i hterminal
    exact .terminal hterminal
  · split
    · rename_i hpending
      split
      · refine Handles.mark ?_ hpending.2.1 ?_ ?_ (fun _ => hactive) ⟨?_, ?_⟩
        · exact ⟨rfl, rfl, rfl, rfl, rfl⟩
        · rfl
        · rfl
        · simp [withAiStatus]
        · exact fun _ => ⟨.dispatching, rfl, by decide⟩
      · refine Handles.mark ?_ hpending.2.1 ?_ ?_ ?_ ?_
        · exact ⟨rfl, rfl, rfl, rfl, rfl⟩
        · rfl
        · rfl
        · simp [Active]
        · exact awaiting_of_settled (by simp [withAiStatus])
    · rename_i hnot
      split
      · rename_i hqueued
        refine .keep rfl rfl (fun _ => hactive) fun _ _ => ⟨?_, ?_⟩
        · simp [hqueued.2]
        · exact fun _ => ⟨.dispatching, rfl, by decide⟩
      · exact .superseded fun hp hm => hnot ⟨hp, hm⟩

theorem claimDue_claim {enabled : Bool} {claim : AiPreReviewDispatchClaim}
    (h : (claimDue now enabled draft row).2.2 = some claim) :
    claim.dispatchId = row.id ∧ claim.staged = stagedFromDispatch row := by
  have hlease : (claimDispatch now row).2.dispatchId = row.id ∧
      (claimDispatch now row).2.staged = stagedFromDispatch row := ⟨rfl, rfl⟩
  unfold claimDue at h
  dsimp only at h
  split at h
  · cases h
  · split at h
    · split at h
      · cases h
        exact hlease
      · cases h
    · split at h
      · cases h
        exact hlease
      · cases h

variable {claim : AiPreReviewDispatchClaim}

theorem acknowledged_handles (hstaged : claim.staged = stagedFromDispatch row)
    (hstatus : row.dispatchStatus = .dispatching) :
    Handles draft (acknowledged now claim draft row).1 row (acknowledged now claim draft row).2 := by
  have hactive : Active row.dispatchStatus := by simp [hstatus, Active]
  unfold acknowledged
  rw [hstaged]
  split
  · rename_i hterminal
    exact .terminal hterminal
  · split
    · rename_i hqueued
      refine .keep rfl rfl (fun _ => hactive) fun _ _ => ⟨?_, ?_⟩
      · simp [hqueued.2]
      · exact fun _ => ⟨.enqueued, rfl, by decide⟩
    · exact .superseded (by simp [hstatus])

theorem enqueueFailed_handles {error : String} (hstaged : claim.staged = stagedFromDispatch row)
    (hstatus : row.dispatchStatus = .dispatching) :
    Handles draft (enqueueFailed now claim error draft row).1 row
      (enqueueFailed now claim error draft row).2 := by
  have hactive : Active row.dispatchStatus := by simp [hstatus, Active]
  unfold enqueueFailed
  rw [hstaged]
  split
  · rename_i hterminal
    exact .terminal hterminal
  · split
    · exact .superseded (by simp [hstatus])
    · rename_i hqueued
      rw [not_not] at hqueued
      split
      · refine Handles.mark ?_ hqueued.1 ?_ ?_ ?_ ?_
        · exact ⟨rfl, rfl, rfl, rfl, rfl⟩
        · rfl
        · rfl
        · simp [Active]
        · exact awaiting_of_settled (by simp [withAiStatus])
      · refine .keep rfl rfl (fun _ => hactive) fun _ _ => ⟨?_, ?_⟩
        · simp [hqueued.2]
        · exact fun _ => ⟨.pending, rfl, by decide⟩

/-- A run that claims nothing ends its row. -/
theorem dropUnclaimed_handles {committed row' : WikiDraftAiPreReviewDispatch}
    (hid : row'.id = committed.id)
    (hstaged : stagedFromDispatch row' = stagedFromDispatch committed)
    (hended : ¬ Active row'.dispatchStatus)
    (hsettled : matchesDraftRevision draft (stagedFromDispatch committed) →
      Awaiting draft (some committed.dispatchStatus) →
      draft.aiCheckStatus ∉ ["pending", "queued"]) : Handles draft draft committed row' :=
  .keep hid hstaged (fun h => absurd h hended) fun hmatches hawaiting =>
    awaiting_of_settled (hsettled hmatches hawaiting)

theorem dropUnclaimed_status {loaded : WikiDraftAiPreReviewDispatch} :
    (dropUnclaimed now draft loaded).dispatchStatus ∈ [.completed, .stale] := by
  unfold dropUnclaimed
  split <;> simp [markCompleted, markDispatchStale, markStaleWith]

theorem not_active_of_mem (h : status ∈ [.completed, .stale]) : ¬ Active status := by
  revert h
  cases status <;> decide

theorem startChecks_handles (hstatus : row.dispatchStatus ∈ [.dispatching, .enqueued]) :
    Handles draft (startChecks now (stagedFromDispatch row) draft row).1 row
      (startChecks now (stagedFromDispatch row) draft row).2.1 := by
  have hactive : Active row.dispatchStatus := List.mem_cons_of_mem _ hstatus
  -- the row is taken up, so a draft that waits for it carries the queue marker
  have hmarked : Awaiting draft (some row.dispatchStatus) → draft.aiCheckStatus ≠ "pending" := by
    intro hawaiting hp
    rw [Option.some.inj (hawaiting.pending hp)] at hstatus
    revert hstatus
    decide
  have hstale : ¬ Active (markDispatchStale now row).dispatchStatus := by
    simp [Active, markDispatchStale, markStaleWith]
  unfold startChecks
  split
  · exact .clear rfl rfl hstale fun _ => hmarked
  · split
    · rename_i hsuperseded
      refine dropUnclaimed_handles rfl rfl hstale ?_
      intro hmatches
      rcases hsuperseded with hround | hversion
      · exact absurd hmatches.2.2 hround
      · exact absurd hmatches.2.1 hversion
    · split
      · rename_i hnotQueued
        have hid : (dropUnclaimed now draft row).id = row.id := by
          unfold dropUnclaimed
          split <;> rfl
        have hstaged : stagedFromDispatch (dropUnclaimed now draft row) = stagedFromDispatch row := by
          unfold dropUnclaimed
          split <;> rfl
        apply dropUnclaimed_handles hid hstaged (not_active_of_mem dropUnclaimed_status)
        intro _ hawaiting
        simp only [List.mem_cons, List.not_mem_nil, or_false, not_or]
        exact ⟨hmarked hawaiting, hnotQueued⟩
      · rename_i hpending hcurrent hqueued
        rw [not_or, not_not, not_not] at hcurrent
        rw [not_not] at hpending
        refine Handles.mark ?_ ⟨hpending, hcurrent.2, hcurrent.1⟩ ?_ ?_ ?_ ?_
        · exact ⟨rfl, rfl, rfl, rfl, rfl⟩
        · rfl
        · rfl
        · simp [Active]
        · exact awaiting_of_settled (by simp)

/-- What a run that goes on to its checks has found and left. -/
theorem startChecks_run {expected : PendingAiPreReview} {run : Run}
    (h : (startChecks now expected draft row).2.2 = some run) :
    run.expected = expected ∧ draft.version = expected.draftVersion ∧
      run.draft.contentMd = draft.contentMd ∧ run.dispatch.dispatchStatus = .running ∧
      (startChecks now expected draft row).2.1 = run.dispatch := by
  unfold startChecks at h ⊢
  split at h
  · cases h
  · rename_i hpending
    split at h
    · cases h
    · rename_i hcurrent
      split at h
      · cases h
      · rename_i hqueued
        rw [if_neg hpending, if_neg hcurrent, if_neg hqueued]
        rw [not_or, not_not, not_not] at hcurrent
        cases h
        exact ⟨rfl, hcurrent.2, rfl, rfl, rfl⟩

variable {expected : PendingAiPreReview} {checks : List JsonObject}
  {loaded current committed : WikiDraftAiPreReviewDispatch}

theorem finishChecks_status :
    (finishChecks now expected checks draft loaded).2.1.dispatchStatus ∈ [.completed, .stale] := by
  unfold finishChecks
  split
  · simp [markDispatchStale, markStaleWith]
  · split
    · exact dropUnclaimed_status
    · simp [markCompleted]

theorem flush_status (h : current.dispatchStatus ≠ loaded.dispatchStatus) :
    (flush loaded current committed).dispatchStatus = current.dispatchStatus := if_neg h

/-- The session believes its row to be running, so the end it gives the row is written. -/
theorem finishChecks_flushed (hloaded : loaded.dispatchStatus = .running) :
    (flush loaded (finishChecks now expected checks draft loaded).2.1 committed).dispatchStatus ∈
      [.completed, .stale] := by
  have hstatus : (finishChecks now expected checks draft loaded).2.1.dispatchStatus ∈
    [.completed, .stale] := finishChecks_status
  rw [flush_status]
  · exact hstatus
  · intro hsame
    rw [hsame, hloaded] at hstatus
    revert hstatus
    decide

theorem finishChecks_handles (hloaded : loaded.dispatchStatus = .running)
    (hinactive : ¬ Active committed.dispatchStatus) :
    Handles draft (finishChecks now (stagedFromDispatch committed) checks draft loaded).1 committed
      (flush loaded (finishChecks now (stagedFromDispatch committed) checks draft loaded).2.1
        committed) := by
  have hended : ¬ Active (flush loaded
      (finishChecks now (stagedFromDispatch committed) checks draft loaded).2.1
      committed).dispatchStatus := not_active_of_mem (finishChecks_flushed hloaded)
  revert hended
  unfold finishChecks
  split
  · intro hended
    exact .clear rfl rfl hended fun _ hawaiting hp => hawaiting.settled hinactive (by simp [hp])
  · rename_i hcurrent
    simp only [not_or, not_not] at hcurrent
    split
    · intro hended
      exact dropUnclaimed_handles rfl rfl hended fun _ hawaiting => hawaiting.settled hinactive
    · intro hended
      apply Handles.mark
      · exact ⟨rfl, rfl, rfl, rfl, rfl⟩
      · exact ⟨hcurrent.2.2, hcurrent.2.1, hcurrent.1⟩
      · rfl
      · rfl
      · exact fun h => absurd h hended
      · apply awaiting_of_settled
        change (if _ then "failed" else if _ then "warned" else "passed") ∉ _
        split
        · decide
        · split <;> decide

/-- A verdict is only written to the revision it is about, in review. -/
theorem finishChecks_wrote (h : (finishChecks now expected checks draft loaded).2.2 = true) :
    matchesDraftRevision draft expected := by
  unfold finishChecks at h
  split at h
  · cases h
  · rename_i hcurrent
    simp only [not_or, not_not] at hcurrent
    exact ⟨hcurrent.2.2, hcurrent.2.1, hcurrent.1⟩

end Steps

end Cygnus.Review.PreReview
