import Cygnus.Review.PreReviewLaws

/-! What every action keeps: the keys of both tables, the leases, the revisions of rows and the
content of a version. -/

namespace Cygnus.Review.PreReview

open Wiki Result Machine

variable {env : Platform} {w w' : World} {now : Timestamp}

structure Sound (w : World) : Prop where
  drafts : w.db.drafts.Keyed
  outbox : Outbox w.dispatches
  covered : ∀ staged ∈ w.db.preReviews, ∃ row ∈ w.dispatches, stagedFromDispatch row = staged
  claims : ∀ claim ∈ w.claims, ∃ row, w.dispatches.get claim.dispatchId = some row ∧
    stagedFromDispatch row = claim.staged

/-- How a step other than the end of a run changes the status of a row. -/
def Passes (old new : DispatchStatus) : Prop :=
  new = old ∨ Active old ∨ old = .running ∧ new = .failed

theorem Passes.trans {a b c : DispatchStatus} (hab : Passes a b) (hbc : Passes b c) :
    Passes a c := by
  rcases hab with rfl | ha | ⟨rfl, rfl⟩
  · exact hbc
  · exact .inr (.inl ha)
  · rcases hbc with rfl | hactive | ⟨habsurd, -⟩
    · exact .inr (.inr ⟨rfl, rfl⟩)
    · exact absurd hactive (by decide)
    · cases habsurd

theorem Passes.active {old new : DispatchStatus} (h : Passes old new) (hnew : Active new) :
    Active old := by
  rcases h with rfl | hold | ⟨-, rfl⟩
  · exact hnew
  · exact hold
  · exact absurd hnew (by decide)

theorem Passes.final {old new : DispatchStatus} (h : Passes old new) (hold : Final old) :
    new = old := by
  rcases h with rfl | hactive | ⟨rfl, -⟩
  · rfl
  · have hnot : ¬ Active old := by
      revert hold
      cases old <;> decide
    exact absurd hactive hnot
  · exact absurd hold (by decide)

structure Moves (w w' : World) : Prop where
  sound : Sound w → Sound w'
  rows : ∀ {id row}, w.dispatches.get id = some row → ∃ row', w'.dispatches.get id = some row' ∧
    stagedFromDispatch row' = stagedFromDispatch row ∧
    Passes row.dispatchStatus row'.dispatchStatus
  drafts : ∀ {id draft}, w.db.drafts.get id = some draft → ∃ draft',
    w'.db.drafts.get id = some draft' ∧ draft.version ≤ draft'.version ∧
      (draft'.version = draft.version → draft'.contentMd = draft.contentMd)

theorem Moves.refl (w : World) : Moves w w :=
  ⟨id, fun h => ⟨_, h, rfl, .inl rfl⟩, fun h => ⟨_, h, le_rfl, fun _ => rfl⟩⟩

theorem Moves.trans {w'' : World} (h : Moves w w') (h' : Moves w' w'') : Moves w w'' := by
  refine ⟨h'.sound ∘ h.sound, ?_, ?_⟩
  · intro id row hget
    obtain ⟨row', hget', hstaged, hpasses⟩ := h.rows hget
    obtain ⟨row'', hget'', hstaged', hpasses'⟩ := h'.rows hget'
    exact ⟨row'', hget'', hstaged'.trans hstaged, hpasses.trans hpasses'⟩
  · intro id draft hget
    obtain ⟨draft', hget', hle, hcontent⟩ := h.drafts hget
    obtain ⟨draft'', hget'', hle', hcontent'⟩ := h'.drafts hget'
    refine ⟨draft'', hget'', hle.trans hle', fun heq => ?_⟩
    have hmiddle : draft'.version = draft.version := le_antisymm (hle'.trans_eq heq) hle
    rw [hcontent' (heq.trans hmiddle.symm), hcontent hmiddle]

/-- Rows that stay under their ids with their revisions keep the world sound. -/
theorem Sound.of_rows (h : Sound w) (hdrafts : w'.db.drafts.Keyed) (houtbox : Outbox w'.dispatches)
    (hpreReviews : w'.db.preReviews = w.db.preReviews) (hclaims : w'.claims = w.claims)
    (hrows : ∀ {id row}, w.dispatches.get id = some row → ∃ row',
      w'.dispatches.get id = some row' ∧ stagedFromDispatch row' = stagedFromDispatch row) :
    Sound w' := by
  refine ⟨hdrafts, houtbox, ?_, ?_⟩
  · intro staged hstaged
    rw [hpreReviews] at hstaged
    obtain ⟨row, hrow, rfl⟩ := h.covered staged hstaged
    obtain ⟨row', hget, hsame⟩ := hrows (h.outbox.keyed.get_of_mem hrow)
    exact ⟨row', Table.get_mem hget, hsame⟩
  · intro claim hclaim
    rw [hclaims] at hclaim
    obtain ⟨row, hget, hstaged⟩ := h.claims claim hclaim
    obtain ⟨row', hget', hsame⟩ := hrows hget
    exact ⟨row', hget', hsame.trans hstaged⟩

section Store

variable {row row' : WikiDraftAiPreReviewDispatch} {draft draft' : WikiPageDraft}

theorem get_store_row (hrow : w.dispatches.get row.id = some row) (hid : row'.id = row.id)
    (i : Uuid) : (w.store draft' row').dispatches.get i =
      if row.id = i then some row' else w.dispatches.get i := by
  refine (Table.get_put row' w.dispatches i).trans ?_
  change (if row'.id = i then _ else _) = _
  rw [hid]
  split
  · rename_i hi
    rw [← hi, hrow, Option.map_some]
  · rfl

theorem get_store_draft (hdraft : w.db.drafts.get draft.id = some draft)
    (hid : draft'.id = draft.id) (i : Uuid) : (w.store draft' row').db.drafts.get i =
      if draft.id = i then some draft' else w.db.drafts.get i := by
  refine (Table.get_put draft' w.db.drafts i).trans ?_
  change (if draft'.id = i then _ else _) = _
  rw [hid]
  split
  · rename_i hi
    rw [← hi, hdraft, Option.map_some]
  · rfl

/-- A step on a draft and a row keeps the keys and the leases. -/
theorem Handles.sound (h : Handles draft draft' row row')
    (hrow : w.dispatches.get row.id = some row) (hw : Sound w) : Sound (w.store draft' row') := by
  have hput : w.dispatches.get row'.id = some row := by rw [h.rowId, hrow]
  apply hw.of_rows
  · exact hw.drafts.put draft'
  · exact hw.outbox.put hput h.staged
  · rfl
  · rfl
  · intro id old hget
    rw [get_store_row hrow h.rowId]
    split
    · rename_i hi
      subst hi
      rw [hrow] at hget
      cases hget
      exact ⟨row', rfl, h.staged⟩
    · exact ⟨old, hget, rfl⟩

theorem Handles.drafts (h : Handles draft draft' row row')
    (hdraft : w.db.drafts.get draft.id = some draft) {id : Uuid} {old : WikiPageDraft}
    (hget : w.db.drafts.get id = some old) : ∃ new, (w.store draft' row').db.drafts.get id = some new ∧
      old.version ≤ new.version ∧ (new.version = old.version → new.contentMd = old.contentMd) := by
  rw [get_store_draft hdraft h.aiOnly.id]
  split
  · rename_i hi
    subst hi
    rw [hdraft] at hget
    cases hget
    exact ⟨draft', rfl, h.aiOnly.sameRevision.version.ge, fun _ => h.aiOnly.sameRevision.contentMd⟩
  · exact ⟨old, hget, le_rfl, fun _ => rfl⟩

theorem Handles.moves (h : Handles draft draft' row row') (hactive : Active row.dispatchStatus)
    (hrow : w.dispatches.get row.id = some row)
    (hdraft : w.db.drafts.get draft.id = some draft) : Moves w (w.store draft' row') := by
  refine ⟨h.sound hrow, ?_, h.drafts hdraft⟩
  intro id old hget
  rw [get_store_row hrow h.rowId]
  split
  · rename_i hi
    subst hi
    rw [hrow] at hget
    cases hget
    exact ⟨row', rfl, h.staged, .inr (.inl hactive)⟩
  · exact ⟨old, hget, rfl, .inl rfl⟩

/-- A row whose draft is gone is only marked. -/
theorem moves_markStale (hactive : Active row.dispatchStatus)
    (hrow : w.dispatches.get row.id = some row) :
    Moves w { w with dispatches := w.dispatches.put (markStale now row) } := by
  have hrows : ∀ {id old}, w.dispatches.get id = some old → ∃ new,
      (w.dispatches.put (markStale now row)).get id = some new ∧
        stagedFromDispatch new = stagedFromDispatch old ∧
        Passes old.dispatchStatus new.dispatchStatus := by
    intro id old hget
    rw [Table.get_put]
    split
    · rename_i hi
      change row.id = id at hi
      subst hi
      rw [hrow] at hget
      cases hget
      exact ⟨markStale now row, by rw [hrow, Option.map_some], rfl, .inr (.inl hactive)⟩
    · exact ⟨old, hget, rfl, .inl rfl⟩
  refine ⟨fun hw => ?_, hrows, fun hget => ⟨_, hget, le_rfl, fun _ => rfl⟩⟩
  have hput : w.dispatches.get (markStale now row).id = some row := hrow
  apply hw.of_rows
  · exact hw.drafts
  · exact hw.outbox.put hput rfl
  · rfl
  · rfl
  · intro id old hget
    obtain ⟨new, hnew, hstaged, -⟩ := hrows hget
    exact ⟨new, hnew, hstaged⟩

end Store

section Handled

variable {row row' : WikiDraftAiPreReviewDispatch} {draft draft' : WikiPageDraft}
  {claim : AiPreReviewDispatchClaim}

/-- What a sweep does to a candidate, a settled enqueue to its claim and a job to its row: nothing,
the end of a row whose draft is gone, or one step on an active row and its draft. -/
inductive Handled (w : World) : World → Prop
  | idle : Handled w w
  | orphan {row : WikiDraftAiPreReviewDispatch} {now : Timestamp}
    (hactive : Active row.dispatchStatus) (hrow : w.dispatches.get row.id = some row)
    (hgone : w.db.drafts.get row.draftId = none) :
    Handled w { w with dispatches := w.dispatches.put (markStale now row) }
  | handle {row row' : WikiDraftAiPreReviewDispatch} {draft draft' : WikiPageDraft}
    {claims : List AiPreReviewDispatchClaim} {runs : List Run}
    (hactive : Active row.dispatchStatus) (hrow : w.dispatches.get row.id = some row)
    (hdraft : w.db.drafts.get row.draftId = some draft) (hhandles : Handles draft draft' row row')
    (hclaims : ∀ claim ∈ claims, claim.dispatchId = row.id ∧ claim.staged = stagedFromDispatch row) :
    Handled w { w.store draft' row' with claims := w.claims ++ claims, runs := runs }

theorem Handled.moves (h : Handled w w') : Moves w w' := by
  cases h with
  | idle => exact .refl w
  | orphan hactive hrow hgone => exact moves_markStale hactive hrow
  | @handle row row' draft draft' claims runs hactive hrow hdraft hhandles hclaims =>
    have hid : draft.id = row.draftId := Table.get_key hdraft
    rw [← hid] at hdraft
    have hmoves := hhandles.moves hactive hrow hdraft
    refine ⟨fun hw => ?_, hmoves.rows, hmoves.drafts⟩
    have hstore := hmoves.sound hw
    refine ⟨hstore.drafts, hstore.outbox, hstore.covered, ?_⟩
    intro claim hclaim
    rcases List.mem_append.mp hclaim with hold | hnew
    · exact hstore.claims claim hold
    · obtain ⟨hdispatch, hstaged⟩ := hclaims claim hnew
      have hget : (w.store draft' row').dispatches.get claim.dispatchId = some row' := by
        rw [get_store_row hrow hhandles.rowId, if_pos hdispatch.symm]
      exact ⟨row', hget, hhandles.staged.trans hstaged.symm⟩

theorem active_of_due (h : dispatchIsDue now row = true) : Active row.dispatchStatus := by
  unfold dispatchIsDue at h
  cases hstatus : row.dispatchStatus <;> simp [hstatus, Active] at h ⊢

theorem get_self {rows : Table WikiDraftAiPreReviewDispatch} {id : Uuid}
    (h : rows.get id = some row) : rows.get row.id = some row := by
  have hid : row.id = id := Table.get_key h
  rw [hid, h]

theorem claimCandidate_handled {enabled : Bool} {candidateId : Uuid} :
    Handled w (claimCandidate enabled now w candidateId) := by
  unfold claimCandidate
  split
  · exact .idle
  · rename_i row hget
    split
    · rename_i hdue
      have hactive := active_of_due hdue
      split
      · rename_i hgone
        exact .orphan hactive (get_self hget) hgone
      · rename_i draft hdraft
        refine .handle hactive (get_self hget) hdraft (claimDue_handles hactive) ?_
        intro claim hclaim
        exact claimDue_claim (Option.mem_toList.mp hclaim)
    · exact .idle

/-- Whatever every candidate keeps, the sweep keeps. -/
theorem claimDueDispatches_induction {P : World → Prop} {candidates : List Uuid} {enabled : Bool}
    (hstep : ∀ {s} id, P s → P (claimCandidate enabled now s id)) (hw : P w) :
    P (claimDueDispatches candidates enabled now w) := by
  unfold claimDueDispatches
  induction candidates generalizing w with
  | nil => exact hw
  | cons id candidates ih => exact ih (hstep id hw)

theorem settleClaim_handled {settle : WikiPageDraft → WikiDraftAiPreReviewDispatch →
      WikiPageDraft × WikiDraftAiPreReviewDispatch} (hw : Sound w) (hclaim : claim ∈ w.claims)
    (hsettle : ∀ draft row, claim.staged = stagedFromDispatch row →
      row.dispatchStatus = .dispatching → Handles draft (settle draft row).1 row (settle draft row).2) :
    Handled w (settleClaim claim now settle w) := by
  obtain ⟨named, hnamed, hstaged⟩ := hw.claims claim hclaim
  unfold settleClaim
  split
  · exact .idle
  · rename_i row hget
    rw [hnamed] at hget
    cases hget
    split
    · rename_i howned
      have hactive : Active named.dispatchStatus := by simp [howned.1, Active]
      have hdraftId : claim.staged.draftId = named.draftId := by rw [← hstaged, stagedFromDispatch]
      split
      · rename_i hgone
        rw [World.draftOf, hdraftId] at hgone
        exact .orphan hactive (get_self hnamed) hgone
      · rename_i draft hdraft
        rw [World.draftOf, hdraftId] at hdraft
        have hhandles := hsettle draft named hstaged.symm howned.1
        have hhandled : Handled w
            { w.store (settle draft named).1 (settle draft named).2 with
              claims := w.claims ++ [], runs := w.runs } :=
          .handle hactive (get_self hnamed) hdraft hhandles (by simp)
        rw [List.append_nil] at hhandled
        exact hhandled
    · exact .idle

theorem acknowledgeEnqueue_handled (hw : Sound w) (hclaim : claim ∈ w.claims) :
    Handled w (acknowledgeEnqueue claim now w) :=
  settleClaim_handled hw hclaim fun _ _ => acknowledged_handles

theorem recordEnqueueFailure_handled {message exceptionName : String} (hw : Sound w)
    (hclaim : claim ∈ w.claims) :
    Handled w (recordEnqueueFailure claim message exceptionName now w) :=
  settleClaim_handled hw hclaim fun _ _ => enqueueFailed_handles

/-- A job finds nothing to do, or takes an active row of its revision to its checks or its end. -/
theorem startRun_cases (w : World) (draftId : Uuid) (expectedRound expectedVersion : Option Nat)
    (now : Timestamp) :
    startRun draftId expectedRound expectedVersion now w = w ∨ ∃ expected row draft,
      loadExpectedDispatch w.dispatches expected = some row ∧ w.draftOf expected = some draft ∧
      row.dispatchStatus ∈ [.dispatching, .enqueued] ∧
      startRun draftId expectedRound expectedVersion now w =
        { w.store (startChecks now expected draft row).1 (startChecks now expected draft row).2.1 with
          runs := w.runs ++ (startChecks now expected draft row).2.2.toList } := by
  unfold startRun
  split
  · rename_i round version
    dsimp only
    split
    · rename_i draft row hdraft hload
      split
      · rename_i hstatus
        exact .inr ⟨_, row, draft, hload, hdraft, hstatus, rfl⟩
      · exact .inl rfl
    · exact .inl rfl
  · exact .inl rfl

theorem startRun_handled {draftId : Uuid} {expectedRound expectedVersion : Option Nat}
    (hw : Sound w) : Handled w (startRun draftId expectedRound expectedVersion now w) := by
  rcases startRun_cases w draftId expectedRound expectedVersion now with
    hsame | ⟨expected, row, draft, hload, hdraft, hstatus, heq⟩
  · rw [hsame]
    exact .idle
  · rw [heq]
    obtain ⟨-, rfl⟩ := load_some hload
    have hhandled : Handled w
        { w.store (startChecks now (stagedFromDispatch row) draft row).1
            (startChecks now (stagedFromDispatch row) draft row).2.1 with
          claims := w.claims ++ [],
          runs := w.runs ++ (startChecks now (stagedFromDispatch row) draft row).2.2.toList } :=
      .handle (List.mem_cons_of_mem _ hstatus) (hw.outbox.get_of_load hload) hdraft
        (startChecks_handles hstatus) (by simp)
    rw [List.append_nil] at hhandled
    exact hhandled

end Handled

section StuckSweep

variable {stuck overdue : List Uuid}

theorem resetDraft_key (draft : WikiPageDraft) : Row.key (resetDraft stuck draft) = Row.key draft := by
  unfold resetDraft
  split <;> rfl

theorem timeOut_key (row : WikiDraftAiPreReviewDispatch) :
    Row.key (timeOut stuck now row) = Row.key row := by
  unfold timeOut
  split <;> rfl

theorem timeOut_staged (row : WikiDraftAiPreReviewDispatch) :
    stagedFromDispatch (timeOut stuck now row) = stagedFromDispatch row := by
  unfold timeOut
  split <;> rfl

theorem timeOut_passes (row : WikiDraftAiPreReviewDispatch) :
    Passes row.dispatchStatus (timeOut stuck now row).dispatchStatus := by
  unfold timeOut
  split
  · rename_i hrunning
    exact .inr (.inr ⟨hrunning.2, rfl⟩)
  · exact .inl rfl

theorem Outbox.timeOut {rows : Table WikiDraftAiPreReviewDispatch} (h : Outbox rows) :
    Outbox (rows.map (timeOut stuck now)) := by
  refine ⟨h.keyed.map timeOut_key, ?_⟩
  have hsame : (rows.map (PreReview.timeOut stuck now)).map stagedFromDispatch =
      rows.map stagedFromDispatch := by
    rw [List.map_map]
    exact List.map_congr_left fun row _ => timeOut_staged row
  rw [hsame]
  exact h.revisions

theorem sweepStuckAiReview_moves : Moves w (sweepStuckAiReview overdue now w) := by
  have hrows : ∀ {id row}, w.dispatches.get id = some row → ∃ row',
      (sweepStuckAiReview overdue now w).dispatches.get id = some row' ∧
        stagedFromDispatch row' = stagedFromDispatch row ∧
        Passes row.dispatchStatus row'.dispatchStatus := by
    intro id row hget
    refine ⟨timeOut (stuckIds w.db.drafts overdue) now row, ?_, timeOut_staged row,
      timeOut_passes row⟩
    refine (Table.get_map timeOut_key w.dispatches id).trans ?_
    rw [hget, Option.map_some]
  refine ⟨fun hw => ?_, hrows, ?_⟩
  · apply hw.of_rows
    · exact hw.drafts.map resetDraft_key
    · exact hw.outbox.timeOut
    · rfl
    · rfl
    · intro id row hget
      obtain ⟨row', hget', hstaged, -⟩ := hrows hget
      exact ⟨row', hget', hstaged⟩
  · intro id draft hget
    refine ⟨resetDraft (stuckIds w.db.drafts overdue) draft, ?_, ?_, ?_⟩
    · refine (Table.get_map resetDraft_key w.db.drafts id).trans ?_
      rw [hget, Option.map_some]
    · unfold resetDraft
      split <;> exact le_rfl
    · intro _
      unfold resetDraft
      split <;> rfl

end StuckSweep

section Staging

variable {rowId : PendingAiPreReview → Uuid} {rows rows' : Table WikiDraftAiPreReviewDispatch}
  {staged other : PendingAiPreReview} {preReviews : List PendingAiPreReview}

/-- The rows of an outbox after some revisions were staged: those it had, and a pending one for each
revision without a row. -/
structure Stages (preReviews : List PendingAiPreReview)
    (rows rows' : Table WikiDraftAiPreReviewDispatch) : Prop where
  outbox : Outbox rows'
  kept : ∀ {id row}, rows.get id = some row → rows'.get id = some row
  status : ∀ staged, statusOf rows' staged =
    (statusOf rows staged).or (if staged ∈ preReviews then some .pending else none)

theorem statusOf_isSome : (statusOf rows staged).isSome ↔
    ∃ row ∈ rows, stagedFromDispatch row = staged := by
  rw [statusOf, Option.isSome_map, Option.isSome_iff_ne_none, ne_eq, load_none]
  simp

theorem insertDispatch_stages (h : Outbox rows)
    (hop : insertDispatch rowId rows staged = .ok rows') : Stages [staged] rows rows' := by
  unfold insertDispatch at hop
  split at hop
  · rename_i hsome
    cases hop
    refine ⟨h, id, fun other => ?_⟩
    by_cases hother : other = staged
    · subst hother
      obtain ⟨row, hrow⟩ := Option.isSome_iff_exists.mp hsome
      rw [statusOf, hrow, Option.map_some, Option.some_or]
    · rw [if_neg (by simpa using hother), Option.or_none]
  · rename_i hnone
    rw [Option.not_isSome_iff_eq_none] at hnone
    have hout : Outbox rows' := by
      apply h.insert _ hop
      exact hnone
    refine ⟨hout, ?_, fun other => ?_⟩
    · obtain ⟨-, rfl⟩ := Table.insert_ok hop
      exact fun hget => Table.get_append_of_some hget
    · obtain ⟨-, rfl⟩ := Table.insert_ok hop
      rw [statusOf, statusOf, loadExpectedDispatch, List.find?_append]
      by_cases hother : other = staged
      · subst hother
        rw [loadExpectedDispatch] at hnone
        rw [hnone, loadExpectedDispatch, hnone, if_pos (List.mem_singleton.mpr rfl)]
        simp [stagedFromDispatch]
      · have hne : ¬ staged = other := fun heq => hother heq.symm
        rw [if_neg (by simpa using hother), Option.or_none]
        simp [stagedFromDispatch, hne, loadExpectedDispatch]

theorem insertDispatches_stages (h : Outbox rows)
    (hop : preReviews.foldlM (insertDispatch rowId) rows = .ok rows') :
    Stages preReviews rows rows' := by
  induction preReviews generalizing rows with
  | nil =>
    rw [List.foldlM_nil, pure_ok] at hop
    subst hop
    exact ⟨h, id, fun staged => by simp⟩
  | cons staged preReviews ih =>
    rw [List.foldlM_cons, bind_ok] at hop
    obtain ⟨next, hnext, hop⟩ := hop
    have hfirst := insertDispatch_stages h hnext
    have hrest := ih hfirst.outbox hop
    refine ⟨hrest.outbox, fun hget => hrest.kept (hfirst.kept hget), fun other => ?_⟩
    rw [hrest.status, hfirst.status, Option.or_assoc]
    by_cases hother : other = staged
    · simp [hother]
    · simp [hother]

theorem Stages.covered (h : Stages preReviews rows rows') :
    ∀ staged ∈ preReviews, ∃ row ∈ rows', stagedFromDispatch row = staged := by
  intro staged hstaged
  rw [← statusOf_isSome, h.status, if_pos hstaged]
  simp

theorem lifecycle_moves {call : Call} (hw : Sound w)
    (hop : act env (.lifecycle call rowId) w = .ok w') : Moves w w' := by
  simp only [act, bind_ok, pure_ok] at hop
  obtain ⟨db, hperform, rows, hinsert, rfl⟩ := hop
  have hreopens : Reopens (fun _ => True) w.db call := by
    cases call <;> simp [Reopens]
  have hsteps := perform_steps hw.drafts hreopens hperform
  have hstages := insertDispatches_stages hw.outbox hinsert
  refine ⟨fun _ => ⟨hsteps.keyed hw.drafts, hstages.outbox, hstages.covered, ?_⟩, ?_, ?_⟩
  · intro claim hclaim
    obtain ⟨row, hget, hstaged⟩ := hw.claims claim hclaim
    exact ⟨row, hstages.kept hget, hstaged⟩
  · intro id row hget
    exact ⟨row, hstages.kept hget, rfl, .inl rfl⟩
  · exact fun hget => hsteps.keeps hget

end Staging

section Actions

/-- The parts of the world that only runs of the checks change. -/
structure SameRuns (w w' : World) : Prop where
  runs : w'.runs = w.runs
  written : w'.written = w.written

theorem claimCandidate_sameRuns {enabled : Bool} {candidateId : Uuid} :
    SameRuns w (claimCandidate enabled now w candidateId) := by
  unfold claimCandidate
  split
  · exact ⟨rfl, rfl⟩
  · split
    · split <;> exact ⟨rfl, rfl⟩
    · exact ⟨rfl, rfl⟩

theorem claimDueDispatches_sameRuns {candidates : List Uuid} {enabled : Bool} :
    SameRuns w (claimDueDispatches candidates enabled now w) := by
  apply claimDueDispatches_induction (P := SameRuns w) _ ⟨rfl, rfl⟩
  intro s id hs
  have hstep : SameRuns s (claimCandidate enabled now s id) := claimCandidate_sameRuns
  exact ⟨hstep.runs.trans hs.runs, hstep.written.trans hs.written⟩

theorem settleClaim_sameRuns {claim : AiPreReviewDispatchClaim}
    {settle : WikiPageDraft → WikiDraftAiPreReviewDispatch →
      WikiPageDraft × WikiDraftAiPreReviewDispatch} : SameRuns w (settleClaim claim now settle w) := by
  unfold settleClaim
  split
  · exact ⟨rfl, rfl⟩
  · split
    · split <;> exact ⟨rfl, rfl⟩
    · exact ⟨rfl, rfl⟩

/-- Every action but the end of a run only moves the world. -/
theorem act_moves {action : Action} (hw : Sound w)
    (haction : ∀ run review now, action ≠ .finishRun run review now)
    (hop : act env action w = .ok w') : Moves w w' := by
  cases action with
  | lifecycle call rowId => exact lifecycle_moves hw hop
  | sweep candidates enabled now =>
    cases hop
    exact claimDueDispatches_induction (P := Moves w)
      (fun id h => h.trans claimCandidate_handled.moves) (.refl w)
  | acknowledge claim now =>
    cases hop
    cases hclaim : w.claims[claim]? with
    | none => exact .refl w
    | some c => exact (acknowledgeEnqueue_handled hw (List.mem_of_getElem? hclaim)).moves
  | failEnqueue claim message exceptionName now =>
    cases hop
    cases hclaim : w.claims[claim]? with
    | none => exact .refl w
    | some c => exact (recordEnqueueFailure_handled hw (List.mem_of_getElem? hclaim)).moves
  | startRun draftId expectedRound expectedVersion now =>
    cases hop
    exact (startRun_handled hw).moves
  | finishRun run review now => exact absurd rfl (haction run review now)
  | crash run =>
    cases hop
    exact ⟨fun hw => ⟨hw.drafts, hw.outbox, hw.covered, hw.claims⟩, (Moves.refl w).rows,
      (Moves.refl w).drafts⟩
  | sweepStuck overdue now =>
    cases hop
    exact sweepStuckAiReview_moves

/-- What happens to runs and verdicts when no run starts or ends. -/
theorem act_runs {action : Action} (hstart : ∀ draftId round version now,
      action ≠ .startRun draftId round version now)
    (hfinish : ∀ run review now, action ≠ .finishRun run review now)
    (hop : act env action w = .ok w') :
    List.Sublist w'.runs w.runs ∧ w'.written = w.written := by
  have hsame : ∀ {s}, SameRuns w s → List.Sublist s.runs w.runs ∧ s.written = w.written :=
    fun h => ⟨by rw [h.runs], h.written⟩
  cases action with
  | lifecycle call rowId =>
    simp only [act, bind_ok, pure_ok] at hop
    obtain ⟨db, -, rows, -, rfl⟩ := hop
    exact hsame ⟨rfl, rfl⟩
  | sweep candidates enabled now =>
    cases hop
    exact hsame claimDueDispatches_sameRuns
  | acknowledge claim now =>
    cases hop
    cases w.claims[claim]? with
    | none => exact hsame ⟨rfl, rfl⟩
    | some c => exact hsame settleClaim_sameRuns
  | failEnqueue claim message exceptionName now =>
    cases hop
    cases w.claims[claim]? with
    | none => exact hsame ⟨rfl, rfl⟩
    | some c => exact hsame settleClaim_sameRuns
  | startRun draftId expectedRound expectedVersion now =>
    exact absurd rfl (hstart draftId expectedRound expectedVersion now)
  | finishRun run review now => exact absurd rfl (hfinish run review now)
  | crash run =>
    cases hop
    exact ⟨List.eraseIdx_sublist _ _, rfl⟩
  | sweepStuck overdue now =>
    cases hop
    exact hsame ⟨rfl, rfl⟩

end Actions

end Cygnus.Review.PreReview
