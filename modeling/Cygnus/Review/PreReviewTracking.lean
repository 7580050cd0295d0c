import Cygnus.Review.PreReviewVerdicts

/-! Drafts that wait for their pre-review, and the rows that still reach them. -/

namespace Cygnus.Review.PreReview

open Wiki Result Machine

variable {env : Platform} {w w' : World} {now : Timestamp}

/-- Rows belong to revisions that a draft has or had in review, and a draft that waits in review has
the row that its AI status promises. -/
structure Tracked (drafts : Table WikiPageDraft) (status : PendingAiPreReview → Option DispatchStatus) :
    Prop where
  known : ∀ staged, (status staged).isSome → ∃ draft, drafts.get staged.draftId = some draft ∧
    (staged.draftVersion < draft.version ∨
      staged.draftVersion = draft.version ∧ draft.status ≠ .draft)
  unsubmitted : ∀ id draft, drafts.get id = some draft → draft.status = .draft →
    draft.aiCheckStatus = "pending"
  awaiting : ∀ id draft, drafts.get id = some draft → draft.status = .pending →
    Awaiting draft (status (stagedFromDraft draft))

section Store

variable {row row' : WikiDraftAiPreReviewDispatch} {draft draft' : WikiPageDraft}

theorem Outbox.statusOf_of_mem {rows : Table WikiDraftAiPreReviewDispatch} (h : Outbox rows)
    (hrow : row ∈ rows) : statusOf rows (stagedFromDispatch row) = some row.dispatchStatus := by
  rw [statusOf, h.load_of_mem hrow, Option.map_some]

theorem Handles.statusOf_store (h : Handles draft draft' row row') (hw : Sound w)
    (hrow : w.dispatches.get row.id = some row) (staged : PendingAiPreReview) :
    statusOf (w.store draft' row').dispatches staged =
      if stagedFromDispatch row = staged then some row'.dispatchStatus
      else statusOf w.dispatches staged := by
  have hput : w.dispatches.get row'.id = some row := by rw [h.rowId, hrow]
  change (loadExpectedDispatch (w.dispatches.put row') staged).map _ = _
  rw [hw.outbox.load_put hput h.staged]
  split <;> rfl

theorem Handles.tracked (h : Handles draft draft' row row') (hw : Sound w)
    (hrow : w.dispatches.get row.id = some row) (hdraft : w.db.drafts.get row.draftId = some draft)
    (ht : Tracked w.db.drafts (statusOf w.dispatches)) :
    Tracked (w.store draft' row').db.drafts (statusOf (w.store draft' row').dispatches) := by
  have hid : draft.id = row.draftId := Table.get_key hdraft
  have hself : w.db.drafts.get draft.id = some draft := by
    rw [hid]
    exact hdraft
  have hstatus := hw.outbox.statusOf_of_mem (Table.get_mem hrow)
  have hget : ∀ i, (w.store draft' row').db.drafts.get i =
      if draft.id = i then some draft' else w.db.drafts.get i := get_store_draft hself h.aiOnly.id
  refine ⟨?_, ?_, ?_⟩
  · intro staged hsome
    have hbefore : (statusOf w.dispatches staged).isSome := by
      rw [h.statusOf_store hw hrow] at hsome
      split at hsome
      · rename_i hsame
        rw [← hsame, hstatus]
        rfl
      · exact hsome
    obtain ⟨found, hfound, hversion⟩ := ht.known staged hbefore
    rw [hget]
    split
    · rename_i hsame
      rw [← hsame, hself] at hfound
      cases hfound
      refine ⟨draft', rfl, ?_⟩
      rw [h.aiOnly.sameRevision.version, h.aiOnly.status]
      exact hversion
    · exact ⟨found, hfound, hversion⟩
  · intro id found hfound hfresh
    rw [hget] at hfound
    split at hfound
    · cases hfound
      have hstill : draft.status = .draft := h.aiOnly.status.symm.trans hfresh
      have hai := ht.unsubmitted _ draft hself hstill
      rcases h.ai with hsame | ⟨-, hpending | hqueued⟩
      · rw [hsame, hai]
      · rw [hpending] at hstill
        cases hstill
      · rw [hai] at hqueued
        exact absurd hqueued (by decide)
    · exact ht.unsubmitted id found hfound hfresh
  · intro id found hfound hpending
    rw [hget] at hfound
    split at hfound
    · cases hfound
      have hbefore : draft.status = .pending := h.aiOnly.status.symm.trans hpending
      have hstaged : stagedFromDraft draft' = stagedFromDraft draft := by
        rw [stagedFromDraft, stagedFromDraft, h.aiOnly.id, h.aiOnly.sameRevision.version,
          h.aiOnly.sameRevision.revisionRound]
      have hawaiting := ht.awaiting _ draft hself hbefore
      rw [h.statusOf_store hw hrow, hstaged]
      split
      · rename_i hcurrent
        rw [← hcurrent, hstatus] at hawaiting
        refine h.awaiting ⟨hbefore, ?_, ?_⟩ hawaiting
        · rw [hcurrent, stagedFromDraft]
        · rw [hcurrent, stagedFromDraft]
      · rename_i hother
        -- the row is about another revision, so the draft is as it was
        rcases h.ai with hsame | ⟨⟨hversion, hround⟩, -⟩
        · exact ⟨fun hp => hawaiting.pending (hsame.symm.trans hp),
            fun hq => hawaiting.queued (hsame.symm.trans hq)⟩
        · exact absurd (by rw [stagedFromDispatch, stagedFromDraft, hid, hversion, hround]) hother
    · rename_i hne
      rw [h.statusOf_store hw hrow, if_neg]
      · exact ht.awaiting id found hfound hpending
      · intro hsame
        have hfoundId : found.id = id := Table.get_key hfound
        have hdraftId : row.draftId = found.id := congrArg PendingAiPreReview.draftId hsame
        exact hne (hid.trans (hdraftId.trans hfoundId))

theorem Handled.tracked (h : Handled w w') (hw : Sound w)
    (ht : Tracked w.db.drafts (statusOf w.dispatches)) :
    Tracked w'.db.drafts (statusOf w'.dispatches) := by
  cases h with
  | idle => exact ht
  | @orphan row now hactive hrow hgone =>
    have hsome : (statusOf w.dispatches (stagedFromDispatch row)).isSome := by
      rw [hw.outbox.statusOf_of_mem (Table.get_mem hrow)]
      rfl
    obtain ⟨draft, hdraft, -⟩ := ht.known _ hsome
    change w.db.drafts.get row.draftId = some draft at hdraft
    rw [hgone] at hdraft
    cases hdraft
  | handle hactive hrow hdraft hhandles hclaims => exact hhandles.tracked hw hrow hdraft ht

end Store

section StuckSweep

theorem resetDraft_cases (stuck : List Uuid) (draft : WikiPageDraft) :
    (resetDraft stuck draft).aiCheckStatus = draft.aiCheckStatus ∨
      draft.aiCheckStatus = "running" ∧ (resetDraft stuck draft).aiCheckStatus = "skipped" := by
  unfold resetDraft
  split
  · rename_i hreset
    exact .inr ⟨hreset.2, rfl⟩
  · exact .inl rfl

theorem resetDraft_aiOnly (stuck : List Uuid) (draft : WikiPageDraft) : AiOnly draft (resetDraft stuck draft) := by
  unfold resetDraft
  split <;> exact ⟨rfl, rfl, rfl, rfl, rfl⟩

theorem statusOf_timeOut (stuck : List Uuid) (now : Timestamp)
    (rows : Table WikiDraftAiPreReviewDispatch)
    (staged : PendingAiPreReview) : statusOf (rows.map (timeOut stuck now)) staged =
      (loadExpectedDispatch rows staged).map fun row => (timeOut stuck now row).dispatchStatus := by
  rw [statusOf, loadExpectedDispatch, List.find?_map, Option.map_map]
  congr 2
  funext row
  rw [Function.comp_apply, timeOut_staged]

theorem reset_tracked {drafts : Table WikiPageDraft} {rows : Table WikiDraftAiPreReviewDispatch}
    (stuck : List Uuid) (ht : Tracked drafts (statusOf rows)) :
    Tracked (drafts.map (resetDraft stuck)) (statusOf (rows.map (timeOut stuck now))) := by
  have hmap : ∀ id, Table.get (drafts.map (resetDraft stuck)) id =
      (drafts.get id).map (resetDraft stuck) := Table.get_map resetDraft_key drafts
  refine ⟨?_, ?_, ?_⟩
  · intro staged hsome
    have hbefore : (statusOf rows staged).isSome := by
      rw [statusOf_timeOut, Option.isSome_map] at hsome
      rw [statusOf, Option.isSome_map]
      exact hsome
    obtain ⟨draft, hdraft, hversion⟩ := ht.known staged hbefore
    have hsame := resetDraft_aiOnly stuck draft
    refine ⟨resetDraft stuck draft, by rw [hmap, hdraft, Option.map_some], ?_⟩
    rw [hsame.sameRevision.version, hsame.status]
    exact hversion
  · intro id draft hdraft hfresh
    rw [hmap] at hdraft
    obtain ⟨before, hbefore, rfl⟩ := Option.map_eq_some_iff.mp hdraft
    have hai := ht.unsubmitted id before hbefore
      ((resetDraft_aiOnly stuck before).status.symm.trans hfresh)
    rcases resetDraft_cases stuck before with hsame | ⟨hrunning, -⟩
    · rw [hsame, hai]
    · rw [hai] at hrunning
      exact absurd hrunning (by decide)
  · intro id draft hdraft hpending
    rw [hmap] at hdraft
    obtain ⟨before, hbefore, rfl⟩ := Option.map_eq_some_iff.mp hdraft
    have hsame := resetDraft_aiOnly stuck before
    have hawaiting := ht.awaiting id before hbefore (hsame.status.symm.trans hpending)
    have hstaged : stagedFromDraft (resetDraft stuck before) = stagedFromDraft before := by
      rw [stagedFromDraft, stagedFromDraft, hsame.id, hsame.sameRevision.version,
        hsame.sameRevision.revisionRound]
    rw [statusOf_timeOut, hstaged]
    rcases resetDraft_cases stuck before with hkept | ⟨-, hskipped⟩
    · -- a row that promises something is not running, so the sweep leaves it alone
      have hactive : ∀ status, Active status →
          statusOf rows (stagedFromDraft before) = some status →
          ((loadExpectedDispatch rows (stagedFromDraft before)).map fun row =>
            (timeOut stuck now row).dispatchStatus) = some status := by
        intro status hstatus hsome
        obtain ⟨row, hload, hrow⟩ := Option.map_eq_some_iff.mp hsome
        rw [hload, Option.map_some, timeOut, if_neg, hrow]
        rintro ⟨-, hrunning⟩
        rw [hrow.symm.trans hrunning] at hstatus
        revert hstatus
        decide
      constructor
      · intro hp
        exact hactive .pending (by decide) (hawaiting.pending (hkept.symm.trans hp))
      · intro hq
        obtain ⟨status, hstatus, hin⟩ := hawaiting.queued (hkept.symm.trans hq)
        exact ⟨status, hactive status hin hstatus, hin⟩
    · exact awaiting_of_settled (by rw [hskipped]; decide)

end StuckSweep

section Lifecycle

variable {rows : Table WikiDraftAiPreReviewDispatch} {preReviews preReviews' : List PendingAiPreReview}
  {drafts : Table WikiPageDraft} {old new : WikiPageDraft}

/-- The status of a revision's row inside a transaction that has staged some revisions. -/
def reviewStatus (rows : Table WikiDraftAiPreReviewDispatch) (preReviews : List PendingAiPreReview)
    (staged : PendingAiPreReview) : Option DispatchStatus :=
  (statusOf rows staged).or (if staged ∈ preReviews then some .pending else none)

/-- A draft may go back into review while the row of its revision, if it has one, is pending. -/
def MayReopen (rows : Table WikiDraftAiPreReviewDispatch) (draft : WikiPageDraft) : Prop :=
  ∀ row ∈ rows, stagedFromDispatch row = stagedFromDraft draft → row.dispatchStatus = .pending

theorem reviewStatus_of_mayReopen (h : MayReopen rows old) {status : DispatchStatus}
    (hstatus : reviewStatus rows preReviews (stagedFromDraft old) = some status) :
    status = .pending := by
  unfold reviewStatus statusOf at hstatus
  cases hload : loadExpectedDispatch rows (stagedFromDraft old) with
  | none =>
    rw [hload, Option.map_none, Option.none_or] at hstatus
    split at hstatus
    · exact (Option.some.inj hstatus).symm
    · cases hstatus
  | some row =>
    obtain ⟨hrow, hstaged⟩ := load_some hload
    rw [hload, Option.map_some, Option.some_or] at hstatus
    rw [← Option.some.inj hstatus]
    exact h row hrow hstaged

/-- What staging a draft does to the statuses: the revision of a pending draft has one afterwards,
the one it had or `pending`. -/
structure StatusAfter (new : WikiPageDraft) (status status' : PendingAiPreReview → Option DispatchStatus) :
    Prop where
  other : ∀ staged, staged ≠ stagedFromDraft new → status' staged = status staged
  kept : ∀ {staged found}, status staged = some found → status' staged = some found
  idle : new.status ≠ .pending → status' (stagedFromDraft new) = status (stagedFromDraft new)
  staged : new.status = .pending → status (stagedFromDraft new) = none →
    status' (stagedFromDraft new) = some .pending

theorem stage_statusAfter (h : stageAiPreReview preReviews new = .ok preReviews') :
    StatusAfter new (reviewStatus rows preReviews) (reviewStatus rows preReviews') := by
  by_cases hpending : new.status = .pending
  · have hmem := stageAiPreReview_pending hpending h
    refine ⟨?_, ?_, fun hnot => absurd hpending hnot, ?_⟩
    · intro staged hne
      simp only [reviewStatus, hmem, hne, or_false]
    · intro staged found hfound
      simp only [reviewStatus, hmem]
      cases hstatus : statusOf rows staged with
      | some status => simpa [reviewStatus, hstatus] using hfound
      | none =>
        rw [reviewStatus, hstatus, Option.none_or] at hfound
        split at hfound
        · rename_i hold
          simpa [hold] using hfound
        · cases hfound
    · intro _ hnone
      simp only [reviewStatus, Option.or_eq_none_iff] at hnone
      simp [reviewStatus, hmem, hnone.1]
  · rw [stageAiPreReview_idle hpending] at h
    cases h
    exact ⟨fun _ _ => rfl, id, fun _ => rfl, fun hp => absurd hp hpending⟩

theorem StatusAfter.awaiting {status status' : PendingAiPreReview → Option DispatchStatus}
    (h : StatusAfter new status status') {draft : WikiPageDraft} {staged : PendingAiPreReview}
    (hawaiting : Awaiting draft (status staged)) : Awaiting draft (status' staged) := by
  refine ⟨fun hp => h.kept (hawaiting.pending hp), fun hq => ?_⟩
  obtain ⟨active, hstatus, hactive⟩ := hawaiting.queued hq
  exact ⟨active, h.kept hstatus, hactive⟩

/-- A draft that enters review without a row has a pending one afterwards. -/
theorem awaiting_of_pending {status : Option DispatchStatus} (hstatus : status = some .pending) :
    Awaiting new status :=
  ⟨fun _ => hstatus, fun _ => ⟨.pending, hstatus, by decide⟩⟩

theorem Tracked.create {status status' : PendingAiPreReview → Option DispatchStatus}
    (ht : Tracked drafts status) (hafter : StatusAfter new status status')
    (hfree : drafts.get new.id = none) (hai : new.aiCheckStatus = "pending") :
    Tracked (drafts ++ [new]) status' := by
  have hnone : status (stagedFromDraft new) = none := by
    by_contra hsome
    obtain ⟨draft, hdraft, -⟩ := ht.known (stagedFromDraft new) (Option.isSome_iff_ne_none.mpr hsome)
    change drafts.get new.id = some draft at hdraft
    rw [hfree] at hdraft
    cases hdraft
  have hother : ∀ {id draft}, drafts.get id = some draft → stagedFromDraft draft ≠ stagedFromDraft new := by
    intro id draft hdraft hsame
    have hid : draft.id = id := Table.get_key hdraft
    have hids : draft.id = new.id := congrArg PendingAiPreReview.draftId hsame
    rw [← hid, hids, hfree] at hdraft
    cases hdraft
  refine ⟨?_, ?_, ?_⟩
  · intro staged hsome
    by_cases hnew : staged = stagedFromDraft new
    · subst hnew
      have hpending : new.status = .pending := by
        by_contra hnot
        rw [hafter.idle hnot, hnone] at hsome
        cases hsome
      refine ⟨new, Table.get_append_self hfree, .inr ⟨rfl, ?_⟩⟩
      rw [hpending]
      decide
    · rw [hafter.other staged hnew] at hsome
      obtain ⟨draft, hdraft, hversion⟩ := ht.known staged hsome
      exact ⟨draft, Table.get_append_of_some hdraft, hversion⟩
  · intro id draft hdraft hfresh
    rcases Table.get_append_cases hdraft with hold | ⟨-, rfl⟩
    · exact ht.unsubmitted id draft hold hfresh
    · exact hai
  · intro id draft hdraft hpending
    rcases Table.get_append_cases hdraft with hold | ⟨-, rfl⟩
    · rw [hafter.other _ (hother hold)]
      exact ht.awaiting id draft hold hpending
    · exact awaiting_of_pending (hafter.staged hpending hnone)

theorem Tracked.write {reopens : WikiPageDraft → Prop}
    {status status' : PendingAiPreReview → Option DispatchStatus} (ht : Tracked drafts status)
    (hafter : StatusAfter new status status') (hold : drafts.get new.id = some old)
    (hrewrites : Rewrites reopens old new)
    (hreopens : reopens old → ∀ found, status (stagedFromDraft old) = some found → found = .pending) :
    Tracked (drafts.put new) status' := by
  have hid : old.id = new.id := Table.get_key hold
  have hself : drafts.get old.id = some old := by rw [hid, hold]
  have hget : ∀ id, (drafts.put new).get id = if new.id = id then some new else drafts.get id := by
    intro id
    refine (Table.get_put new drafts id).trans ?_
    change (if new.id = id then _ else _) = _
    split
    · rename_i hi
      rw [← hi, hold, Option.map_some]
    · rfl
  have hsame : SameRevision old new → stagedFromDraft new = stagedFromDraft old := by
    intro h
    rw [stagedFromDraft, stagedFromDraft, hid, h.version, h.revisionRound]
  have hknown : (status (stagedFromDraft new)).isSome →
      new.version < old.version ∨ new.version = old.version ∧ old.status ≠ .draft := by
    intro hsome
    obtain ⟨found, hfound, hversion⟩ := ht.known (stagedFromDraft new) hsome
    change drafts.get new.id = some found at hfound
    rw [hold] at hfound
    cases hfound
    exact hversion
  -- a revision under which the draft has not been in review has no row yet
  have hunused : new.version = old.version + 1 ∨ old.status = .draft ∧ SameRevision old new →
      status (stagedFromDraft new) = none := by
    intro hcase
    by_contra hsome
    rcases hcase with hnext | ⟨hdraft, hrevision⟩
    · have := hknown (Option.isSome_iff_ne_none.mpr hsome)
      omega
    · rcases hknown (Option.isSome_iff_ne_none.mpr hsome) with hlt | ⟨-, hne⟩
      · exact absurd hrevision.version hlt.ne
      · exact hne hdraft
  refine ⟨?_, ?_, ?_⟩
  · intro staged hsome
    by_cases hnew : staged = stagedFromDraft new ∧ new.status = .pending
    · obtain ⟨rfl, hpending⟩ := hnew
      refine ⟨new, ?_, .inr ⟨rfl, by rw [hpending]; decide⟩⟩
      exact (hget new.id).trans (if_pos rfl)
    · have hbefore : (status staged).isSome := by
        by_cases hstaged : staged = stagedFromDraft new
        · subst hstaged
          rwa [hafter.idle fun hpending => hnew ⟨rfl, hpending⟩] at hsome
        · rwa [hafter.other staged hstaged] at hsome
      obtain ⟨found, hfound, hversion⟩ := ht.known staged hbefore
      rw [hget]
      split
      · rename_i hi
        rw [← hi, hold] at hfound
        cases hfound
        refine ⟨new, rfl, ?_⟩
        cases hrewrites with
        | settled hrevision hai hstatus =>
          rw [hrevision.version]
          refine hversion.imp_right (And.imp_right fun hne => ?_)
          rcases hstatus with hstatus | hstatus
          · rwa [hstatus]
          · intro hdraft
            simp [hdraft] at hstatus
        | submitted hrevision hai hbefore hpending =>
          rw [hrevision.version]
          exact hversion.imp_right fun hsame => absurd hbefore hsame.2
        | edited hnext => exact .inl (by omega)
        | reworked hnext => exact .inl (by omega)
        | reopened hallowed hrevision hpending =>
          rw [hrevision.version, hpending]
          exact hversion.imp_right (And.imp_right fun _ => by decide)
      · exact ⟨found, hfound, hversion⟩
  · intro id draft hdraft hunsubmitted
    rw [hget] at hdraft
    split at hdraft
    · cases hdraft
      cases hrewrites with
      | settled hrevision hai hstatus =>
        rcases hstatus with hstatus | hstatus
        · rw [hai]
          exact ht.unsubmitted _ old hself (hstatus.symm.trans hunsubmitted)
        · simp [hunsubmitted] at hstatus
      | submitted hrevision hai hbefore hpending =>
        rw [hpending] at hunsubmitted
        cases hunsubmitted
      | edited hnext hdraft hai =>
        rcases hai with hai | ⟨hbefore, hai⟩
        · exact hai
        · rw [hai]
          exact ht.unsubmitted _ old hself hbefore
      | reworked hnext hpending hai => exact hai
      | reopened hallowed hrevision hpending hai => exact hai
    · exact ht.unsubmitted id draft hdraft hunsubmitted
  · intro id draft hdraft hpending
    rw [hget] at hdraft
    split at hdraft
    · cases hdraft
      have hentered : status (stagedFromDraft new) = none →
          Awaiting new (status' (stagedFromDraft new)) :=
        fun hnone => awaiting_of_pending (hafter.staged hpending hnone)
      cases hrewrites with
      | settled hrevision hai hstatus =>
        rcases hstatus with hstatus | hstatus
        · have hawaiting := ht.awaiting _ old hself (hstatus.symm.trans hpending)
          rw [← hsame hrevision] at hawaiting
          apply hafter.awaiting
          exact ⟨fun hp => hawaiting.pending (hai.symm.trans hp),
            fun hq => hawaiting.queued (hai.symm.trans hq)⟩
        · simp [hpending] at hstatus
      | submitted hrevision hai hbefore => exact hentered (hunused (.inr ⟨hbefore, hrevision⟩))
      | edited hnext hdraft =>
        rw [hdraft] at hpending
        cases hpending
      | reworked hnext => exact hentered (hunused (.inl hnext))
      | reopened hallowed hrevision =>
        cases hstatus : status (stagedFromDraft new) with
        | none => exact hentered hstatus
        | some found =>
          have hfound := hreopens hallowed found (by rw [← hsame hrevision, hstatus])
          subst hfound
          exact awaiting_of_pending (hafter.kept hstatus)
    · rename_i hne
      rw [hafter.other]
      · exact ht.awaiting id draft hdraft hpending
      · intro hstaged
        have hdraftId : draft.id = id := Table.get_key hdraft
        have hids : draft.id = new.id := congrArg PendingAiPreReview.draftId hstaged
        exact hne (hids.symm.trans hdraftId)

/-- The steps of one operation, while the rows are still those it started from. -/
theorem tracked_of_steps {db db' : Database} (h : DraftSteps (MayReopen rows) db db')
    (ht : Tracked db.drafts (reviewStatus rows db.preReviews)) :
    Tracked db'.drafts (reviewStatus rows db'.preReviews) := by
  have hall : ∀ s, Relation.ReflTransGen (DraftStep (MayReopen rows)) (db.drafts, db.preReviews) s →
      Tracked s.1 (reviewStatus rows s.2) := by
    intro s hs
    induction hs with
    | refl => exact ht
    | tail _ hstep ih =>
      cases hstep with
      | create hfree hai hstage => exact ih.create (stage_statusAfter hstage) hfree hai
      | write hold hrewrites hstage =>
        exact ih.write (stage_statusAfter hstage) hold hrewrites
          fun hreopens found hfound => reviewStatus_of_mayReopen hreopens hfound
  exact hall _ h

theorem Sound.reviewStatus_eq (hw : Sound w) :
    reviewStatus w.dispatches w.db.preReviews = statusOf w.dispatches := by
  funext staged
  rw [reviewStatus]
  split
  · rename_i hstaged
    have hsome := statusOf_isSome.mpr (hw.covered staged hstaged)
    obtain ⟨status, hstatus⟩ := Option.isSome_iff_exists.mp hsome
    rw [hstatus, Option.some_or]
  · exact Option.or_none

theorem lifecycle_tracked {call : Call} {rowId : PendingAiPreReview → Uuid} (hw : Sound w)
    (ht : Tracked w.db.drafts (statusOf w.dispatches))
    (hreopens : Reopens (MayReopen w.dispatches) w.db call)
    (hop : act env (.lifecycle call rowId) w = .ok w') :
    Tracked w'.db.drafts (statusOf w'.dispatches) := by
  simp only [act, bind_ok, pure_ok] at hop
  obtain ⟨db, hperform, rows, hinsert, rfl⟩ := hop
  have hsteps := perform_steps hw.drafts hreopens hperform
  have hstages := insertDispatches_stages hw.outbox hinsert
  have hstatus : statusOf rows = reviewStatus w.dispatches db.preReviews := funext hstages.status
  change Tracked db.drafts (statusOf rows)
  rw [hstatus]
  apply tracked_of_steps hsteps
  rw [hw.reviewStatus_eq]
  exact ht

end Lifecycle

end Cygnus.Review.PreReview
