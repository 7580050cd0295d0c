import Cygnus.Review.PreReviewTracking

/-! Runs in which every draft that waits for its pre-review can still get it. -/

namespace Cygnus.Review.PreReview

open Wiki Result Machine

variable {env : Platform} {w w' : World} {now : Timestamp}

/-- A submission of a branch takes a draft back into review only while the row of its revision, if
there is one, is still pending. -/
def Reopenable (w : World) : Action → Prop
  | .lifecycle call _ => Reopens (MayReopen w.dispatches) w.db call
  | _ => True

/-- A sweep, a job and the end of its run resolve the draft, whatever the checks say. -/
def Resolvable (env : Platform) (w : World) (draftId : Uuid) : Prop :=
  ∃ rowId round version now, ∀ review, ∃ draft,
    (run (act env) w [.sweep [rowId] true now, .startRun draftId (some round) (some version) now,
      .finishRun w.runs.length review now]).db.drafts.get draftId = some draft ∧
      draft.status = .pending ∧ draft.aiCheckStatus ∈ finalDraftAiStatuses

/-- Every draft in review without a verdict, and not being checked, has an active row for exactly
its revision. -/
def NotStranded (env : Platform) (w : World) : Prop :=
  ∀ id draft, w.db.drafts.get id = some draft → draft.status = .pending →
    draft.aiCheckStatus ∈ ["pending", "queued"] →
      (∃ row ∈ w.dispatches, stagedFromDispatch row = stagedFromDraft draft ∧
        Active row.dispatchStatus) ∧ Resolvable env w id

section Resolve

variable {draft : WikiPageDraft} {row : WikiDraftAiPreReviewDispatch}

theorem exists_due (h : Active row.dispatchStatus) : ∃ now, dispatchIsDue now row = true := by
  refine ⟨row.nextAttemptAt.getD 0 + row.leaseExpiresAt.getD 0, ?_⟩
  have hall : ∀ {time : Option Timestamp} {n : Nat},
      time.getD 0 ≤ n → time.all (· ≤ n) = true := by
    intro time n h
    cases time with
    | none => rfl
    | some t => simpa using h
  unfold dispatchIsDue
  cases hstatus : row.dispatchStatus with
  | pending => exact hall (Nat.le_add_right _ _)
  | dispatching => exact hall (Nat.le_add_left _ _)
  | enqueued => exact hall (Nat.le_add_left _ _)
  | _ =>
    rw [hstatus] at h
    exact absurd h (by decide)

/-- A due row whose draft waits for it is leased, and the draft marked. -/
theorem claimDue_leases (now : Timestamp)
    (hmatches : matchesDraftRevision draft (stagedFromDispatch row))
    (hawaiting : Awaiting draft (some row.dispatchStatus))
    (hai : draft.aiCheckStatus ∈ ["pending", "queued"]) :
    (claimDue now true draft row).1.aiCheckStatus = "queued" ∧
      (claimDue now true draft row).2.1 = (claimDispatch now row).1 := by
  have hopen : ¬ hasTerminalDraftVerdict draft (stagedFromDispatch row) :=
    fun hterminal => settled_of_final hterminal.2 hai
  unfold claimDue
  dsimp only
  rw [if_neg hopen]
  simp only [List.mem_cons, List.not_mem_nil, or_false] at hai
  rcases hai with hp | hq
  · rw [if_pos ⟨Option.some.inj (hawaiting.pending hp), hmatches, hp⟩]
    exact ⟨rfl, rfl⟩
  · have hnot : ¬ (row.dispatchStatus = .pending ∧
        matchesPendingDraft draft (stagedFromDispatch row)) := by
      rintro ⟨-, -, hp⟩
      rw [hq] at hp
      exact absurd hp (by decide)
    have hmarked : matchesQueuedDraft draft (stagedFromDispatch row) := ⟨hmatches, hq⟩
    rw [if_neg hnot, if_pos hmarked]
    exact ⟨hq, rfl⟩

/-- A marked draft is taken to its checks. -/
theorem startChecks_marked {expected : PendingAiPreReview}
    (hmatches : matchesDraftRevision draft expected) (hai : draft.aiCheckStatus = "queued") :
    startChecks now expected draft row =
      ({ draft with aiCheckStatus := "running" },
        { row with dispatchStatus := .running, leaseExpiresAt := none, nextAttemptAt := none },
        some ⟨expected, { draft with aiCheckStatus := "running" },
          { row with dispatchStatus := .running, leaseExpiresAt := none, nextAttemptAt := none }⟩) := by
  have hcurrent : ¬ (draft.revisionRound ≠ expected.revisionRound ∨
      draft.version ≠ expected.draftVersion) := by
    rintro (hround | hversion)
    · exact hround hmatches.2.2
    · exact hversion hmatches.2.1
  unfold startChecks
  rw [if_neg (not_not_intro hmatches.1), if_neg hcurrent, if_neg (not_not_intro hai)]

/-- A draft that is being checked gets its verdict. -/
theorem finishChecks_verdict {expected : PendingAiPreReview} {checks : List JsonObject}
    (hmatches : matchesDraftRevision draft expected) (hai : draft.aiCheckStatus = "running") :
    (finishChecks now expected checks draft row).1 = withVerdict now draft checks := by
  have hcurrent : ¬ (draft.revisionRound ≠ expected.revisionRound ∨
      draft.version ≠ expected.draftVersion ∨ draft.status ≠ .pending) := by
    rintro (hround | hversion | hstatus)
    · exact hround hmatches.2.2
    · exact hversion hmatches.2.1
    · exact hstatus hmatches.1
  unfold finishChecks
  rw [if_neg hcurrent, if_neg (not_not_intro hai)]

theorem withVerdict_final (checks : List JsonObject) :
    (withVerdict now draft checks).aiCheckStatus ∈ finalDraftAiStatuses := by
  change (if _ then "failed" else if _ then "warned" else "passed") ∈ _
  split
  · decide
  · split <;> decide

variable {draft' : WikiPageDraft} {row' : WikiDraftAiPreReviewDispatch}

theorem Handles.load_store (h : Handles draft draft' row row') (hw : Sound w)
    (hrow : w.dispatches.get row.id = some row) :
    loadExpectedDispatch (w.store draft' row').dispatches (stagedFromDispatch row) = some row' := by
  have hput : w.dispatches.get row'.id = some row := by rw [h.rowId, hrow]
  exact (hw.outbox.load_put hput h.staged _).trans (if_pos rfl)

theorem Handles.draftOf_store (h : Handles draft draft' row row')
    (hdraft : w.draftOf (stagedFromDispatch row) = some draft) :
    (w.store draft' row').draftOf (stagedFromDispatch row) = some draft' := by
  have hid : draft.id = (stagedFromDispatch row).draftId := Table.get_key hdraft
  have hself : w.db.drafts.get draft.id = some draft := by
    rw [hid]
    exact hdraft
  exact (get_store_draft hself h.aiOnly.id _).trans (if_pos hid)

theorem claimCandidate_due {enabled : Bool} (hrow : w.dispatches.get row.id = some row)
    (hdue : dispatchIsDue now row = true)
    (hdraft : w.draftOf (stagedFromDispatch row) = some draft) :
    claimCandidate enabled now w row.id =
      { w.store (claimDue now enabled draft row).1 (claimDue now enabled draft row).2.1 with
        claims := w.claims ++ (claimDue now enabled draft row).2.2.toList } := by
  unfold claimCandidate
  rw [hrow]
  dsimp only
  rw [if_pos hdue, hdraft]

theorem startRun_active {expected : PendingAiPreReview} (hdraft : w.draftOf expected = some draft)
    (hload : loadExpectedDispatch w.dispatches expected = some row)
    (hstatus : row.dispatchStatus ∈ [.dispatching, .enqueued]) :
    startRun expected.draftId (some expected.revisionRound) (some expected.draftVersion) now w =
      { w.store (startChecks now expected draft row).1 (startChecks now expected draft row).2.1 with
        runs := w.runs ++ (startChecks now expected draft row).2.2.toList } := by
  unfold startRun
  dsimp only
  rw [hdraft, hload]
  dsimp only
  rw [if_pos hstatus]

/-- The revision is in review with this AI status, and its row has this status. -/
def Stands (w : World) (staged : PendingAiPreReview) (ai : String) (status : DispatchStatus) :
    Prop :=
  ∃ draft row, w.draftOf staged = some draft ∧ loadExpectedDispatch w.dispatches staged = some row ∧
    matchesDraftRevision draft staged ∧ draft.aiCheckStatus = ai ∧ row.dispatchStatus = status

theorem Handles.stands (h : Handles draft draft' row row') (hw : Sound w)
    (hrow : w.dispatches.get row.id = some row)
    (hdraft : w.draftOf (stagedFromDispatch row) = some draft)
    (hmatches : matchesDraftRevision draft (stagedFromDispatch row)) :
    Stands (w.store draft' row') (stagedFromDispatch row) draft'.aiCheckStatus
      row'.dispatchStatus := by
  refine ⟨draft', row', h.draftOf_store hdraft, h.load_store hw hrow, ⟨?_, ?_, ?_⟩, rfl, rfl⟩
  · rw [h.aiOnly.status, hmatches.1]
  · rw [h.aiOnly.sameRevision.version, hmatches.2.1]
  · rw [h.aiOnly.sameRevision.revisionRound, hmatches.2.2]

theorem claimCandidate_stands (hw : Sound w) (hrow : w.dispatches.get row.id = some row)
    (hdue : dispatchIsDue now row = true)
    (hdraft : w.draftOf (stagedFromDispatch row) = some draft)
    (hmatches : matchesDraftRevision draft (stagedFromDispatch row))
    (hawaiting : Awaiting draft (some row.dispatchStatus))
    (hai : draft.aiCheckStatus ∈ ["pending", "queued"]) :
    Stands (claimCandidate true now w row.id) (stagedFromDispatch row) "queued" .dispatching := by
  obtain ⟨hmarked, hleased⟩ := claimDue_leases now hmatches hawaiting hai
  have hhandles : Handles draft (claimDue now true draft row).1 row (claimDue now true draft row).2.1 :=
    claimDue_handles (active_of_due hdue)
  have hstands := hhandles.stands hw hrow hdraft hmatches
  rw [hmarked, hleased] at hstands
  rw [claimCandidate_due hrow hdue hdraft, hleased]
  exact hstands

theorem startRun_stands {staged : PendingAiPreReview} (now : Timestamp) (hw : Sound w)
    (h : Stands w staged "queued" .dispatching) : ∃ run : Run, run.expected = staged ∧
      run.dispatch.dispatchStatus = .running ∧
      (startRun staged.draftId (some staged.revisionRound) (some staged.draftVersion) now w).runs =
        w.runs ++ [run] ∧
      Stands (startRun staged.draftId (some staged.revisionRound) (some staged.draftVersion) now w)
        staged "running" .running := by
  obtain ⟨draft, row, hdraft, hload, hmatches, hai, hstatus⟩ := h
  have htaken : row.dispatchStatus ∈ [.dispatching, .enqueued] := by simp [hstatus]
  obtain ⟨hrow, rfl⟩ := load_some hload
  have hhandles : Handles draft (startChecks now (stagedFromDispatch row) draft row).1 row
    (startChecks now (stagedFromDispatch row) draft row).2.1 := startChecks_handles htaken
  have hstands := hhandles.stands hw (hw.outbox.get_of_load hload) hdraft hmatches
  rw [startRun_active hdraft hload htaken]
  rw [startChecks_marked hmatches hai] at hstands ⊢
  exact ⟨_, rfl, rfl, rfl, hstands⟩

theorem finishRun_resolves {staged : PendingAiPreReview} {run : Run}
    {review : WikiPageDraft → List JsonObject} {runs : List Run}
    (h : Stands w staged "running" .running) (hexpected : run.expected = staged)
    (hloaded : run.dispatch.dispatchStatus = .running) :
    ∃ draft, (finishRun run review now { w with runs := runs }).db.drafts.get staged.draftId =
      some draft ∧ draft.status = .pending ∧ draft.aiCheckStatus ∈ finalDraftAiStatuses := by
  obtain ⟨draft, row, hdraft, hload, hmatches, hai, -⟩ := h
  subst hexpected
  have hid : draft.id = run.expected.draftId := Table.get_key hdraft
  have hself : w.db.drafts.get draft.id = some draft := by
    rw [hid]
    exact hdraft
  have hkey : (withVerdict now draft (review run.draft)).id = draft.id := rfl
  have hstore : (w.store (withVerdict now draft (review run.draft)) row).db.drafts.get
      run.expected.draftId = some (withVerdict now draft (review run.draft)) := by
    rw [get_store_draft hself hkey, if_pos hid]
  have hfinish : finishRun run review now { w with runs := runs } = _ :=
    finishRun_eq hload hdraft hloaded
  rw [hfinish, finishChecks_verdict hmatches hai]
  exact ⟨withVerdict now draft (review run.draft), hstore, hmatches.1, withVerdict_final _⟩

/-- A draft whose row is due goes through a sweep, a job and its checks. -/
theorem resolves (hw : Sound w) (hrow : w.dispatches.get row.id = some row)
    (hdraft : w.draftOf (stagedFromDispatch row) = some draft)
    (hdue : dispatchIsDue now row = true)
    (hmatches : matchesDraftRevision draft (stagedFromDispatch row))
    (hawaiting : Awaiting draft (some row.dispatchStatus))
    (hai : draft.aiCheckStatus ∈ ["pending", "queued"]) : Resolvable env w row.draftId := by
  refine ⟨row.id, row.revisionRound, row.draftVersion, now, fun review => ?_⟩
  have hswept := claimCandidate_stands hw hrow hdue hdraft hmatches hawaiting hai
  have hsound : Sound (claimCandidate true now w row.id) := claimCandidate_handled.moves.sound hw
  have hruns : (claimCandidate true now w row.id).runs = w.runs := claimCandidate_sameRuns.runs
  obtain ⟨run, hexpected, hloaded, hstarted, hstands⟩ := startRun_stands now hsound hswept
  have hlast : (startRun row.draftId (some row.revisionRound) (some row.draftVersion) now
      (claimCandidate true now w row.id)).runs[w.runs.length]? = some run := by
    refine (congrArg (·[w.runs.length]?) hstarted).trans ?_
    rw [hruns, List.getElem?_concat_length]
  have hend : ∀ {s : World}, s.runs[w.runs.length]? = some run → Machine.run (act env) s
      [.finishRun w.runs.length review now] =
        finishRun run review now { s with runs := s.runs.eraseIdx w.runs.length } := by
    intro s hs
    simp only [run_cons, run_nil, step, act, hs]
    rfl
  have hsteps : Machine.run (act env) w [.sweep [row.id] true now,
      .startRun row.draftId (some row.revisionRound) (some row.draftVersion) now,
      .finishRun w.runs.length review now] = _ := hend hlast
  rw [hsteps]
  exact finishRun_resolves hstands hexpected hloaded

end Resolve

section Runs

/-- What the preservation proof carries: the guarded runs do not depend on what branches submit. -/
structure Followed (w : World) : Prop where
  sound : Sound w
  guarded : Guarded w
  tracked : Tracked w.db.drafts (statusOf w.dispatches)

theorem Followed.notStranded (h : Followed w) : NotStranded env w := by
  intro id draft hget hpending hai
  have hawaiting := h.tracked.awaiting id draft hget hpending
  obtain ⟨status, hstatus, hactive⟩ :
      ∃ status, statusOf w.dispatches (stagedFromDraft draft) = some status ∧ Active status := by
    simp only [List.mem_cons, List.not_mem_nil, or_false] at hai
    rcases hai with hp | hq
    · exact ⟨.pending, hawaiting.pending hp, by decide⟩
    · exact hawaiting.queued hq
  obtain ⟨row, hload, rfl⟩ := Option.map_eq_some_iff.mp hstatus
  obtain ⟨hrow, hstaged⟩ := load_some hload
  refine ⟨⟨row, hrow, hstaged, hactive⟩, ?_⟩
  obtain ⟨now, hdue⟩ := exists_due hactive
  have hid : draft.id = id := Table.get_key hget
  have hdraftId : row.draftId = id := (congrArg PendingAiPreReview.draftId hstaged).trans hid
  rw [← hdraftId]
  rw [hstatus] at hawaiting
  apply resolves h.sound (h.sound.outbox.get_of_load hload) _ hdue _ hawaiting hai
  · rw [World.draftOf, hstaged, stagedFromDraft, hid, hget]
  · rw [hstaged]
    exact ⟨hpending, rfl, rfl⟩

theorem act_tracked {action : Action} (h : Followed w) (hreopens : Reopenable w action)
    (hop : act env action w = .ok w') : Tracked w'.db.drafts (statusOf w'.dispatches) := by
  cases action with
  | lifecycle call rowId => exact lifecycle_tracked h.sound h.tracked hreopens hop
  | sweep candidates enabled now =>
    cases hop
    have hall : Sound (claimDueDispatches candidates enabled now w) ∧
        Tracked (claimDueDispatches candidates enabled now w).db.drafts
          (statusOf (claimDueDispatches candidates enabled now w).dispatches) := by
      apply claimDueDispatches_induction
        (P := fun s => Sound s ∧ Tracked s.db.drafts (statusOf s.dispatches)) _
        ⟨h.sound, h.tracked⟩
      intro s id hs
      have hhandled : Handled s (claimCandidate enabled now s id) := claimCandidate_handled
      exact ⟨hhandled.moves.sound hs.1, hhandled.tracked hs.1 hs.2⟩
    exact hall.2
  | acknowledge claim now =>
    cases hop
    cases hclaim : w.claims[claim]? with
    | none => exact h.tracked
    | some c =>
      exact (acknowledgeEnqueue_handled h.sound (List.mem_of_getElem? hclaim)).tracked h.sound
        h.tracked
  | failEnqueue claim message exceptionName now =>
    cases hop
    cases hclaim : w.claims[claim]? with
    | none => exact h.tracked
    | some c =>
      exact (recordEnqueueFailure_handled h.sound (List.mem_of_getElem? hclaim)).tracked h.sound
        h.tracked
  | startRun draftId expectedRound expectedVersion now =>
    cases hop
    exact (startRun_handled h.sound).tracked h.sound h.tracked
  | finishRun index review now =>
    cases hop
    cases hindex : w.runs[index]? with
    | none => exact h.tracked
    | some run =>
      obtain ⟨row, row', draft, draft', wrote, hselect, hstaged, -, hdraft, -, hhandles, -, -,
        heq⟩ := h.guarded.ends h.sound hindex review now
      have hget : w.db.drafts.get row.draftId = some draft := by
        have hdraftId : row.draftId = run.expected.draftId :=
          congrArg PendingAiPreReview.draftId hstaged
        rw [hdraftId]
        exact hdraft
      have htracked : Tracked (w.store draft' row').db.drafts
          (statusOf (w.store draft' row').dispatches) :=
        hhandles.tracked h.sound hselect hget h.tracked
      rw [Option.elim_some, heq]
      exact htracked
  | crash run =>
    cases hop
    exact h.tracked
  | sweepStuck overdue now =>
    cases hop
    exact reset_tracked _ h.tracked

theorem followed_preserves : Preserves (act env) Reopenable Followed := by
  intro w w' action h hreopens hop
  obtain ⟨hsound, hguarded⟩ := act_guarded h.sound h.guarded hop
  exact ⟨hsound, hguarded, act_tracked h hreopens hop⟩

theorem opening_followed (db : Database) : Followed (opening db) := by
  have hnone : ∀ id, (opening db).db.drafts.get id = none := fun _ => rfl
  refine ⟨opening_sound db, opening_guarded db, ?_, ?_, ?_⟩
  · intro staged hsome
    exact absurd hsome Bool.false_ne_true
  · intro id draft hdraft
    rw [hnone] at hdraft
    cases hdraft
  · intro id draft hdraft
    rw [hnone] at hdraft
    cases hdraft

/-- No draft is stranded in a run whose branch submissions reopen only drafts whose rows, if any,
are still pending. -/
theorem not_stranded (env : Platform) (db : Database) (actions : List Action)
    (h : Meets (act env) Reopenable (opening db) actions) :
    ∀ first rest, actions = first ++ rest → NotStranded env (run (act env) (opening db) first) := by
  rintro first rest rfl
  rw [meets_append] at h
  exact (Preserves.run followed_preserves (opening_followed db) h.1).notStranded

def refundsDraft : NewDraft :=
  { draftId := 2, authorId := some 10, contentMd := "# Refunds", branchId := some 1 }

/-- A draft of the branch that was never in review is submitted with it. -/
def submittedBranch : List Action := [
  .lifecycle (.createWikiDraft { refundsDraft with submitForReview := false } 3 4) fun _ => 5,
  .lifecycle (.submitWikiBranch 1 ⟨10, "contributor"⟩) fun _ => 6]

theorem submitted_branch_awaited :
    NotStranded textPlatform (run (act textPlatform) (opening branchDatabase) submittedBranch) := by
  refine not_stranded textPlatform branchDatabase submittedBranch ⟨trivial, ?_, trivial⟩
    submittedBranch [] (List.append_nil _).symm
  have hempty : (run (act textPlatform) (opening branchDatabase)
      (submittedBranch.take 1)).dispatches.isEmpty = true := by
    decide +kernel
  intro branch _ _ _ draft _ _ row hrow
  rw [List.isEmpty_iff] at hempty
  change row ∈ (run (act textPlatform) (opening branchDatabase)
    (submittedBranch.take 1)).dispatches at hrow
  rw [hempty] at hrow
  cases hrow

/-- A draft of the branch is reviewed, sent back for changes, and submitted with the branch as it
is. -/
def resubmittedBranch : List Action := [
  .lifecycle (.createWikiDraft refundsDraft 3 4) fun _ => 5,
  .sweep [5] true 0,
  .startRun 2 (some 0) (some 1) 1,
  .finishRun 0 (fun _ => []) 2,
  .lifecycle (.requestChanges 2 ⟨11, "admin"⟩ "shorten it" 6) fun _ => 7,
  .lifecycle (.submitWikiBranch 1 ⟨10, "contributor"⟩) fun _ => 8]

theorem resubmitted_branch_strands :
    ¬ ∀ (env : Platform) (db : Database) (actions : List Action),
      NotStranded env (run (act env) (opening db) actions) := by
  intro h
  have hdraft : ((run (act textPlatform) (opening branchDatabase) resubmittedBranch).db.drafts.get
      2).map (fun draft => (draft.status, draft.aiCheckStatus)) = some (.pending, "pending") := by
    decide +kernel
  have hrows : ∀ row ∈ (run (act textPlatform) (opening branchDatabase)
      resubmittedBranch).dispatches.map WikiDraftAiPreReviewDispatch.dispatchStatus,
      ¬ Active row := by
    decide +kernel
  obtain ⟨draft, hget, hstatus⟩ := Option.map_eq_some_iff.mp hdraft
  obtain ⟨hpending, hai⟩ := Prod.mk.inj hstatus
  obtain ⟨row, hrow, -, hactive⟩ :=
    (h textPlatform branchDatabase resubmittedBranch 2 draft hget hpending (by simp [hai])).1
  exact hrows _ (List.mem_map_of_mem hrow) hactive

end Runs

end Cygnus.Review.PreReview
