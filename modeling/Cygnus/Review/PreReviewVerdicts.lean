import Cygnus.Review.PreReviewMoves
import Mathlib.Data.List.Perm.Basic

/-! Verdicts of the pre-review: who writes them, about which content, and which rows stay ended. -/

namespace Cygnus.Review.PreReview

open Wiki Result Machine

variable {env : Platform} {w w' : World} {now : Timestamp}

/-- The verdict was written to a draft in review, at the revision it is about and with the content
that was checked. -/
structure Fresh (verdict : Verdict) : Prop where
  draftId : verdict.draft.id = verdict.expected.draftId
  revision : matchesDraftRevision verdict.draft verdict.expected
  contentMd : verdict.draft.contentMd = verdict.checkedContentMd

/-- No row leaves one of the four last statuses. -/
def KeepsFinal (rows rows' : Table WikiDraftAiPreReviewDispatch) : Prop :=
  ∀ id row, rows.get id = some row → Final row.dispatchStatus →
    (rows'.get id).map WikiDraftAiPreReviewDispatch.dispatchStatus = some row.dispatchStatus

/-- The runs between their two transactions and the verdicts written so far. -/
structure Guarded (w : World) : Prop where
  distinct : (w.runs.map Run.expected ++ w.written.map Verdict.expected).Nodup
  loaded : ∀ run ∈ w.runs, run.dispatch.dispatchStatus = .running
  claimed : ∀ run ∈ w.runs, ∃ row ∈ w.dispatches, stagedFromDispatch row = run.expected ∧
    row.dispatchStatus ∈ [.running, .failed]
  checked : ∀ run ∈ w.runs, ∃ draft, w.draftOf run.expected = some draft ∧
    run.expected.draftVersion ≤ draft.version ∧
    (draft.version = run.expected.draftVersion → draft.contentMd = run.draft.contentMd)
  spent : ∀ verdict ∈ w.written, ∃ row ∈ w.dispatches,
    stagedFromDispatch row = verdict.expected ∧ ¬ Active row.dispatchStatus
  fresh : ∀ verdict ∈ w.written, Fresh verdict

/-- The run that comes to its second transaction finds the row of its revision still running. -/
def FindsRunning (w : World) : Action → Prop
  | .finishRun index _ _ => ∀ run, w.runs[index]? = some run →
    ∀ row ∈ w.dispatches, stagedFromDispatch row = run.expected → row.dispatchStatus = .running
  | _ => True

theorem Passes.claimed {old new : DispatchStatus} (h : Passes old new)
    (hold : old ∈ [.running, .failed]) : new ∈ [.running, .failed] := by
  rcases h with rfl | hactive | ⟨-, rfl⟩
  · exact hold
  · have hnot : ¬ Active old := by
      revert hold
      cases old <;> decide
    exact absurd hactive hnot
  · decide

theorem Moves.row (h : Moves w w') (hw : Sound w) {row : WikiDraftAiPreReviewDispatch}
    (hrow : row ∈ w.dispatches) : ∃ row' ∈ w'.dispatches,
      stagedFromDispatch row' = stagedFromDispatch row ∧
        Passes row.dispatchStatus row'.dispatchStatus := by
  obtain ⟨row', hget, hstaged, hpasses⟩ := h.rows (hw.outbox.keyed.get_of_mem hrow)
  exact ⟨row', Table.get_mem hget, hstaged, hpasses⟩

/-- A draft that moves on shows the checked content as long as it shows the checked version. -/
theorem Moves.checked (h : Moves w w') {run : Run} {draft : WikiPageDraft}
    (hdraft : w.draftOf run.expected = some draft)
    (hle : run.expected.draftVersion ≤ draft.version)
    (hcontent : draft.version = run.expected.draftVersion →
      draft.contentMd = run.draft.contentMd) : ∃ draft', w'.draftOf run.expected = some draft' ∧
      run.expected.draftVersion ≤ draft'.version ∧
      (draft'.version = run.expected.draftVersion → draft'.contentMd = run.draft.contentMd) := by
  obtain ⟨draft', hget, hle', hcontent'⟩ := h.drafts hdraft
  refine ⟨draft', hget, hle.trans hle', fun heq => ?_⟩
  have hsame : draft.version = run.expected.draftVersion :=
    le_antisymm (hle'.trans_eq heq) hle
  rw [hcontent' (heq.trans hsame.symm), hcontent hsame]

theorem Guarded.moves (hg : Guarded w) (hw : Sound w) (h : Moves w w')
    (hruns : List.Sublist w'.runs w.runs) (hwritten : w'.written = w.written) : Guarded w' := by
  refine ⟨?_, fun run hrun => hg.loaded run (hruns.subset hrun), ?_, ?_, ?_, ?_⟩
  · rw [hwritten]
    exact hg.distinct.sublist ((hruns.map _).append_right _)
  · intro run hrun
    obtain ⟨row, hrow, hstaged, hstatus⟩ := hg.claimed run (hruns.subset hrun)
    obtain ⟨row', hrow', hsame, hpasses⟩ := h.row hw hrow
    exact ⟨row', hrow', hsame.trans hstaged, hpasses.claimed hstatus⟩
  · intro run hrun
    obtain ⟨draft, hdraft, hle, hcontent⟩ := hg.checked run (hruns.subset hrun)
    exact h.checked hdraft hle hcontent
  · intro verdict hverdict
    rw [hwritten] at hverdict
    obtain ⟨row, hrow, hstaged, hstatus⟩ := hg.spent verdict hverdict
    obtain ⟨row', hrow', hsame, hpasses⟩ := h.row hw hrow
    exact ⟨row', hrow', hsame.trans hstaged, fun hactive => hstatus (hpasses.active hactive)⟩
  · rw [hwritten]
    exact hg.fresh

theorem Moves.keepsFinal (h : Moves w w') : KeepsFinal w.dispatches w'.dispatches := by
  intro id row hget hfinal
  obtain ⟨row', hget', -, hpasses⟩ := h.rows hget
  rw [hget', Option.map_some, hpasses.final hfinal]

/-- A run starts on an active row, so its revision has neither a run nor a verdict yet. -/
theorem Guarded.start (hg : Guarded w) (hw : Sound w) {run : Run} {s : World}
    (hs : Guarded s) (hruns : s.runs = w.runs) (hwritten : s.written = w.written)
    {row : WikiDraftAiPreReviewDispatch} (hrow : row ∈ w.dispatches)
    (hstaged : stagedFromDispatch row = run.expected) (hactive : Active row.dispatchStatus)
    (hloaded : run.dispatch.dispatchStatus = .running)
    (hclaimed : ∃ row ∈ s.dispatches, stagedFromDispatch row = run.expected ∧
      row.dispatchStatus ∈ [.running, .failed])
    (hchecked : ∃ draft, s.draftOf run.expected = some draft ∧
      run.expected.draftVersion ≤ draft.version ∧
      (draft.version = run.expected.draftVersion → draft.contentMd = run.draft.contentMd)) :
    Guarded { s with runs := s.runs ++ [run] } := by
  have hunique : ∀ other ∈ w.dispatches, stagedFromDispatch other = run.expected → other = row := by
    intro other hother hsame
    exact List.inj_on_of_nodup_map hw.outbox.revisions hother hrow (hsame.trans hstaged.symm)
  have hnew : run.expected ∉ s.runs.map Run.expected ++ s.written.map Verdict.expected := by
    rw [hruns, hwritten, List.mem_append, List.mem_map, List.mem_map]
    rintro (⟨other, hother, hsame⟩ | ⟨verdict, hverdict, hsame⟩)
    · obtain ⟨found, hfound, hexpected, hstatus⟩ := hg.claimed other hother
      rw [hunique found hfound (hexpected.trans hsame)] at hstatus
      revert hactive hstatus
      cases row.dispatchStatus <;> decide
    · obtain ⟨found, hfound, hexpected, hstatus⟩ := hg.spent verdict hverdict
      rw [hunique found hfound (hexpected.trans hsame)] at hstatus
      exact hstatus hactive
  have hall : ∀ {P : Run → Prop}, (∀ other ∈ s.runs, P other) → P run →
      ∀ other ∈ s.runs ++ [run], P other := by
    intro P hold hlast other hother
    rcases List.mem_append.mp hother with hmem | hmem
    · exact hold other hmem
    · rw [List.mem_singleton.mp hmem]
      exact hlast
  refine ⟨?_, hall hs.loaded hloaded, hall hs.claimed hclaimed, hall hs.checked hchecked, hs.spent,
    hs.fresh⟩
  have hperm : ((s.runs ++ [run]).map Run.expected ++ s.written.map Verdict.expected).Perm
      (run.expected :: (s.runs.map Run.expected ++ s.written.map Verdict.expected)) := by
    rw [List.map_append, List.append_assoc]
    exact List.perm_middle
  rw [hperm.nodup_iff, List.nodup_cons]
  exact ⟨hnew, hs.distinct⟩

theorem startRun_guarded {draftId : Uuid} {expectedRound expectedVersion : Option Nat}
    (hg : Guarded w) (hw : Sound w) :
    Guarded (startRun draftId expectedRound expectedVersion now w) := by
  rcases startRun_cases w draftId expectedRound expectedVersion now with
    hsame | ⟨expected, row, draft, hload, hdraft, hstatus, heq⟩
  · rw [hsame]
    exact hg
  · rw [heq]
    obtain ⟨hrow, hstaged⟩ := load_some hload
    subst hstaged
    have hactive : Active row.dispatchStatus := List.mem_cons_of_mem _ hstatus
    have hhandles : Handles draft (startChecks now (stagedFromDispatch row) draft row).1 row
      (startChecks now (stagedFromDispatch row) draft row).2.1 := startChecks_handles hstatus
    have hid : draft.id = row.draftId := Table.get_key hdraft
    have hget : w.db.drafts.get draft.id = some draft := by
      rw [hid]
      exact hdraft
    have hselect := hw.outbox.get_of_load hload
    have hmoves := hhandles.moves hactive hselect hget
    have hstored := hg.moves hw hmoves (List.Sublist.refl _) rfl
    cases hrun : (startChecks now (stagedFromDispatch row) draft row).2.2 with
    | none =>
      rw [Option.toList_none, List.append_nil]
      exact hstored
    | some run =>
      obtain ⟨hexpected, hversion, hcontent, hloaded, hleft⟩ := startChecks_run hrun
      refine hg.start hw hstored rfl rfl hrow hexpected.symm hactive hloaded ?_ ?_
      · refine ⟨(startChecks now (stagedFromDispatch row) draft row).2.1, ?_, ?_, ?_⟩
        · have hput : w.dispatches.get
              (Row.key (startChecks now (stagedFromDispatch row) draft row).2.1) = some row := by
            change w.dispatches.get (startChecks now (stagedFromDispatch row) draft row).2.1.id = _
            rw [hhandles.rowId, hselect]
          exact Table.mem_put_self hput
        · rw [hhandles.staged, hexpected]
        · rw [hleft, hloaded]
          decide
      · refine ⟨(startChecks now (stagedFromDispatch row) draft row).1, ?_, ?_, ?_⟩
        · rw [World.draftOf, hexpected]
          refine (get_store_draft hget hhandles.aiOnly.id _).trans (if_pos hid)
        · rw [hhandles.aiOnly.sameRevision.version, hexpected, hversion]
        · intro _
          rw [hhandles.aiOnly.sameRevision.contentMd, hcontent]

section Finish

variable {run : Run} {review : WikiPageDraft → List JsonObject} {index : Nat}
  {row row' : WikiDraftAiPreReviewDispatch} {draft draft' : WikiPageDraft}

theorem finishRun_eq (hload : loadExpectedDispatch w.dispatches run.expected = some row)
    (hdraft : w.draftOf run.expected = some draft)
    (hloaded : run.dispatch.dispatchStatus = .running) : finishRun run review now w =
      { w.store (finishChecks now run.expected (review run.draft) draft run.dispatch).1
          (flush run.dispatch
            (finishChecks now run.expected (review run.draft) draft run.dispatch).2.1 row) with
        written := w.written ++
          if (finishChecks now run.expected (review run.draft) draft run.dispatch).2.2 then
            [⟨run.expected, run.draft.contentMd, draft⟩] else [] } := by
  unfold finishRun
  rw [hdraft, hload]
  dsimp only
  rw [if_pos hloaded]

/-- The second transaction of a run: it meets the row and the draft of its revision, ends the row
whatever has become of it, and writes a verdict only to that revision in review. -/
theorem Guarded.ends (hg : Guarded w) (hw : Sound w) (hindex : w.runs[index]? = some run)
    (review : WikiPageDraft → List JsonObject) (now : Timestamp) :
    ∃ row row' draft draft' wrote, w.dispatches.get row.id = some row ∧
      stagedFromDispatch row = run.expected ∧ row.dispatchStatus ∈ [.running, .failed] ∧
      w.draftOf run.expected = some draft ∧
      (draft.version = run.expected.draftVersion → draft.contentMd = run.draft.contentMd) ∧
      Handles draft draft' row row' ∧ row'.dispatchStatus ∈ [.completed, .stale] ∧
      (wrote = true → matchesDraftRevision draft run.expected) ∧
      finishRun run review now { w with runs := w.runs.eraseIdx index } =
        { World.store { w with runs := w.runs.eraseIdx index } draft' row' with
          written := w.written ++
            if wrote then [⟨run.expected, run.draft.contentMd, draft⟩] else [] } := by
  have hrun : run ∈ w.runs := List.mem_of_getElem? hindex
  have hloaded := hg.loaded run hrun
  obtain ⟨row, hrow, hstaged, hstatus⟩ := hg.claimed run hrun
  obtain ⟨draft, hdraft, -, hcontent⟩ := hg.checked run hrun
  have hload : loadExpectedDispatch w.dispatches run.expected = some row := by
    rw [← hstaged]
    exact hw.outbox.load_of_mem hrow
  have hinactive : ¬ Active row.dispatchStatus := by
    revert hstatus
    cases row.dispatchStatus <;> decide
  have hhandles : Handles draft
      (finishChecks now (stagedFromDispatch row) (review run.draft) draft run.dispatch).1 row
      (flush run.dispatch
        (finishChecks now (stagedFromDispatch row) (review run.draft) draft run.dispatch).2.1 row) :=
    finishChecks_handles hloaded hinactive
  rw [hstaged] at hhandles
  exact ⟨row, _, draft, _, _, hw.outbox.keyed.get_of_mem hrow, hstaged, hstatus, hdraft, hcontent,
    hhandles, finishChecks_flushed hloaded, finishChecks_wrote, finishRun_eq hload hdraft hloaded⟩

theorem Guarded.distinct_erase (hg : Guarded w) (hindex : w.runs[index]? = some run) :
    (run.expected :: ((w.runs.eraseIdx index).map Run.expected ++
      w.written.map Verdict.expected)).Nodup := by
  obtain ⟨hlt, hrun⟩ := List.getElem?_eq_some_iff.mp hindex
  have hperm : (run :: w.runs.eraseIdx index).Perm w.runs := by
    rw [← hrun]
    exact List.getElem_cons_eraseIdx_perm hlt
  have hall : (run.expected :: ((w.runs.eraseIdx index).map Run.expected ++
      w.written.map Verdict.expected)).Perm
        (w.runs.map Run.expected ++ w.written.map Verdict.expected) :=
    (hperm.map Run.expected).append_right _
  exact hall.nodup_iff.mpr hg.distinct

/-- Every other revision keeps its row when a run ends. -/
theorem Handles.others (h : Handles draft draft' row row') (hw : Sound w)
    (hrow : w.dispatches.get row.id = some row) {other : WikiDraftAiPreReviewDispatch}
    (hother : other ∈ w.dispatches)
    (hne : stagedFromDispatch other ≠ stagedFromDispatch row) :
    other ∈ (w.store draft' row').dispatches := by
  apply Table.mem_put_of_ne hother
  intro hkey
  change other.id = row'.id at hkey
  rw [h.rowId] at hkey
  have hsame : other = row := hw.outbox.keyed.eq_of_key hother (Table.get_mem hrow) hkey
  exact hne (by rw [hsame])

theorem Guarded.finish (hg : Guarded w) (hw : Sound w) (hindex : w.runs[index]? = some run) :
    Sound (finishRun run review now { w with runs := w.runs.eraseIdx index }) ∧
      Guarded (finishRun run review now { w with runs := w.runs.eraseIdx index }) := by
  obtain ⟨row, row', draft, draft', wrote, hselect, hstaged, -, hdraft, hcontent, hhandles, hended,
    hwrote, heq⟩ := hg.ends hw hindex review now
  rw [heq]
  have hid : draft.id = run.expected.draftId := Table.get_key hdraft
  have hget : w.db.drafts.get draft.id = some draft := by
    rw [hid]
    exact hdraft
  have hsound := hhandles.sound hselect hw
  have hdistinct := hg.distinct_erase hindex
  have hfree := (List.nodup_cons.mp hdistinct).1
  simp only [List.mem_append, List.mem_map, not_or, not_exists, not_and] at hfree
  have hsub : ∀ {other}, other ∈ w.runs.eraseIdx index → other ∈ w.runs :=
    fun hmem => List.mem_of_mem_eraseIdx hmem
  refine ⟨⟨hsound.drafts, hsound.outbox, hsound.covered, hsound.claims⟩, ?_, ?_, ?_, ?_, ?_, ?_⟩
  · change ((w.runs.eraseIdx index).map Run.expected ++ (w.written ++ _).map _).Nodup
    rw [List.map_append, ← List.append_assoc]
    split
    · rw [List.map_singleton]
      exact (List.perm_append_singleton _ _).nodup_iff.mpr hdistinct
    · rw [List.map_nil, List.append_nil]
      exact hdistinct.of_cons
  · exact fun other hother => hg.loaded other (hsub hother)
  · intro other hother
    obtain ⟨found, hfound, hexpected, hclaimed⟩ := hg.claimed other (hsub hother)
    refine ⟨found, hhandles.others hw hselect hfound ?_, hexpected, hclaimed⟩
    rw [hexpected, hstaged]
    exact hfree.1 other hother
  · intro other hother
    obtain ⟨found, hfound, hle, hsame⟩ := hg.checked other (hsub hother)
    obtain ⟨found', hfound', hle', hsame'⟩ := hhandles.drafts hget hfound
    refine ⟨found', hfound', hle.trans hle', fun heq => ?_⟩
    have hversion : found.version = other.expected.draftVersion :=
      le_antisymm (hle'.trans_eq heq) hle
    rw [hsame' (heq.trans hversion.symm), hsame hversion]
  · intro verdict hverdict
    rcases List.mem_append.mp hverdict with hold | hnew
    · obtain ⟨found, hfound, hexpected, hspent⟩ := hg.spent verdict hold
      refine ⟨found, hhandles.others hw hselect hfound ?_, hexpected, hspent⟩
      rw [hexpected, hstaged]
      exact hfree.2 verdict hold
    · split at hnew
      · rw [List.mem_singleton.mp hnew]
        refine ⟨row', ?_, hhandles.staged.trans hstaged, not_active_of_mem hended⟩
        have hput : w.dispatches.get (Row.key row') = some row := by
          change w.dispatches.get row'.id = _
          rw [hhandles.rowId, hselect]
        exact Table.mem_put_self hput
      · cases hnew
  · intro verdict hverdict
    rcases List.mem_append.mp hverdict with hold | hnew
    · exact hg.fresh verdict hold
    · split at hnew
      · rename_i hw'
        rw [List.mem_singleton.mp hnew]
        exact ⟨hid, hwrote hw', hcontent (hwrote hw').2.1⟩
      · cases hnew

/-- Ending a run takes a row out of a last status exactly when the row is no longer running. -/
theorem Guarded.finish_keepsFinal_iff (hg : Guarded w) (hw : Sound w)
    (hindex : w.runs[index]? = some run) :
    KeepsFinal w.dispatches
        (finishRun run review now { w with runs := w.runs.eraseIdx index }).dispatches ↔
      ∀ row ∈ w.dispatches, stagedFromDispatch row = run.expected →
        row.dispatchStatus = .running := by
  obtain ⟨row, row', draft, draft', wrote, hselect, hstaged, hstatus, -, -, hhandles, hended, -,
    heq⟩ := hg.ends hw hindex review now
  have hafter : ∀ i, (finishRun run review now
      { w with runs := w.runs.eraseIdx index }).dispatches.get i =
        if row.id = i then some row' else w.dispatches.get i := by
    intro i
    rw [heq]
    have hstore : (w.store draft' row').dispatches.get i =
        if row.id = i then some row' else w.dispatches.get i := get_store_row hselect hhandles.rowId i
    exact hstore
  constructor
  · intro hkeeps other hother hexpected
    rw [List.inj_on_of_nodup_map hw.outbox.revisions hother (Table.get_mem hselect)
      (hexpected.trans hstaged.symm)]
    by_contra hnot
    have hfailed : row.dispatchStatus = .failed := by simpa [hnot] using hstatus
    have hkept := hkeeps row.id row hselect (by rw [hfailed]; decide)
    rw [hafter, if_pos rfl, Option.map_some, hfailed] at hkept
    rw [Option.some.inj hkept] at hended
    revert hended
    decide
  · intro hrunning id other hget hfinal
    have hne : row.id ≠ id := by
      rintro rfl
      rw [hselect] at hget
      cases hget
      rw [hrunning row (Table.get_mem hselect) hstaged] at hfinal
      revert hfinal
      decide
    rw [hafter, if_neg hne, hget, Option.map_some]

end Finish

section Runs

theorem act_guarded {action : Action} (hw : Sound w) (hg : Guarded w)
    (hop : act env action w = .ok w') : Sound w' ∧ Guarded w' := by
  by_cases hfinish : ∃ index review now, action = .finishRun index review now
  · obtain ⟨index, review, now, rfl⟩ := hfinish
    cases hop
    cases hindex : w.runs[index]? with
    | none => exact ⟨hw, hg⟩
    | some run => exact hg.finish hw hindex
  · simp only [not_exists] at hfinish
    have hmoves := act_moves hw (fun run review now => hfinish run review now) hop
    refine ⟨hmoves.sound hw, ?_⟩
    by_cases hstart : ∃ draftId round version now, action = .startRun draftId round version now
    · obtain ⟨draftId, round, version, now, rfl⟩ := hstart
      cases hop
      exact startRun_guarded hg hw
    · simp only [not_exists] at hstart
      obtain ⟨hruns, hwritten⟩ := act_runs (fun d r v n => hstart d r v n)
        (fun run review now => hfinish run review now) hop
      exact hg.moves hw hmoves hruns hwritten

theorem opening_sound (db : Database) : Sound (opening db) :=
  ⟨List.nodup_nil, ⟨List.nodup_nil, List.nodup_nil⟩, fun _ h => (List.not_mem_nil h).elim,
    fun _ h => (List.not_mem_nil h).elim⟩

theorem opening_guarded (db : Database) : Guarded (opening db) :=
  ⟨List.nodup_nil, fun _ h => (List.not_mem_nil h).elim, fun _ h => (List.not_mem_nil h).elim,
    fun _ h => (List.not_mem_nil h).elim, fun _ h => (List.not_mem_nil h).elim,
    fun _ h => (List.not_mem_nil h).elim⟩

theorem guarded_preserves (condition : World → Action → Prop) :
    Preserves (act env) condition fun w => Sound w ∧ Guarded w := by
  intro w w' action hw _ hop
  exact act_guarded hw.1 hw.2 hop

def KeepsVerdicts (env : Platform) (w : World) (action : Action) : Prop :=
  KeepsFinal w.dispatches (step (act env) w action).dispatches

theorem keepsVerdicts_iff {action : Action} (hw : Sound w) (hg : Guarded w) :
    KeepsVerdicts env w action ↔ FindsRunning w action := by
  by_cases hfinish : ∃ index review now, action = .finishRun index review now
  · obtain ⟨index, review, now, rfl⟩ := hfinish
    have hop : act env (.finishRun index review now) w = .ok (w.runs[index]?.elim w fun r =>
        finishRun r review now { w with runs := w.runs.eraseIdx index }) := rfl
    rw [KeepsVerdicts, step, hop, FindsRunning]
    cases hindex : w.runs[index]? with
    | none =>
      refine iff_of_true (Moves.refl w).keepsFinal ?_
      intro run hrun
      cases hrun
    | some run =>
      simp only [Option.elim_some, Option.some.injEq, forall_eq']
      exact hg.finish_keepsFinal_iff hw hindex
  · simp only [not_exists] at hfinish
    have hcondition : FindsRunning w action := by
      cases action with
      | finishRun run review now => exact absurd rfl (hfinish run review now)
      | _ => trivial
    refine iff_of_true ?_ hcondition
    rcases step_cases (act env) w action with hsame | hop
    · rw [KeepsVerdicts, hsame]
      exact (Moves.refl w).keepsFinal
    · exact (act_moves hw (fun run review now => hfinish run review now) hop).keepsFinal

/-- Along the run no row leaves a last status, no revision takes two verdicts, and every verdict is
about the draft it was written to. -/
structure VerdictsHold (env : Platform) (w : World) (actions : List Action) : Prop where
  final : Meets (act env) (KeepsVerdicts env) w actions
  once : ((run (act env) w actions).written.map Verdict.expected).Nodup
  fresh : ∀ verdict ∈ (run (act env) w actions).written, Fresh verdict

/-- Verdicts are written once and to the content that was checked in every run; rows stay ended in
exactly the runs where the stuck-review sweep has not failed the row of a worker that still
finishes. -/
theorem verdictsHold_iff (env : Platform) (db : Database) (actions : List Action) :
    VerdictsHold env (opening db) actions ↔ Meets (act env) FindsRunning (opening db) actions := by
  have hstart : Sound (opening db) ∧ Guarded (opening db) := ⟨opening_sound db, opening_guarded db⟩
  constructor
  · intro h
    exact Preserves.meets (guarded_preserves (KeepsVerdicts env))
      (fun hw hkeeps => (keepsVerdicts_iff hw.1 hw.2).mp hkeeps) hstart h.final
  · intro h
    have hrun := Preserves.run (guarded_preserves FindsRunning) hstart h
    refine ⟨?_, hrun.2.distinct.of_append_right, hrun.2.fresh⟩
    exact Preserves.meets (guarded_preserves FindsRunning)
      (fun hw hfinds => (keepsVerdicts_iff hw.1 hw.2).mpr hfinds) hstart h

def textPlatform : Platform := ⟨id, id, fun _ => "", fun _ => ""⟩

/-- A worker takes up a new draft and is slow, the stuck-review sweep gives it up, and then it
finishes. -/
def slowReview : List Action := [
  .lifecycle (.createWikiDraft { draftId := 2, authorId := some 10, contentMd := "# Refunds" } 3 4)
    fun _ => 5,
  .sweep [5] true 0,
  .startRun 2 (some 0) (some 1) 1,
  .sweepStuck [2] 2,
  .finishRun 0 (fun _ => []) 3]

theorem failed_row_completed :
    ¬ ∀ (env : Platform) (db : Database) (actions : List Action),
      VerdictsHold env (opening db) actions := by
  intro h
  have hlast := (h textPlatform {} slowReview).final.2.2.2.2.1
  have hbefore : ((run (act textPlatform) (opening {}) (slowReview.take 4)).dispatches.get 5).map
      WikiDraftAiPreReviewDispatch.dispatchStatus = some .failed := by
    decide +kernel
  have hafter : ((run (act textPlatform) (opening {}) slowReview).dispatches.get 5).map
      WikiDraftAiPreReviewDispatch.dispatchStatus = some .completed := by
    decide +kernel
  obtain ⟨row, hget, hstatus⟩ := Option.map_eq_some_iff.mp hbefore
  have hkept := hlast 5 row hget (by rw [hstatus]; decide)
  rw [hstatus] at hkept
  exact absurd (hkept.symm.trans hafter) (by decide)

end Runs

end Cygnus.Review.PreReview
