import Cygnus.Review.PreReviewVerdicts

/-! The retry budget of a pre-review row, against the enqueue calls made for it that raised. -/

namespace Cygnus.Review.PreReview

open Wiki Result Machine

/-- A sweep that gets no pool records a failure for each of its leases and calls nothing. -/
inductive Step
  | act (action : Action)
  | poolUnavailable (claim : Nat) (message exceptionName : String) (now : Timestamp)

def Step.action : Step → Action
  | act action => action
  | poolUnavailable claim message exceptionName now => .failEnqueue claim message exceptionName now

def take (env : Platform) (s : Step) (world : World) : Transaction World := act env s.action world

/-- The row whose budget a failure of the lease is charged to. -/
def charged (world : World) (claim : Nat) : Option WikiDraftAiPreReviewDispatch :=
  world.claims[claim]?.bind fun c => (world.dispatches.get c.dispatchId).filter fun row =>
    ownsClaim row c && (world.draftOf c.staged).any fun draft => matchesQueuedDraft draft c.staged

/-- An enqueue call that raises. -/
def raises (world : World) : Step → Option WikiDraftAiPreReviewDispatch
  | .act (.failEnqueue claim _ _ _) => charged world claim
  | _ => none

/-- How many enqueue calls for the row raise in a run. -/
def raised (env : Platform) (rowId : Uuid) : World → List Step → Nat
  | _, [] => 0
  | world, s :: steps =>
    ((raises world s).toList.countP fun row => row.id = rowId) +
      raised env rowId (step (take env) world s) steps

/-- The sweep leases a row again because its lease ran out. -/
def recovers (now : Timestamp) (world : World) (rowId : Uuid) : Bool :=
  (world.dispatches.get rowId).any fun row =>
    row.dispatchStatus ≠ .pending && dispatchIsDue now row &&
      (world.draftOf (stagedFromDispatch row)).any fun draft =>
        matchesQueuedDraft draft (stagedFromDispatch row)

/-- The candidates of a sweep, taken up one after the other. -/
def claimNext (enabled : Bool) (now : Timestamp) (rowId : Uuid) (world : World) :
    Transaction World :=
  .ok (claimCandidate enabled now world rowId)

/-- Nothing but an enqueue call that raises is charged to a row. -/
def OnlyFailuresCharged (world : World) : Step → Prop
  | .act (.sweep candidates enabled now) =>
    Meets (claimNext enabled now) (fun world rowId => recovers now world rowId = false) world
      candidates
  | .poolUnavailable claim _ _ _ => (charged world claim).isNone = true
  | _ => True

instance : (s : Step) → Decidable (OnlyFailuresCharged world s)
  | .act (.sweep _ _ _) => decidableMeets _ _ _ _
  | .poolUnavailable _ _ _ _ => inferInstanceAs (Decidable (_ = _))
  | .act (.lifecycle _ _) | .act (.acknowledge _ _) | .act (.failEnqueue _ _ _ _)
  | .act (.startRun _ _ _ _) | .act (.finishRun _ _ _) | .act (.crash _)
  | .act (.sweepStuck _ _) => isTrue trivial

/-- What the calls that raised say of a row: a row gives up after as many of them as the budget
has, and beside the call under way nothing else has been counted. -/
structure BudgetKept (raises : Nat) (row : WikiDraftAiPreReviewDispatch) : Prop where
  exhausted : row.terminalReason = some "enqueue_retry_exhausted" →
    maxAiPreReviewEnqueueAttempts ≤ raises
  pending : row.dispatchStatus = .pending → row.attemptCount ≤ raises
  leased : row.attemptCount ≤ raises + 1

section Rows

variable {n : Nat} {row row' : WikiDraftAiPreReviewDispatch} {draft : WikiPageDraft}
  {now : Timestamp}

/-- A step that charges nothing, reopens nothing and gives nothing up. -/
structure Uncharged (row row' : WikiDraftAiPreReviewDispatch) : Prop where
  rowId : row'.id = row.id
  attempts : row'.attemptCount = row.attemptCount
  pending : row'.dispatchStatus = .pending → row.dispatchStatus = .pending
  exhausted : row'.terminalReason = some "enqueue_retry_exhausted" →
    row.terminalReason = some "enqueue_retry_exhausted"

theorem BudgetKept.uncharged (h : BudgetKept n row) (hrow : Uncharged row row') :
    BudgetKept n row' where
  exhausted hreason := h.exhausted (hrow.exhausted hreason)
  pending hpending := by
    rw [hrow.attempts]
    exact h.pending (hrow.pending hpending)
  leased := by
    rw [hrow.attempts]
    exact h.leased

theorem BudgetKept.mono {m : Nat} (h : BudgetKept n row) (hle : n ≤ m) : BudgetKept m row where
  exhausted hreason := (h.exhausted hreason).trans hle
  pending hpending := (h.pending hpending).trans hle
  leased := h.leased.trans (Nat.add_le_add_right hle 1)

theorem draftTerminal_ne (status : String) :
    s!"draft_terminal_{status}" ≠ "enqueue_retry_exhausted" := by
  intro h
  have hlist := congrArg String.toList h
  simp only [String.toList_append] at hlist
  cases hlist

theorem uncharged_markStaleWith (error : String) : Uncharged row (markStaleWith now error row) where
  rowId := rfl
  attempts := rfl
  pending h := by cases h
  exhausted h := absurd (Option.some.inj h) (by decide)

theorem uncharged_markCompleted (reason : String) (hreason : reason ≠ "enqueue_retry_exhausted") :
    Uncharged row (markCompleted now row reason) where
  rowId := rfl
  attempts := rfl
  pending h := by cases h
  exhausted h := absurd (Option.some.inj h) hreason

theorem acknowledged_uncharged (claim : AiPreReviewDispatchClaim) :
    Uncharged row (acknowledged now claim draft row).2 := by
  unfold acknowledged
  split
  · exact uncharged_markCompleted _ (draftTerminal_ne _)
  · split
    · exact ⟨rfl, rfl, fun h => (by cases h), fun h => (by cases h)⟩
    · exact uncharged_markStaleWith _

/-- A failure that is recorded is charged with the attempt of the lease. -/
theorem enqueueFailed_kept {m : Nat} {claim : AiPreReviewDispatchClaim} {error : String}
    (h : BudgetKept n row) (howned : ownsClaim row claim) (hle : n ≤ m)
    (hcharged : matchesQueuedDraft draft claim.staged → m = n + 1) :
    BudgetKept m (enqueueFailed now claim error draft row).2 := by
  have hleased := h.leased
  have hattempts := howned.2
  unfold enqueueFailed
  split
  · exact (h.uncharged (uncharged_markCompleted _ (draftTerminal_ne _))).mono hle
  · split
    · exact (h.uncharged (uncharged_markStaleWith _)).mono hle
    · rename_i hqueued
      obtain rfl := hcharged (not_not.mp hqueued)
      split
      · rename_i hspent
        refine ⟨fun _ => ?_, fun hpending => (by cases hpending), hleased.trans (Nat.le_succ _)⟩
        exact hspent.trans (hattempts ▸ hleased)
      · exact ⟨fun hreason => (by cases hreason), fun _ => hleased,
          hleased.trans (Nat.le_succ _)⟩

/-- A sweep charges a row that it leases from the queue of pending rows. -/
theorem claimDue_kept {enabled : Bool} (h : BudgetKept n row)
    (hpending : matchesQueuedDraft draft (stagedFromDispatch row) →
      row.dispatchStatus = .pending) :
    BudgetKept n (claimDue now enabled draft row).2.1 := by
  have hleased : row.dispatchStatus = .pending → BudgetKept n (claimDispatch now row).1 := by
    intro hfree
    exact ⟨fun hreason => (by cases hreason), fun hp => (by cases hp),
      Nat.add_le_add_right (h.pending hfree) 1⟩
  unfold claimDue
  dsimp only
  split
  · exact h.uncharged (uncharged_markCompleted _ (draftTerminal_ne _))
  · split
    · rename_i hfree
      split
      · exact hleased hfree.1
      · exact h.uncharged ⟨rfl, rfl, fun hp => (by cases hp),
          fun hreason => absurd (Option.some.inj hreason) (by decide)⟩
    · split
      · rename_i hqueued
        exact hleased (hpending hqueued)
      · exact h.uncharged (uncharged_markStaleWith _)

end Rows

section Worlds

variable {env : Platform} {w w' : World} {n : Nat} {rowId : Uuid} {now : Timestamp}

/-- The rows under an id, against the calls that raised for it. -/
def Budgeted (rowId : Uuid) (n : Nat) (rows : Table WikiDraftAiPreReviewDispatch) : Prop :=
  ∀ row ∈ rows, row.id = rowId → BudgetKept n row

theorem Budgeted.put {m : Nat} {rows : Table WikiDraftAiPreReviewDispatch}
    {row' : WikiDraftAiPreReviewDispatch} (h : Budgeted rowId n rows) (hle : n ≤ m)
    (hrow : row'.id = rowId → BudgetKept m row') : Budgeted rowId m (rows.put row') := by
  intro row hmem hid
  rcases Table.mem_put hmem with rfl | ⟨hmem, -⟩
  · exact hrow hid
  · exact (h row hmem hid).mono hle

theorem Budgeted.uncharged {rows : Table WikiDraftAiPreReviewDispatch}
    {row row' : WikiDraftAiPreReviewDispatch} (h : Budgeted rowId n rows) (hmem : row ∈ rows)
    (hrow : Uncharged row row') : Budgeted rowId n (rows.put row') :=
  h.put le_rfl fun hid => (h row hmem (hrow.rowId ▸ hid)).uncharged hrow

theorem claimCandidate_budgeted {enabled : Bool} {candidateId : Uuid}
    (h : Budgeted rowId n w.dispatches) (hlease : recovers now w candidateId = false) :
    Budgeted rowId n (claimCandidate enabled now w candidateId).dispatches := by
  unfold claimCandidate
  split
  · exact h
  · rename_i row hget
    have hmem := Table.get_mem hget
    split
    · rename_i hdue
      split
      · exact h.uncharged hmem (uncharged_markStaleWith _)
      · rename_i draft hdraft
        have hrowId : (claimDue now enabled draft row).2.1.id = row.id :=
          (claimDue_handles (active_of_due hdue)).rowId
        refine h.put le_rfl fun hid => claimDue_kept (h row hmem (hrowId ▸ hid)) ?_
        intro hqueued
        by_contra hpending
        simp [recovers, hget, hdue, hdraft, hqueued, hpending] at hlease
    · exact h

theorem claimDueDispatches_budgeted {enabled : Bool} {candidates : List Uuid}
    (h : Budgeted rowId n w.dispatches)
    (hlease : Meets (claimNext enabled now) (fun world id => recovers now world id = false) w
      candidates) :
    Budgeted rowId n (claimDueDispatches candidates enabled now w).dispatches := by
  unfold claimDueDispatches
  induction candidates generalizing w with
  | nil => exact h
  | cons candidateId candidates ih => exact ih (claimCandidate_budgeted h hlease.1) hlease.2

/-- A lease is settled on the row that still holds it. -/
theorem settleClaim_budgeted {m : Nat} {claim : AiPreReviewDispatchClaim}
    {settle : WikiPageDraft → WikiDraftAiPreReviewDispatch →
      WikiPageDraft × WikiDraftAiPreReviewDispatch}
    (h : Budgeted rowId n w.dispatches) (hle : n ≤ m)
    (hsettle : ∀ draft row, w.draftOf claim.staged = some draft →
      w.dispatches.get claim.dispatchId = some row → ownsClaim row claim →
        (settle draft row).2.id = row.id ∧
          (row.id = rowId → BudgetKept n row → BudgetKept m (settle draft row).2)) :
    Budgeted rowId m (settleClaim claim now settle w).dispatches := by
  have hkept : Budgeted rowId m w.dispatches := fun row hmem hid => (h row hmem hid).mono hle
  unfold settleClaim
  split
  · exact hkept
  · rename_i row hget
    have hmem := Table.get_mem hget
    split
    · rename_i howned
      split
      · exact hkept.uncharged hmem (uncharged_markStaleWith _)
      · rename_i draft hdraft
        obtain ⟨hid, hsettled⟩ := hsettle draft row hdraft hget howned
        refine h.put hle fun hrow => ?_
        have hsame : row.id = rowId := hid.symm.trans hrow
        exact hsettled hsame (h row hmem hsame)
    · exact hkept

theorem acknowledgeEnqueue_budgeted (claim : AiPreReviewDispatchClaim)
    (h : Budgeted rowId n w.dispatches) :
    Budgeted rowId n (acknowledgeEnqueue claim now w).dispatches := by
  refine settleClaim_budgeted h le_rfl fun draft row _ _ _ => ?_
  have huncharged : Uncharged row (acknowledged now claim draft row).2 :=
    acknowledged_uncharged claim
  exact ⟨huncharged.rowId, fun _ hrow => hrow.uncharged huncharged⟩

theorem recordEnqueueFailure_budgeted {index : Nat} {claim : AiPreReviewDispatchClaim}
    {message exceptionName : String} (hclaim : w.claims[index]? = some claim)
    (h : Budgeted rowId n w.dispatches) :
    Budgeted rowId (n + (charged w index).toList.countP fun row => row.id = rowId)
      (recordEnqueueFailure claim message exceptionName now w).dispatches := by
  refine settleClaim_budgeted h (Nat.le_add_right _ _) fun draft row hdraft hget howned => ?_
  have hid : (enqueueFailed now claim (errorText message exceptionName) draft row).2.id =
      row.id := by
    unfold enqueueFailed
    split
    · rfl
    · split
      · rfl
      · split <;> rfl
  refine ⟨hid, fun hrow hkept => enqueueFailed_kept hkept howned (Nat.le_add_right _ _) ?_⟩
  intro hqueued
  have hcharged : charged w index = some row := by
    rw [charged, hclaim, Option.bind_some, hget, Option.filter_some_pos]
    simp [howned, hdraft, hqueued]
  rw [hcharged]
  simp [hrow]

theorem startChecks_uncharged {expected : PendingAiPreReview} {draft : WikiPageDraft}
    {row : WikiDraftAiPreReviewDispatch} :
    Uncharged row (startChecks now expected draft row).2.1 := by
  unfold startChecks
  split
  · exact uncharged_markStaleWith _
  · split
    · exact uncharged_markStaleWith _
    · split
      · change Uncharged row (dropUnclaimed now draft row)
        unfold dropUnclaimed
        split
        · exact uncharged_markCompleted _ (draftTerminal_ne _)
        · exact uncharged_markStaleWith _
      · exact ⟨rfl, rfl, fun h => (by cases h), id⟩

theorem startRun_budgeted {draftId : Uuid} {round version : Option Nat}
    (h : Budgeted rowId n w.dispatches) :
    Budgeted rowId n (startRun draftId round version now w).dispatches := by
  rcases startRun_cases w draftId round version now with heq | ⟨_, row, _, hload, _, _, heq⟩
  · rw [heq]
    exact h
  · rw [heq]
    exact h.uncharged (load_some hload).1 startChecks_uncharged

theorem finishChecks_reason {expected : PendingAiPreReview} {checks : List JsonObject}
    {draft : WikiPageDraft} {loaded : WikiDraftAiPreReviewDispatch} :
    (finishChecks now expected checks draft loaded).2.1.terminalReason ≠
      some "enqueue_retry_exhausted" := by
  unfold finishChecks
  split
  · exact fun h => absurd (Option.some.inj h) (by decide)
  · split
    · change (dropUnclaimed now draft loaded).terminalReason ≠ _
      unfold dropUnclaimed
      split
      · exact fun h => draftTerminal_ne _ (Option.some.inj h)
      · exact fun h => absurd (Option.some.inj h) (by decide)
    · exact fun h => absurd (Option.some.inj h) (by decide)

theorem finishRun_budgeted {run : Run} {review : WikiPageDraft → List JsonObject}
    (h : Budgeted rowId n w.dispatches) :
    Budgeted rowId n (finishRun run review now w).dispatches := by
  unfold finishRun
  split
  · rename_i draft committed _ hload
    split
    · rename_i hrunning
      refine h.uncharged (load_some hload).1 ⟨rfl, rfl, ?_, ?_⟩
      · intro hpending
        have hended : (flush run.dispatch (finishChecks now run.expected (review run.draft) draft
            run.dispatch).2.1 committed).dispatchStatus ∈ [.completed, .stale] :=
          finishChecks_flushed hrunning
        rw [hpending] at hended
        exact absurd hended (by decide)
      · intro hreason
        change Dispatch.writeColumn _ _ _ = _ at hreason
        unfold Dispatch.writeColumn at hreason
        split at hreason
        · exact hreason
        · exact absurd hreason finishChecks_reason
    · exact h
  · exact h

theorem sweepStuckAiReview_budgeted {overdue : List Uuid} (h : Budgeted rowId n w.dispatches) :
    Budgeted rowId n (sweepStuckAiReview overdue now w).dispatches := by
  intro row' hmem hid
  obtain ⟨row, hrow, rfl⟩ := List.mem_map.mp hmem
  have huncharged : Uncharged row (timeOut (stuckIds w.db.drafts overdue) now row) := by
    unfold timeOut
    split
    · exact ⟨rfl, rfl, fun hp => (by cases hp),
        fun hreason => absurd (Option.some.inj hreason) (by decide)⟩
    · exact ⟨rfl, rfl, id, id⟩
  exact (h row hrow (huncharged.rowId ▸ hid)).uncharged huncharged

/-- A new row has nothing on it. -/
theorem insertDispatch_budgeted {ids : PendingAiPreReview → Uuid} {staged : PendingAiPreReview}
    {rows rows' : Table WikiDraftAiPreReviewDispatch} (h : Budgeted rowId n rows)
    (hop : insertDispatch ids rows staged = .ok rows') : Budgeted rowId n rows' := by
  unfold insertDispatch at hop
  split at hop
  · cases hop
    exact h
  · obtain ⟨-, rfl⟩ := Table.insert_ok hop
    intro row hmem hid
    rcases List.mem_append.mp hmem with hold | hnew
    · exact h row hold hid
    · obtain rfl := List.mem_singleton.mp hnew
      exact ⟨fun hreason => (by cases hreason), fun _ => Nat.zero_le _, Nat.zero_le _⟩

/-- What one step charges to a row is an enqueue call for it that raises. -/
theorem take_budgeted {s : Step} (h : Budgeted rowId n w.dispatches)
    (hcharged : OnlyFailuresCharged w s) (hop : take env s w = .ok w') :
    Budgeted rowId (n + (raises w s).toList.countP fun row => row.id = rowId) w'.dispatches := by
  cases s with
  | poolUnavailable index message exceptionName now =>
    cases hop
    change Budgeted rowId n _
    cases hclaim : w.claims[index]? with
    | none => exact h
    | some claim =>
      have hkept : Budgeted rowId (n + (charged w index).toList.countP fun row => row.id = rowId)
          (recordEnqueueFailure claim message exceptionName now w).dispatches :=
        recordEnqueueFailure_budgeted hclaim h
      rwa [Option.isNone_iff_eq_none.mp hcharged] at hkept
  | act action =>
    cases action with
    | lifecycle call ids =>
      simp only [take, Step.action, act, bind_ok, pure_ok] at hop
      obtain ⟨db, _, rows, hinsert, rfl⟩ := hop
      exact foldlM_induction (fun _ _ hrows => insertDispatch_budgeted hrows) h hinsert
    | sweep candidates enabled now =>
      cases hop
      exact claimDueDispatches_budgeted h hcharged
    | acknowledge index now =>
      cases hop
      change Budgeted rowId n _
      cases hclaim : w.claims[index]? with
      | none => exact h
      | some claim => exact acknowledgeEnqueue_budgeted claim h
    | failEnqueue index message exceptionName now =>
      cases hop
      cases hclaim : w.claims[index]? with
      | none => exact fun row hmem hid => (h row hmem hid).mono (Nat.le_add_right _ _)
      | some claim => exact recordEnqueueFailure_budgeted hclaim h
    | startRun draftId round version now =>
      cases hop
      exact startRun_budgeted h
    | finishRun index review now =>
      cases hop
      change Budgeted rowId n _
      cases hindex : w.runs[index]? with
      | none => exact h
      | some run => exact finishRun_budgeted h
    | crash index =>
      cases hop
      exact h
    | sweepStuck overdue now =>
      cases hop
      exact sweepStuckAiReview_budgeted h

theorem run_budgeted {steps : List Step} (h : Budgeted rowId n w.dispatches)
    (hcharged : Meets (take env) OnlyFailuresCharged w steps) :
    Budgeted rowId (n + raised env rowId w steps) (run (take env) w steps).dispatches := by
  induction steps generalizing w n with
  | nil => exact h
  | cons s steps ih =>
    have hstep : Budgeted rowId (n + (raises w s).toList.countP fun row => row.id = rowId)
        (step (take env) w s).dispatches := by
      rcases step_cases (take env) w s with hsame | hop
      · rw [hsame]
        exact fun row hmem hid => (h row hmem hid).mono (Nat.le_add_right _ _)
      · exact take_budgeted h hcharged.1 hop
    rw [run_cons, raised, ← Nat.add_assoc]
    exact ih hstep hcharged.2

/-- A row is given up only after enough enqueue calls for it have raised, in every run in which no
sweep leases a row again whose lease ran out, and none charges a lease for a pool it did not get. -/
theorem budgetKept (env : Platform) (db : Database) (steps : List Step)
    (hcharged : Meets (take env) OnlyFailuresCharged (opening db) steps) :
    ∀ row ∈ (run (take env) (opening db) steps).dispatches,
      BudgetKept (raised env row.id (opening db) steps) row := by
  intro row hmem
  have hstart : Budgeted row.id 0 (opening db).dispatches := fun _ hrow => nomatch hrow
  have hkept := run_budgeted hstart hcharged row hmem rfl
  rwa [Nat.zero_add] at hkept

end Worlds

section Scenario

def reviewedDraft : List Step := [
  .act (.lifecycle (.createWikiDraft { draftId := 2, authorId := some 10, contentMd := "# Refunds" }
    3 4) fun _ => 5)]

/-- Three enqueue calls raise, each after the retry delay of the one before. -/
def raisedThrice : List Step := reviewedDraft ++ [
  .act (.sweep [5] true 0), .act (.failEnqueue 0 "" "ConnectionError" 1),
  .act (.sweep [5] true (Dispatch.seconds 100)), .act (.failEnqueue 1 "" "ConnectionError" 2),
  .act (.sweep [5] true (Dispatch.seconds 400)), .act (.failEnqueue 2 "" "ConnectionError" 3)]

theorem raisedThrice_kept :
    (run (take textPlatform) (opening branchDatabase) raisedThrice).dispatches.length = 1 ∧
    ∀ row ∈ (run (take textPlatform) (opening branchDatabase) raisedThrice).dispatches,
      BudgetKept (raised textPlatform row.id (opening branchDatabase) raisedThrice) row :=
  ⟨by decide +kernel, budgetKept textPlatform branchDatabase raisedThrice (by decide +kernel)⟩

/-- Two enqueues are acknowledged and their leases run out; the third call raises once. -/
def raisedOnce : List Step := reviewedDraft ++ [
  .act (.sweep [5] true 0), .act (.acknowledge 0 1),
  .act (.sweep [5] true (Dispatch.seconds 400)), .act (.acknowledge 1 (Dispatch.seconds 400)),
  .act (.sweep [5] true (Dispatch.seconds 800)),
  .act (.failEnqueue 2 "" "ConnectionError" (Dispatch.seconds 800))]

theorem raisedOnce_exhausts :
    ¬ ∀ row ∈ (run (take textPlatform) (opening branchDatabase) raisedOnce).dispatches,
      BudgetKept (raised textPlatform row.id (opening branchDatabase) raisedOnce) row := by
  have hrows : (run (take textPlatform) (opening branchDatabase) raisedOnce).dispatches.map
      (fun row => (row.terminalReason, raised textPlatform row.id (opening branchDatabase)
        raisedOnce)) = [(some "enqueue_retry_exhausted", 1)] := by
    decide +kernel
  obtain ⟨row, hrow, hpair⟩ := List.mem_map.mp (hrows ▸ List.mem_singleton_self _)
  obtain ⟨hreason, hraised⟩ := Prod.mk.inj hpair
  intro hkept
  have hbudget := (hkept row hrow).exhausted hreason
  rw [hraised] at hbudget
  exact absurd hbudget (by decide)

end Scenario

end Cygnus.Review.PreReview
