import Cygnus.Review.LifecycleLaws

/-! Which runs keep the drafts and the ledger in agreement. -/

namespace Cygnus.Review

open Wiki Governance Result Machine

variable {env : Platform} {db db' : Database}

/-- No draft has been proposed yet; pages, branches and sources are arbitrary. -/
def beforeReview (db : Database) : Database :=
  { db with drafts := [], rounds := [], preReviews := [], ledger := [] }

/-- In every state the run reaches the drafts are where the ledger says, and what was decided at
any time stays so. -/
def Consistent (env : Platform) (db : Database) (calls : List Call) : Prop :=
  ∀ first middle rest, calls = first ++ middle ++ rest →
    FollowsLedger (run (perform env) db first) ∧
      KeepsDecisions (run (perform env) db first) (run (perform env) db (first ++ middle))

theorem governanceStateForDraftStatus_injective :
    Function.Injective governanceStateForDraftStatus := by
  intro a b h
  cases a <;> cases b <;> first | rfl | cases h

theorem Keeps.keepsDecisions (h : Keeps db.drafts db'.drafts) : KeepsDecisions db db' := by
  intro id draft hget hdecided
  obtain ⟨after, hafter, hevolves⟩ := h id draft hget
  rw [hafter, Option.map_some, hevolves.final hdecided]

theorem perform_preserves (origin : Table WikiPageDraft) :
    Preserves (perform env) Governed fun db => Advances origin db.drafts db.ledger := by
  intro s s' call hs hgoverned hop
  exact hs.trans fun hagree => perform_advances hagree hgoverned hop

/-- From a state in agreement, a governed run stays in agreement and only evolves drafts. -/
theorem run_advances {calls : List Call} (h : Agreement db.drafts db.ledger)
    (hmeets : Meets (perform env) Governed db calls) :
    Advances db.drafts (run (perform env) db calls).drafts (run (perform env) db calls).ledger :=
  Preserves.run (perform_preserves db.drafts) (.refl h) hmeets

section Ungoverned

/-- A loop whose every iteration rewrites one row and leaves the ledger alone. -/
theorem rewriteDrafts_total {f : Database → Uuid → Transaction Database}
    {rewrite : WikiPageDraft → WikiPageDraft} {ids : List Uuid}
    (hf : ∀ {s : Database} {id : Uuid} {draft : WikiPageDraft}, s.drafts.get id = some draft →
      1 ≤ draft.version → ∃ s', f s id = .ok s' ∧ s'.ledger = s.ledger ∧
        ∀ other, s'.drafts.get other = if id = other then some (rewrite draft) else s.drafts.get other)
    (hversion : ∀ draft, (rewrite draft).version = draft.version)
    (hidem : ∀ draft, rewrite (rewrite draft) = rewrite draft)
    (hids : ∀ id ∈ ids, ∃ draft, db.drafts.get id = some draft)
    (hpositive : ∀ id draft, db.drafts.get id = some draft → 1 ≤ draft.version) :
    ∃ after, ids.foldlM f db = .ok after ∧ after.ledger = db.ledger ∧
      ∀ id draft, db.drafts.get id = some draft →
        after.drafts.get id = some (if id ∈ ids then rewrite draft else draft) := by
  induction ids generalizing db with
  | nil => exact ⟨db, rfl, rfl, fun id draft h => by simpa using h⟩
  | cons first ids ih =>
    obtain ⟨draft, hget⟩ := hids first List.mem_cons_self
    obtain ⟨next, hnext, hnextLedger, hnextGet⟩ := hf hget (hpositive first draft hget)
    have hidsNext : ∀ id ∈ ids, ∃ draft, next.drafts.get id = some draft := by
      intro id hmem
      rw [hnextGet]
      split
      · exact ⟨_, rfl⟩
      · exact hids id (List.mem_cons_of_mem _ hmem)
    have hpositiveNext : ∀ id draft, next.drafts.get id = some draft → 1 ≤ draft.version := by
      intro id d hd
      rw [hnextGet] at hd
      split at hd
      · cases hd
        rw [hversion]
        exact hpositive first draft hget
      · exact hpositive id d hd
    obtain ⟨after, hfold, hledger, hafter⟩ := ih hidsNext hpositiveNext
    refine ⟨after, ?_, hledger.trans hnextLedger, ?_⟩
    · rw [List.foldlM_cons, bind_ok]
      exact ⟨next, hnext, hfold⟩
    · intro id d hd
      by_cases hsame : first = id
      · subst hsame
        rw [hget] at hd
        cases hd
        rw [hafter first (rewrite draft) (by rw [hnextGet, if_pos rfl]), hidem, ite_self,
          if_pos List.mem_cons_self]
      · rw [hafter id d (by rw [hnextGet, if_neg hsame]; exact hd)]
        have : id ∈ first :: ids ↔ id ∈ ids := by
          rw [List.mem_cons]
          exact or_iff_right (Ne.symm hsame)
        simp only [this]

theorem intoReview_status (draft : WikiPageDraft) : (intoReview draft).status = .pending := by
  unfold intoReview
  split
  · assumption
  · rfl

theorem submitBranchDraft_total {id : Uuid} {draft : WikiPageDraft}
    (hget : db.drafts.get id = some draft) (hversion : 1 ≤ draft.version) :
    ∃ db', submitBranchDraft db id = .ok db' ∧ db'.ledger = db.ledger ∧
      ∀ other, db'.drafts.get other =
        if id = other then some (intoReview draft) else db.drafts.get other := by
  have hid : draft.id = id := Table.get_key hget
  have hintoVersion : 1 ≤ (intoReview draft).version := by
    unfold intoReview
    split <;> exact hversion
  have hintoId : (intoReview draft).id = draft.id := by
    unfold intoReview
    split <;> rfl
  obtain ⟨preReviews, hstage⟩ : ∃ preReviews,
      stageAiPreReview db.preReviews (intoReview draft) = .ok preReviews := by
    simp only [stageAiPreReview, intoReview_status, ne_eq, not_true_eq_false, if_false, bind_ok,
      require_ok]
    by_cases hstaged : (⟨(intoReview draft).id, (intoReview draft).version,
        (intoReview draft).revisionRound⟩ : PendingAiPreReview) ∈ db.preReviews
    · exact ⟨_, (), hintoVersion, if_pos hstaged⟩
    · exact ⟨_, (), hintoVersion, if_neg hstaged⟩
  refine ⟨{ db with drafts := db.drafts.put (intoReview draft), preReviews := preReviews }, ?_, rfl,
    ?_⟩
  · simp only [submitBranchDraft, bind_ok, fetch_ok, pure_ok]
    exact ⟨draft, hget, preReviews, hstage, rfl⟩
  · subst hid
    exact get_put_row hget hintoId

/-- A draft as a closing reviewer leaves it. -/
def closedDraft (draft : WikiPageDraft) : WikiPageDraft :=
  if draft.status ∈ [.pending, .needsRevision] then { draft with status := .withdrawn } else draft

theorem closeBranchDraft_total {actor : Actor} {eventIds : Uuid → Uuid} {id : Uuid}
    {draft : WikiPageDraft} (hget : db.drafts.get id = some draft) :
    ∃ db', closeBranchDraft false actor eventIds db id = .ok db' ∧ db'.ledger = db.ledger ∧
      ∀ other, db'.drafts.get other =
        if id = other then some (closedDraft draft) else db.drafts.get other := by
  have hid : draft.id = id := Table.get_key hget
  subst hid
  by_cases hopen : draft.status ∈ [.pending, .needsRevision]
  · refine ⟨{ db with drafts := db.drafts.put (closedDraft draft) }, ?_, rfl, ?_⟩
    · simp only [closeBranchDraft, bind_ok, fetch_ok]
      refine ⟨draft, hget, ?_⟩
      rw [if_neg (not_not_intro hopen), closedDraft, if_pos hopen]
      rfl
    · apply get_put_row hget
      rw [closedDraft, if_pos hopen]
  · refine ⟨db, ?_, rfl, ?_⟩
    · simp only [closeBranchDraft, bind_ok, fetch_ok]
      exact ⟨draft, hget, if_pos hopen⟩
    · intro other
      rw [closedDraft, if_neg hopen]
      split
      · rename_i heq
        rw [← heq]
        exact hget
      · rfl

/-- A row rewritten to another status, with the ledger as it was, no longer follows it. -/
theorem not_followsLedger (h : Agreement db.drafts db.ledger) {draft after : WikiPageDraft}
    (hget : db.drafts.get draft.id = some draft) (hledger : db'.ledger = db.ledger)
    (hafter : db'.drafts.get draft.id = some after) (hne : after.status ≠ draft.status) :
    ¬ FollowsLedger db' := by
  intro hfollows
  have hnow := hfollows draft.id after hafter
  rw [hledger] at hnow
  have := hnow.symm.trans (h.follows draft.id draft hget)
  exact hne (governanceStateForDraftStatus_injective (Option.some.inj this))

theorem step_of_ok {call : Call} (h : perform env call db = .ok db') :
    step (perform env) db call = db' := by
  rw [step, h]

/-- From a state in agreement, a call that is not governed leaves it. -/
theorem ungoverned_breaks {call : Call} (h : Agreement db.drafts db.ledger)
    (hcall : ¬ Governed db call) : ¬ FollowsLedger (step (perform env) db call) := by
  have hids : ∀ branchId, ∀ id ∈ (loadBranchDrafts db.drafts branchId).map WikiPageDraft.id,
      ∃ draft, db.drafts.get id = some draft := by
    intro branchId id hid
    obtain ⟨draft, hmem, rfl⟩ := List.mem_map.mp hid
    exact ⟨draft, get_of_mem_branch h.keyed hmem⟩
  cases call with
  | submitWikiBranch branchId actor =>
    simp only [Governed, not_forall] at hcall
    obtain ⟨branch, hbranch, hactor, hstatus, draft, hmem, hpending⟩ := hcall
    obtain ⟨after, hfold, hledger, hafter⟩ := rewriteDrafts_total submitBranchDraft_total
      (by intro d; unfold intoReview; split <;> rfl)
      (fun d => if_pos (intoReview_status d)) (hids branchId) h.positive
    have hmap := List.mem_map_of_mem (f := WikiPageDraft.id) hmem
    have hop : perform env (.submitWikiBranch branchId actor) db =
        .ok { after with branches := after.branches.put { branch with status := .pendingMerge } } := by
      simp only [perform, submitWikiBranch, bind_ok, fetch_ok, require_ok, pure_ok]
      exact ⟨branch, hbranch, (), hactor, (), hstatus, (), List.ne_nil_of_mem hmap, after, hfold,
        rfl⟩
    have hget := get_of_mem_branch h.keyed hmem
    rw [step_of_ok hop]
    apply not_followsLedger h hget hledger (hafter draft.id draft hget)
    rw [if_pos hmap, intoReview_status]
    exact Ne.symm hpending
  | closeWikiBranch branchId actor reviewerOverride eventIds =>
    simp only [Governed, not_forall, not_not] at hcall
    obtain ⟨branch, hbranch, hactor, hoverride, hstatus, draft, hmem, hopen⟩ := hcall
    obtain ⟨after, hfold, hledger, hafter⟩ := rewriteDrafts_total
      (f := closeBranchDraft false actor eventIds) (fun hget _ => closeBranchDraft_total hget)
      (by intro d; unfold closedDraft; split <;> rfl)
      (by intro d; unfold closedDraft; split <;> simp_all) (hids branchId) h.positive
    have hmap := List.mem_map_of_mem (f := WikiPageDraft.id) hmem
    have hop : perform env (.closeWikiBranch branchId actor reviewerOverride eventIds) db =
        .ok { after with branches := after.branches.put { branch with status := .closed } } := by
      simp only [perform, closeWikiBranch, bind_ok, fetch_ok, require_ok, pure_ok]
      refine ⟨branch, hbranch, (), .inr hoverride, (), hstatus, after, ?_, rfl⟩
      rw [decide_eq_false hactor]
      exact hfold
    have hget := get_of_mem_branch h.keyed hmem
    rw [step_of_ok hop]
    apply not_followsLedger h hget hledger (hafter draft.id draft hget)
    rw [if_pos hmap, closedDraft, if_pos hopen]
    intro heq
    change DraftStatus.withdrawn = draft.status at heq
    rw [← heq] at hopen
    revert hopen
    decide
  | _ => exact absurd trivial hcall

end Ungoverned

theorem meets_of_consistent {calls : List Call} (h : Agreement db.drafts db.ledger)
    (hcalls : Consistent env db calls) : Meets (perform env) Governed db calls := by
  -- calls are taken from the end: the run before the last call is governed already
  induction calls using List.reverseRecOn with
  | nil => trivial
  | append_singleton calls call ih =>
    have hbefore : Meets (perform env) Governed db calls := by
      apply ih
      rintro first middle rest rfl
      exact hcalls first middle (rest ++ [call]) (by simp)
    have hagree := (run_advances h hbefore).agreement
    rw [meets_append]
    refine ⟨hbefore, ?_, trivial⟩
    by_contra hungoverned
    have hfollows := (hcalls (calls ++ [call]) [] [] (by simp)).1
    rw [run_append] at hfollows
    exact ungoverned_breaks hagree hungoverned hfollows

/-- Drafts and ledger agree along a run, and decisions are final, exactly when every call of the
run is governed. -/
theorem consistent_iff_governed (env : Platform) (db : Database) (calls : List Call) :
    Consistent env (beforeReview db) calls ↔
      Meets (perform env) Governed (beforeReview db) calls := by
  have hstart : Agreement (beforeReview db).drafts (beforeReview db).ledger := .empty
  constructor
  · exact meets_of_consistent hstart
  · rintro hmeets first middle rest rfl
    rw [List.append_assoc, meets_append, meets_append] at hmeets
    have hfirst := run_advances hstart hmeets.1
    have hmiddle := run_advances hfirst.agreement hmeets.2.1
    rw [run_append]
    exact ⟨hfirst.agreement.follows, hmiddle.keeps.keepsDecisions⟩

/-- One branch, written by employee 10. -/
def branchDatabase : Database := { branches := [{ id := 1, authorId := 10 }] }

/-- A draft of the branch is rejected, and the branch then submitted for merge. -/
def rejectThenSubmit : List Call := [
  .createWikiDraft { draftId := 2, authorId := some 10, contentMd := "# Refunds", branchId := some 1 }
    3 4,
  .rejectWikiDraft 2 11 "duplicate" 5 0,
  .submitWikiBranch 1 ⟨10, "contributor"⟩]

theorem rejected_draft_reopens :
    ¬ ∀ env : Platform, Consistent env (beforeReview branchDatabase) rejectThenSubmit := by
  intro h
  have hstates := h ⟨id, id, fun _ => "", fun _ => ""⟩ rejectThenSubmit [] [] rfl
  have hdraft : ((run (perform ⟨id, id, fun _ => "", fun _ => ""⟩) (beforeReview branchDatabase)
      rejectThenSubmit).drafts.get 2).map WikiPageDraft.status = some .pending := by
    decide +kernel
  have hledger : ledgerState (run (perform ⟨id, id, fun _ => "", fun _ => ""⟩)
      (beforeReview branchDatabase) rejectThenSubmit).ledger 2 = some .rejected := by
    decide +kernel
  obtain ⟨draft, hget, hstatus⟩ := Option.map_eq_some_iff.mp hdraft
  have hfollows := hstates.1 2 draft hget
  rw [hstatus] at hfollows
  exact absurd (hledger.symm.trans hfollows) (by decide)

end Cygnus.Review
