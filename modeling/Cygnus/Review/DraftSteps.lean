import Cygnus.Review.LifecycleLaws
import Mathlib.Logic.Relation

/-! What the review operations do to single drafts, and which revisions they stage for
pre-review. -/

namespace Cygnus.Review

open Wiki Governance Result

def stagedFromDraft (draft : WikiPageDraft) : PendingAiPreReview :=
  ⟨draft.id, draft.version, draft.revisionRound⟩

/-- The two rows show the same content under the same version and round. -/
structure SameRevision (old new : WikiPageDraft) : Prop where
  version : new.version = old.version
  revisionRound : new.revisionRound = old.revisionRound
  contentMd : new.contentMd = old.contentMd

/-- How one operation changes a draft. Back into review without a new version it only comes when
`reopens` allows it. -/
inductive Rewrites (reopens : WikiPageDraft → Prop) (old new : WikiPageDraft) : Prop
  | settled (hsame : SameRevision old new) (hai : new.aiCheckStatus = old.aiCheckStatus)
    (hstatus : new.status = old.status ∨ new.status ∉ [.pending, .draft])
  | submitted (hsame : SameRevision old new) (hai : new.aiCheckStatus = old.aiCheckStatus)
    (hbefore : old.status = .draft) (hafter : new.status = .pending)
  | edited (hversion : new.version = old.version + 1) (hafter : new.status = .draft)
    (hai : new.aiCheckStatus = "pending" ∨
      old.status = .draft ∧ new.aiCheckStatus = old.aiCheckStatus)
  | reworked (hversion : new.version = old.version + 1) (hafter : new.status = .pending)
    (hai : new.aiCheckStatus = "pending")
  | reopened (hreopens : reopens old) (hsame : SameRevision old new)
    (hafter : new.status = .pending) (hai : new.aiCheckStatus = "pending")

/-- One row is added or written, and its revision is staged. -/
inductive DraftStep (reopens : WikiPageDraft → Prop) :
    Table WikiPageDraft × List PendingAiPreReview →
      Table WikiPageDraft × List PendingAiPreReview → Prop
  | create {drafts : Table WikiPageDraft} {preReviews preReviews' : List PendingAiPreReview}
    {new : WikiPageDraft} (hfree : drafts.get new.id = none)
    (hai : new.aiCheckStatus = "pending")
    (hstage : stageAiPreReview preReviews new = .ok preReviews') :
    DraftStep reopens (drafts, preReviews) (drafts ++ [new], preReviews')
  | write {drafts : Table WikiPageDraft} {preReviews preReviews' : List PendingAiPreReview}
    {old new : WikiPageDraft} (hold : drafts.get new.id = some old)
    (hrewrites : Rewrites reopens old new)
    (hstage : stageAiPreReview preReviews new = .ok preReviews') :
    DraftStep reopens (drafts, preReviews) (drafts.put new, preReviews')

def DraftSteps (reopens : WikiPageDraft → Prop) (db db' : Database) : Prop :=
  Relation.ReflTransGen (DraftStep reopens) (db.drafts, db.preReviews) (db'.drafts, db'.preReviews)

/-- Every draft that a submission of its branch takes back into review may be reopened. -/
def Reopens (reopens : WikiPageDraft → Prop) (db : Database) : Call → Prop
  | .submitWikiBranch branchId actor =>
    ∀ branch, db.branches.get branchId = some branch →
      isAuthorOrAdmin (some branch.authorId) actor → branch.status = .draft →
      ∀ draft ∈ loadBranchDrafts db.drafts branchId, draft.status ≠ .pending → reopens draft
  | _ => True

theorem stageAiPreReview_idle {preReviews : List PendingAiPreReview} {draft : WikiPageDraft}
    (h : draft.status ≠ .pending) : stageAiPreReview preReviews draft = .ok preReviews := by
  simp [stageAiPreReview, h, pure, Except.pure]

theorem stageAiPreReview_pending {preReviews preReviews' : List PendingAiPreReview}
    {draft : WikiPageDraft} (hpending : draft.status = .pending)
    (h : stageAiPreReview preReviews draft = .ok preReviews') (staged : PendingAiPreReview) :
    staged ∈ preReviews' ↔ staged ∈ preReviews ∨ staged = stagedFromDraft draft := by
  simp only [stageAiPreReview, hpending, ne_eq, not_true_eq_false, if_false, bind_ok,
    require_ok] at h
  obtain ⟨-, -, h⟩ := h
  split at h
  · rename_i hstaged
    rw [pure_ok] at h
    subst h
    refine ⟨.inl, ?_⟩
    rintro (hmem | rfl)
    · exact hmem
    · exact hstaged
  · rw [pure_ok] at h
    subst h
    rw [List.mem_append, List.mem_singleton, stagedFromDraft]

section Operations

variable {env : Platform} {reopens : WikiPageDraft → Prop} {db db' : Database}
  {draftId eventId : Uuid} {now : Timestamp} {draft : WikiPageDraft}

theorem DraftSteps.of_eq (hdrafts : db'.drafts = db.drafts)
    (hpreReviews : db'.preReviews = db.preReviews) : DraftSteps reopens db db' := by
  rw [DraftSteps, hdrafts, hpreReviews]

/-- An operation that takes a draft out of review, or leaves it where it is, stages nothing. -/
theorem DraftSteps.settle {new : WikiPageDraft} (hdrafts : db'.drafts = db.drafts.put new)
    (hpreReviews : db'.preReviews = db.preReviews) (hget : db.drafts.get draft.id = some draft)
    (hid : new.id = draft.id) (hsame : SameRevision draft new)
    (hai : new.aiCheckStatus = draft.aiCheckStatus) (hstatus : new.status ∉ [.pending, .draft]) :
    DraftSteps reopens db db' := by
  rw [← hid] at hget
  have hidle : new.status ≠ .pending := by
    intro h
    simp [h] at hstatus
  rw [DraftSteps, hdrafts, hpreReviews]
  exact .single (.write hget (.settled hsame hai (.inr hstatus)) (stageAiPreReview_idle hidle))

/-- A new version goes straight back into review. -/
theorem DraftSteps.rework {new : WikiPageDraft} (hdrafts : db'.drafts = db.drafts.put new)
    (hstage : stageAiPreReview db.preReviews new = .ok db'.preReviews)
    (hget : db.drafts.get draft.id = some draft) (hid : new.id = draft.id)
    (hversion : new.version = draft.version + 1) (hafter : new.status = .pending)
    (hai : new.aiCheckStatus = "pending") : DraftSteps reopens db db' := by
  rw [← hid] at hget
  rw [DraftSteps, hdrafts]
  exact .single (.write hget (.reworked hversion hafter hai) hstage)

theorem createWikiDraft_steps {new : NewDraft} {proposalId reviewId : Uuid}
    (hop : createWikiDraft env db new proposalId reviewId = .ok db') :
    DraftSteps reopens db db' := by
  simp only [createWikiDraft, bind_ok] at hop
  obtain ⟨-, -, -, -, drafts, hinsert, hop⟩ := hop
  obtain ⟨hfree, rfl⟩ := Table.insert_ok hinsert
  split at hop
  · simp only [bind_ok, pure_ok] at hop
    obtain ⟨ledger, -, preReviews, hstage, rfl⟩ := hop
    exact .single (.create hfree rfl hstage)
  · rename_i hsubmit
    simp only [bind_ok, pure_ok] at hop
    obtain ⟨-, -, rfl⟩ := hop
    refine .single (.create hfree rfl (stageAiPreReview_idle ?_))
    change (if new.submitForReview then DraftStatus.pending else .draft) ≠ .pending
    rw [if_neg hsubmit]
    decide

theorem updateWikiDraft_steps {author : Actor} {edit : DraftEdit}
    (hop : updateWikiDraft env db draftId author edit eventId now = .ok db') :
    DraftSteps reopens db db' := by
  simp only [updateWikiDraft, bind_ok, assertStatus_ok] at hop
  obtain ⟨-, -, draft, hfetch, -, -, -, hstatus, -, -, hop⟩ := hop
  have hget := fetch_draft hfetch
  split at hop
  · rw [pure_ok] at hop
    subst hop
    exact .of_eq rfl rfl
  · simp only [bind_ok, pure_ok] at hop
    obtain ⟨-, -, rfl⟩ := hop
    have hid : (edit.applyTo draft).id = draft.id := by
      unfold DraftEdit.applyTo
      split <;> rfl
    have hedited : Rewrites reopens draft (edit.applyTo draft) ∧
        (edit.applyTo draft).status = .draft := by
      by_cases hreturned : draft.status = .needsRevision
      · have happly : edit.applyTo draft = { nextRound draft .draft with
            contentMd := edit.contentMd.getD draft.contentMd,
            suggestedMetadata := edit.suggestedMetadata.or draft.suggestedMetadata,
            sourceMetadata := edit.sourceMetadata.or draft.sourceMetadata,
            version := draft.version + 1 } := by
          rw [DraftEdit.applyTo, if_pos hreturned]
          rfl
        rw [happly]
        exact ⟨.edited rfl rfl (.inl rfl), rfl⟩
      · have hdraft : draft.status = .draft := by simpa [hreturned] using hstatus
        have happly : edit.applyTo draft = { draft with
            contentMd := edit.contentMd.getD draft.contentMd,
            suggestedMetadata := edit.suggestedMetadata.or draft.suggestedMetadata,
            sourceMetadata := edit.sourceMetadata.or draft.sourceMetadata,
            version := draft.version + 1 } := by
          rw [DraftEdit.applyTo, if_neg hreturned]
        rw [happly]
        exact ⟨.edited rfl hdraft (.inr ⟨hdraft, rfl⟩), hdraft⟩
    have hold : db.drafts.get (edit.applyTo draft).id = some draft := by
      rw [hid]
      exact hget
    refine .single (.write hold hedited.1 (stageAiPreReview_idle ?_))
    rw [hedited.2]
    decide

theorem submitWikiDraft_steps {author : Actor} {expectedVersion : Int} {reviewType : String}
    {notes : Option String} (hkeyed : db.drafts.Keyed)
    (hop : submitWikiDraft db draftId author expectedVersion reviewType notes eventId = .ok db') :
    DraftSteps reopens db db' := by
  simp only [submitWikiDraft, bind_ok] at hop
  obtain ⟨-, -, draft, hfetch, -, -, -, -, hop⟩ := hop
  have hget := fetch_draft hfetch
  split at hop
  · simp only [bind_ok, pure_ok] at hop
    obtain ⟨-, -, preReviews, hstage, rfl⟩ := hop
    -- the row stays as it is, and its revision is staged once more
    have hwrite : DraftStep reopens (db.drafts, db.preReviews) (db.drafts.put draft, preReviews) :=
      .write hget (.settled ⟨rfl, rfl, rfl⟩ rfl (.inl rfl)) hstage
    rw [Table.put_self hkeyed hget] at hwrite
    exact .single hwrite
  · simp only [bind_ok, pure_ok, assertStatus_ok, List.mem_singleton] at hop
    obtain ⟨-, hstatus, -, -, preReviews, hstage, rfl⟩ := hop
    exact .single (.write hget (.submitted ⟨rfl, rfl, rfl⟩ rfl hstatus rfl) hstage)

theorem rejectWikiDraft_steps {reviewerId : Uuid} {reviewerNote : String}
    (hop : rejectWikiDraft db draftId reviewerId reviewerNote eventId now = .ok db') :
    DraftSteps reopens db db' := by
  simp only [rejectWikiDraft, bind_ok, pure_ok] at hop
  obtain ⟨draft, hfetch, -, -, rfl⟩ := hop
  exact .settle rfl rfl (fetch_draft hfetch) rfl ⟨rfl, rfl, rfl⟩ rfl (by simp)

theorem requestChanges_steps {reviewer : Actor} {note : String}
    (hop : requestChanges db draftId reviewer note eventId = .ok db') :
    DraftSteps reopens db db' := by
  simp only [requestChanges, bind_ok, pure_ok] at hop
  obtain ⟨draft, hfetch, -, -, -, -, -, -, rfl⟩ := hop
  exact .settle rfl rfl (fetch_draft hfetch) rfl ⟨rfl, rfl, rfl⟩ rfl (by simp)

theorem resubmitWikiDraft_steps {author : Actor} {newContentMd : String}
    {authorNote : Option String} {updateId resubmitId : Uuid}
    (hop : resubmitWikiDraft env db draftId author newContentMd authorNote updateId resubmitId now =
      .ok db') : DraftSteps reopens db db' := by
  simp only [resubmitWikiDraft, bind_ok, pure_ok] at hop
  obtain ⟨draft, hfetch, -, -, -, -, -, -, -, -, preReviews, hstage, rfl⟩ := hop
  exact .rework rfl hstage (fetch_draft hfetch) rfl rfl rfl rfl

theorem withdraw_steps {author : Actor} (hop : withdraw db draftId author eventId = .ok db') :
    DraftSteps reopens db db' := by
  simp only [withdraw, bind_ok, pure_ok] at hop
  obtain ⟨draft, hfetch, -, -, -, -, -, -, rfl⟩ := hop
  exact .settle rfl rfl (fetch_draft hfetch) rfl ⟨rfl, rfl, rfl⟩ rfl (by simp)

theorem fenceDraft_steps {sourceId : Uuid} {generation : Nat} {reason : String}
    {eventIds : Uuid → Uuid}
    (hop : fenceDraft sourceId generation reason eventIds db draftId = .ok db') :
    DraftSteps reopens db db' := by
  simp only [fenceDraft, bind_ok] at hop
  obtain ⟨draft, hfetch, hop⟩ := hop
  split at hop
  · rw [pure_ok] at hop
    subst hop
    exact .of_eq rfl rfl
  · split at hop
    · rw [pure_ok] at hop
      subst hop
      exact .of_eq rfl rfl
    · simp only [bind_ok, pure_ok] at hop
      obtain ⟨-, -, rfl⟩ := hop
      exact .settle rfl rfl (fetch_draft hfetch) rfl ⟨rfl, rfl, rfl⟩ rfl (by simp)

theorem approveWikiDraft_steps {approval : Approval} {pageId : Uuid}
    (hop : approveWikiDraft env db draftId approval pageId eventId now = .ok db') :
    DraftSteps reopens db db' := by
  obtain ⟨draft, page, written, row, ledger, hget, -, hmaterialise, -, rfl⟩ :=
    approveWikiDraft_ok hop
  exact .settle rfl (materialise_frame hmaterialise).preReviews (fetch_draft (fetch_ok.mpr hget))
    rfl ⟨rfl, rfl, rfl⟩ rfl (by simp [approvedDraft])

/-- A loop of operations that each change drafts step by step. -/
theorem foldlM_steps {f : Database → Uuid → Transaction Database} {ids : List Uuid}
    (hstep : ∀ {s s' : Database}, ∀ id ∈ ids, f s id = .ok s' → DraftSteps reopens s s')
    (hop : ids.foldlM f db = .ok db') : DraftSteps reopens db db' := by
  apply foldlM_induction (P := fun s => DraftSteps reopens db s) _ .refl hop
  intro s s' id hid hs hf
  exact hs.trans (hstep id hid hf)

theorem closeBranchDraft_steps {governed : Bool} {actor : Actor} {eventIds : Uuid → Uuid}
    (hop : closeBranchDraft governed actor eventIds db draftId = .ok db') :
    DraftSteps reopens db db' := by
  simp only [closeBranchDraft, bind_ok] at hop
  obtain ⟨draft, hfetch, hop⟩ := hop
  split at hop
  · rw [pure_ok] at hop
    subst hop
    exact .of_eq rfl rfl
  · split at hop
    · exact withdraw_steps hop
    · rw [pure_ok] at hop
      subst hop
      exact .settle rfl rfl (fetch_draft hfetch) rfl ⟨rfl, rfl, rfl⟩ rfl (by simp)

theorem rebaseWikiBranchDraft_steps {branchId : Uuid} {author : Actor} {resolved : String}
    (hop : rebaseWikiBranchDraft env db branchId draftId author resolved eventId = .ok db') :
    DraftSteps reopens db db' := by
  simp only [rebaseWikiBranchDraft, bind_ok, require_ok] at hop
  obtain ⟨branch, -, draft, hfetch, -, -, -, -, -, -, -, -, -, -, hop⟩ := hop
  split at hop
  · simp at hop
  · split at hop
    · simp at hop
    · simp only [bind_ok, pure_ok] at hop
      obtain ⟨-, -, -, -, preReviews, hstage, rfl⟩ := hop
      exact .rework rfl hstage (fetch_draft hfetch) rfl rfl rfl rfl

/-- A draft that is not pending yet is reopened as the branch listed it: the loop meets a draft
twice only after it has become pending. -/
theorem submitWikiBranch_steps {branchId : Uuid} {actor : Actor} (hkeyed : db.drafts.Keyed)
    (hreopens : Reopens reopens db (.submitWikiBranch branchId actor))
    (hop : submitWikiBranch db branchId actor = .ok db') : DraftSteps reopens db db' := by
  simp only [submitWikiBranch, bind_ok, fetch_ok, require_ok, pure_ok] at hop
  obtain ⟨branch, hbranch, -, hactor, -, hstatus, -, -, after, hfold, rfl⟩ := hop
  have hallowed := hreopens branch hbranch hactor hstatus
  have hloop : DraftSteps reopens db after ∧ ∀ id draft, after.drafts.get id = some draft →
      draft.status = .pending ∨ db.drafts.get id = some draft := by
    apply foldlM_induction (P := fun s => DraftSteps reopens db s ∧ ∀ id draft,
      s.drafts.get id = some draft → draft.status = .pending ∨ db.drafts.get id = some draft) _
      ⟨.refl, fun _ _ h => .inr h⟩ hfold
    rintro s s' id hid ⟨hsteps, horigin⟩ hstep
    simp only [submitBranchDraft, bind_ok, fetch_ok, pure_ok] at hstep
    obtain ⟨draft, hget, preReviews, hstage, rfl⟩ := hstep
    have hpending : (intoReview draft).status = .pending := by
      unfold intoReview
      split
      · assumption
      · rfl
    have hid' : (intoReview draft).id = draft.id := by
      unfold intoReview
      split <;> rfl
    have hrewrites : Rewrites reopens draft (intoReview draft) := by
      by_cases hcase : draft.status = .pending
      · rw [intoReview, if_pos hcase]
        exact .settled ⟨rfl, rfl, rfl⟩ rfl (.inl rfl)
      · have hlisted : draft ∈ loadBranchDrafts db.drafts branchId := by
          obtain ⟨listed, hlisted, rfl⟩ := List.mem_map.mp hid
          have horiginal := (horigin _ _ hget).resolve_left hcase
          rw [get_of_mem_branch hkeyed hlisted] at horiginal
          rwa [Option.some.inj horiginal] at hlisted
        rw [intoReview, if_neg hcase]
        exact .reopened (hallowed draft hlisted hcase) ⟨rfl, rfl, rfl⟩ rfl rfl
    constructor
    · refine hsteps.tail (.write ?_ hrewrites hstage)
      rw [hid']
      exact fetch_draft (fetch_ok.mpr hget)
    · intro other found hfound
      change (s.drafts.put (intoReview draft)).get other = some found at hfound
      rw [Table.get_put] at hfound
      split at hfound
      · obtain ⟨-, -, rfl⟩ := Option.map_eq_some_iff.mp hfound
        exact .inl hpending
      · exact horigin other found hfound
  exact hloop.1

/-- One accepted call. -/
theorem perform_steps {call : Call} (hkeyed : db.drafts.Keyed) (hreopens : Reopens reopens db call)
    (hop : perform env call db = .ok db') : DraftSteps reopens db db' := by
  cases call with
  | createWikiDraft new proposalId reviewId => exact createWikiDraft_steps hop
  | updateWikiDraft draftId author edit eventId now => exact updateWikiDraft_steps hop
  | submitWikiDraft draftId author version type notes eventId =>
    exact submitWikiDraft_steps hkeyed hop
  | requestChanges draftId reviewer note eventId => exact requestChanges_steps hop
  | resubmitWikiDraft draftId author content note updateId resubmitId now =>
    exact resubmitWikiDraft_steps hop
  | approveWikiDraft draftId approval pageId eventId now => exact approveWikiDraft_steps hop
  | rejectWikiDraft draftId reviewerId note eventId now => exact rejectWikiDraft_steps hop
  | withdraw draftId author eventId => exact withdraw_steps hop
  | invalidateStaleCompilerDrafts sourceId generation reason eventId =>
    simp only [perform, invalidateStaleCompilerDrafts, bind_ok] at hop
    obtain ⟨-, -, hop⟩ := hop
    exact foldlM_steps (fun id _ hf => fenceDraft_steps hf) hop
  | submitWikiBranch branchId actor => exact submitWikiBranch_steps hkeyed hreopens hop
  | closeWikiBranch branchId actor reviewerOverride eventId =>
    simp only [perform, closeWikiBranch, bind_ok, pure_ok] at hop
    obtain ⟨branch, -, -, -, -, -, after, hfold, rfl⟩ := hop
    have hloop : DraftSteps reopens db after :=
      foldlM_steps (fun id _ hf => closeBranchDraft_steps hf) hfold
    exact hloop
  | mergeWikiBranch branchId reviewer note pageId eventId now =>
    simp only [perform, mergeWikiBranch, bind_ok] at hop
    obtain ⟨branch, -, -, -, hop⟩ := hop
    split at hop
    · simp at hop
    · simp only [bind_ok, pure_ok] at hop
      obtain ⟨merged, hfold, rfl⟩ := hop
      have hloop : DraftSteps reopens db merged :=
        foldlM_steps (fun id _ hf => approveWikiDraft_steps hf) hfold
      exact hloop
  | rebaseWikiBranchDraft branchId draftId author resolved eventId =>
    exact rebaseWikiBranchDraft_steps hop
  | elsewhere pages revisions links branches sources sourceDepartments =>
    cases hop
    exact .of_eq rfl rfl

end Operations

section Content

variable {reopens : WikiPageDraft → Prop}
  {s s' : Table WikiPageDraft × List PendingAiPreReview}

theorem Rewrites.version {old new : WikiPageDraft} (h : Rewrites reopens old new) :
    old.version ≤ new.version ∧ (new.version = old.version → new.contentMd = old.contentMd) := by
  cases h with
  | settled hsame => exact ⟨hsame.version.ge, fun _ => hsame.contentMd⟩
  | submitted hsame => exact ⟨hsame.version.ge, fun _ => hsame.contentMd⟩
  | edited hversion => omega
  | reworked hversion => omega
  | reopened hreopens hsame => exact ⟨hsame.version.ge, fun _ => hsame.contentMd⟩

theorem DraftStep.keyed (h : DraftStep reopens s s') (hs : s.1.Keyed) : s'.1.Keyed := by
  cases h with
  | create hfree => exact hs.append hfree
  | write => exact hs.put _

/-- No version of a draft ever shows another content. -/
theorem DraftStep.keeps (h : DraftStep reopens s s') {id : Uuid} {draft : WikiPageDraft}
    (hget : s.1.get id = some draft) : ∃ draft', s'.1.get id = some draft' ∧
      draft.version ≤ draft'.version ∧
      (draft'.version = draft.version → draft'.contentMd = draft.contentMd) := by
  cases h with
  | create => exact ⟨draft, Table.get_append_of_some hget, le_rfl, fun _ => rfl⟩
  | @write drafts preReviews preReviews' old new hold hrewrites =>
    change (drafts.get id) = some draft at hget
    by_cases hid : new.id = id
    · subst hid
      rw [hold] at hget
      cases hget
      refine ⟨new, (Table.get_put new drafts new.id).trans ?_, hrewrites.version⟩
      rw [hold]
      exact if_pos rfl
    · exact ⟨draft, ((Table.get_put new drafts id).trans (if_neg hid)).trans hget, le_rfl,
        fun _ => rfl⟩

theorem DraftSteps.keyed {db db' : Database} (h : DraftSteps reopens db db')
    (hdrafts : db.drafts.Keyed) : db'.drafts.Keyed := by
  have hall : ∀ s, Relation.ReflTransGen (DraftStep reopens) (db.drafts, db.preReviews) s →
      s.1.Keyed := by
    intro s hs
    induction hs with
    | refl => exact hdrafts
    | tail _ hstep ih => exact hstep.keyed ih
  exact hall _ h

theorem DraftSteps.keeps {db db' : Database} (h : DraftSteps reopens db db') {id : Uuid}
    {draft : WikiPageDraft} (hget : db.drafts.get id = some draft) : ∃ draft',
      db'.drafts.get id = some draft' ∧ draft.version ≤ draft'.version ∧
      (draft'.version = draft.version → draft'.contentMd = draft.contentMd) := by
  have hall : ∀ s, Relation.ReflTransGen (DraftStep reopens) (db.drafts, db.preReviews) s →
      ∃ draft', s.1.get id = some draft' ∧ draft.version ≤ draft'.version ∧
        (draft'.version = draft.version → draft'.contentMd = draft.contentMd) := by
    intro s hs
    induction hs with
    | refl => exact ⟨draft, hget, le_rfl, fun _ => rfl⟩
    | tail _ hstep ih =>
      obtain ⟨middle, hmiddle, hle, hcontent⟩ := ih
      obtain ⟨draft', hget', hle', hcontent'⟩ := hstep.keeps hmiddle
      refine ⟨draft', hget', hle.trans hle', fun heq => ?_⟩
      have hsame : middle.version = draft.version := le_antisymm (hle'.trans_eq heq) hle
      rw [hcontent' (heq.trans hsame.symm), hcontent hsame]
  exact hall _ h

end Content

end Cygnus.Review
