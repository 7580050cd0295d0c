import Cygnus.Review.ApprovalLaws
import Cygnus.Review.Lifecycle

namespace Cygnus.Review

open Wiki Governance Result

variable {env : Platform} {db db' : Database} {draftId eventId : Uuid} {now : Timestamp}

theorem fetch_draft {draft : WikiPageDraft}
    (h : fetch "wiki_page_drafts" db.drafts draftId = .ok draft) :
    db.drafts.get draft.id = some draft := by
  rw [fetch_ok] at h
  have hid : draft.id = draftId := Table.get_key h
  rwa [hid]

theorem assertStatus_ok {draft : WikiPageDraft} {allowed : List DraftStatus} {u : Unit} :
    assertStatus draft allowed = .ok u ↔ draft.status ∈ allowed := by
  rw [assertStatus, require_ok]

section Records

variable {ledger ledger' : Table GovernanceLedgerEvent} {row : GovernanceLedgerEvent}
  {draft : WikiPageDraft}

/-- A recorded draft update is an append under the key of the new version. -/
theorem recordDraftUpdate_ok {previous : Nat} {fromState toState : GovernanceState}
    {actorId : Option Uuid} {action : String} {reason : Option String} {extra : JsonObject}
    (h : recordDraftUpdate env ledger eventId draft previous fromState toState actorId action reason
      extra = .ok (row, ledger')) :
    draft.version = previous + 1 ∧ ∃ payload, appendDraftEvent ledger eventId
      { draftId := draft.id, eventType := .draftUpdated, fromState := some fromState,
        toState := toState, actorId := actorId,
        idempotencyKey := .wikiDraft draft.id .draftUpdated (some draft.version), reason := reason,
        payload := payload } = .ok (row, ledger') := by
  simp only [recordDraftUpdate, draftUpdateKey, bind_ok, require_ok, pure_ok] at h
  obtain ⟨-, -, -, hversion, -, -, -, -, -, ⟨-, -, rfl⟩, h⟩ := h
  exact ⟨hversion, _, h⟩

end Records

theorem createWikiDraft_advances {new : NewDraft} {proposalId reviewId : Uuid}
    (h : Agreement db.drafts db.ledger)
    (hop : createWikiDraft env db new proposalId reviewId = .ok db') :
    Advances db.drafts db'.drafts db'.ledger := by
  simp only [createWikiDraft, bind_ok] at hop
  obtain ⟨-, -, -, -, drafts, hinsert, hop⟩ := hop
  obtain ⟨hnew, rfl⟩ := Table.insert_ok hinsert
  replace hnew : db.drafts.get new.row.id = none := hnew
  -- no event of the ledger belongs to a draft that does not exist yet
  have hfree : ∀ key, keyDraft key = some new.row.id → findKey db.ledger key = none := by
    intro key hkey
    rw [findKey_none]
    rintro event hevent rfl
    obtain ⟨other, hother, hspent⟩ := h.spent event hevent
    rw [← Table.get_key hother] at hother
    change db.drafts.get other.id = some other at hother
    rw [Option.some.inj (hspent.keyDraft_eq.symm.trans hkey), hnew] at hother
    cases hother
  split at hop
  · rename_i hsubmit
    simp only [recordCreatedDraft, bind_ok, pure_ok] at hop
    obtain ⟨ledger, ⟨⟨proposal, ledger₁⟩, hproposal, ⟨review, ledger₂⟩, hreview, rfl⟩, -, -, rfl⟩ :=
      hop
    have happend₁ := appendDraftEvent_fresh hproposal (hfree _ rfl)
    have happend₂ := appendDraftEvent_fresh hreview
      (happend₁.findKey_none (hfree _ rfl) (by simp [transitionKey]))
    have hstatus : new.row.status = .pending := if_pos hsubmit
    refine ⟨h.create hnew le_rfl (.of_append_append happend₁ happend₂ rfl rfl ?_ rfl ?_),
      .create _ _⟩
    · rw [hstatus]
      rfl
    · exact ⟨rfl, .inr ⟨rfl, by rw [hstatus]; decide⟩⟩
  · rename_i hsubmit
    simp only [bind_ok, pure_ok] at hop
    obtain ⟨⟨proposal, ledger⟩, hproposal, rfl⟩ := hop
    have happend := appendDraftEvent_fresh hproposal (hfree _ rfl)
    have hstatus : new.row.status = .draft := if_neg hsubmit
    refine ⟨h.create hnew le_rfl (.of_append happend rfl ?_ rfl), .create _ _⟩
    rw [hstatus]
    rfl

theorem updateWikiDraft_advances {author : Actor} {edit : DraftEdit}
    (h : Agreement db.drafts db.ledger)
    (hop : updateWikiDraft env db draftId author edit eventId now = .ok db') :
    Advances db.drafts db'.drafts db'.ledger := by
  simp only [updateWikiDraft, bind_ok, assertStatus_ok] at hop
  obtain ⟨-, -, draft, hfetch, -, -, -, hstatus, -, -, hop⟩ := hop
  have hget := fetch_draft hfetch
  split at hop
  · rw [pure_ok] at hop
    subst hop
    exact .refl h
  · simp only [bind_ok, pure_ok] at hop
    obtain ⟨⟨row, ledger⟩, hrecord, rfl⟩ := hop
    obtain ⟨hversion, payload, happend⟩ := recordDraftUpdate_ok hrecord
    have hid : (edit.applyTo draft).id = draft.id := by
      unfold DraftEdit.applyTo
      split <;> rfl
    have hevolves : Evolves draft (edit.applyTo draft) := by
      refine ⟨hid, ?_, by omega, ?_⟩
      · simp only [List.mem_cons, List.not_mem_nil, or_false] at hstatus
        rcases hstatus with hs | hs
        · simp [DraftEdit.applyTo, Reached, stage, hs]
        · simp [DraftEdit.applyTo, nextRound, Reached, hs]
      · intro hd
        simp only [List.mem_cons, List.not_mem_nil, or_false] at hstatus
        rcases hstatus with hs | hs <;> simp [Decided, hs] at hd
    have hafter : (edit.applyTo draft).status = .draft := by
      simp only [List.mem_cons, List.not_mem_nil, or_false] at hstatus
      rcases hstatus with hs | hs <;> simp [DraftEdit.applyTo, nextRound, hs]
    apply Advances.append h hget happend hevolves hid
    · simp [keyDraft, hid]
    · rintro ⟨-, hle⟩
      omega
    · exact ⟨rfl, le_rfl⟩
    · rw [hafter]
      rfl

theorem submitWikiDraft_advances {author : Actor} {expectedVersion : Int} {reviewType : String}
    {notes : Option String} (h : Agreement db.drafts db.ledger)
    (hop : submitWikiDraft db draftId author expectedVersion reviewType notes eventId = .ok db') :
    Advances db.drafts db'.drafts db'.ledger := by
  simp only [submitWikiDraft, bind_ok] at hop
  obtain ⟨-, -, draft, hfetch, -, -, -, -, hop⟩ := hop
  have hget := fetch_draft hfetch
  split at hop
  · rename_i hpending
    simp only [bind_ok, mapError_ok, pure_ok] at hop
    obtain ⟨⟨row, ledger⟩, hrecord, -, -, rfl⟩ := hop
    -- the ledger is already in review, so only an exact replay is accepted
    rcases appendDraftEvent_ok hrecord with ⟨-, -, rfl⟩ | happend
    · exact .refl h
    · have hfrom := happend.from_eq
      have hfollows := h.follows draft.id draft hget
      rw [hpending, hfrom] at hfollows
      cases hfollows
  · simp only [bind_ok, mapError_ok, pure_ok, assertStatus_ok, List.mem_singleton] at hop
    obtain ⟨-, hstatus, ⟨row, ledger⟩, hrecord, -, -, rfl⟩ := hop
    apply Advances.append h hget hrecord
    · exact .within (by simp [Decided, hstatus]) rfl rfl le_rfl (by simp [stage, hstatus])
    · rfl
    · rfl
    · simp [Spent, transitionKey, Reached, stage, hstatus, submittedDraft]
    · exact ⟨rfl, .inr ⟨rfl, le_rfl⟩⟩
    · rfl

theorem rejectWikiDraft_advances {reviewerId : Uuid} {reviewerNote : String}
    (h : Agreement db.drafts db.ledger)
    (hop : rejectWikiDraft db draftId reviewerId reviewerNote eventId now = .ok db') :
    Advances db.drafts db'.drafts db'.ledger := by
  simp only [rejectWikiDraft, bind_ok, pure_ok] at hop
  obtain ⟨draft, hfetch, ⟨row, ledger⟩, hrecord, rfl⟩ := hop
  have hget := fetch_draft hfetch
  have hfollows := h.follows draft.id draft hget
  by_cases hrejected : draft.status = .rejected
  · -- only the exact replay of the rejection is accepted, and it writes the status again
    rcases appendDraftEvent_ok hrecord with ⟨-, -, rfl⟩ | happend
    · apply Advances.put h hget
      · exact ⟨rfl, .inr ⟨rfl, by simp [hrejected]⟩, le_rfl, fun _ => hrejected.symm⟩
      · refine ⟨?_, fun _ _ => rfl, fun _ he => .inl he⟩
        rw [hfollows, hrejected]
    · have hfrom := happend.from_eq
      rw [hfollows, hrejected] at hfrom
      cases hfrom
  · have hfresh : ¬ Spent draft (transitionKey draft.id .rejected) := fun hs => hrejected hs.2
    have happend := appendDraftEvent_fresh hrecord (h.keyFree hget rfl hfresh)
    have hpending : draft.status = .pending := by
      have := hfollows.symm.trans happend.from_eq
      cases hs : draft.status <;> simp_all [governanceStateForDraftStatus]
    apply Advances.put h hget
    · exact .within (by simp [Decided, hpending]) rfl rfl le_rfl
        (stage_le_of_decided (by simp [Decided]) _)
    · exact .of_append happend rfl rfl ⟨rfl, rfl⟩

theorem requestChanges_advances {reviewer : Actor} {note : String}
    (h : Agreement db.drafts db.ledger)
    (hop : requestChanges db draftId reviewer note eventId = .ok db') :
    Advances db.drafts db'.drafts db'.ledger := by
  simp only [requestChanges, bind_ok, pure_ok, assertStatus_ok, List.mem_singleton] at hop
  obtain ⟨draft, hfetch, -, -, -, hstatus, ⟨row, ledger⟩, hrecord, rfl⟩ := hop
  apply Advances.append h (fetch_draft hfetch) hrecord
  · exact .within (by simp [Decided, hstatus]) rfl rfl le_rfl (by simp [stage, hstatus])
  · rfl
  · rfl
  · simp [Spent, transitionKey, Reached, stage, hstatus]
  · exact ⟨rfl, .inr ⟨rfl, le_rfl⟩⟩
  · rfl

theorem resubmitWikiDraft_advances {author : Actor} {newContentMd : String}
    {authorNote : Option String} {updateId resubmitId : Uuid} (h : Agreement db.drafts db.ledger)
    (hop : resubmitWikiDraft env db draftId author newContentMd authorNote updateId resubmitId now =
      .ok db') :
    Advances db.drafts db'.drafts db'.ledger := by
  simp only [resubmitWikiDraft, bind_ok, pure_ok, assertStatus_ok, List.mem_singleton] at hop
  obtain ⟨draft, hfetch, -, hstatus, -, -, ⟨row, middle⟩, hupdate, ⟨row', ledger⟩, hresubmit, -, -,
    rfl⟩ := hop
  have hget := fetch_draft hfetch
  obtain ⟨-, payload, hupdate⟩ := recordDraftUpdate_ok hupdate
  have hfirst := appendDraftEvent_fresh hupdate (h.keyFree hget rfl (by
    rintro ⟨-, hle⟩
    simp at hle))
  have hsecond := appendDraftEvent_fresh hresubmit (hfirst.findKey_none (h.keyFree hget rfl (by
    simp [Spent, transitionKey, Reached, nextRound])) (by simp [transitionKey]))
  apply Advances.put h hget
  · exact ⟨rfl, .inl (Nat.lt_succ_self _), Nat.le_succ _, by simp [Decided, hstatus]⟩
  · exact .of_append_append hfirst hsecond rfl rfl rfl ⟨rfl, le_rfl⟩ ⟨rfl, .inr ⟨rfl, le_rfl⟩⟩

theorem withdraw_advances {author : Actor} (h : Agreement db.drafts db.ledger)
    (hop : withdraw db draftId author eventId = .ok db') :
    Advances db.drafts db'.drafts db'.ledger := by
  simp only [withdraw, bind_ok, pure_ok, assertStatus_ok] at hop
  obtain ⟨draft, hfetch, -, hstatus, -, -, ⟨row, ledger⟩, hrecord, rfl⟩ := hop
  have hopen : ¬ Decided draft.status := by
    revert hstatus
    cases draft.status <;> decide
  apply Advances.append h (fetch_draft hfetch) hrecord
  · exact .within hopen rfl rfl le_rfl (stage_le_of_decided (by simp [Decided]) _)
  · rfl
  · rfl
  · rintro ⟨-, hs⟩
    exact hopen (by rw [hs]; decide)
  · exact ⟨rfl, rfl⟩
  · rfl

theorem fenceDraft_advances {sourceId : Uuid} {generation : Nat} {reason : String}
    {eventIds : Uuid → Uuid} (h : Agreement db.drafts db.ledger)
    (hopen : ∀ draft, db.drafts.get draftId = some draft → ¬ Decided draft.status)
    (hop : fenceDraft sourceId generation reason eventIds db draftId = .ok db') :
    Advances db.drafts db'.drafts db'.ledger := by
  simp only [fenceDraft, bind_ok] at hop
  obtain ⟨draft, hfetch, hop⟩ := hop
  have hopen := hopen draft (fetch_ok.mp hfetch)
  split at hop
  · rw [pure_ok] at hop
    subst hop
    exact .refl h
  · split at hop
    · rw [pure_ok] at hop
      subst hop
      exact .refl h
    · simp only [bind_ok, pure_ok] at hop
      obtain ⟨⟨row, ledger⟩, hrecord, rfl⟩ := hop
      apply Advances.append h (fetch_draft hfetch) hrecord
      · exact .within hopen rfl rfl le_rfl (stage_le_of_decided (by simp [Decided]) _)
      · rfl
      · rfl
      · rintro ⟨-, hs⟩
        exact hopen (by rw [hs]; decide)
      · exact ⟨rfl, rfl⟩
      · rfl

theorem approveWikiDraft_advances {approval : Approval} {pageId : Uuid}
    (h : Agreement db.drafts db.ledger)
    (hop : approveWikiDraft env db draftId approval pageId eventId now = .ok db') :
    Advances db.drafts db'.drafts db'.ledger := by
  obtain ⟨draft, page, written, row, ledger, hget, hstatus, -, hrecord, rfl⟩ :=
    approveWikiDraft_ok hop
  have hget : db.drafts.get draft.id = some draft := fetch_draft (fetch_ok.mpr hget)
  apply Advances.append h hget hrecord
  · exact .within (by simp [Decided, hstatus]) rfl rfl le_rfl
      (stage_le_of_decided (by simp [Decided, approvedDraft]) _)
  · rfl
  · rfl
  · rintro ⟨-, hs⟩
    rw [hstatus] at hs
    cases hs
  · exact ⟨rfl, rfl⟩
  · rfl

theorem Advances.trans {drafts : Table WikiPageDraft} (h : Advances drafts db.drafts db.ledger)
    (h' : Agreement db.drafts db.ledger → Advances db.drafts db'.drafts db'.ledger) :
    Advances drafts db'.drafts db'.ledger :=
  ⟨(h' h.agreement).agreement, h.keeps.trans (h' h.agreement).keeps⟩

/-- A loop of operations that each advance the drafts. -/
theorem foldlM_advances {f : Database → Uuid → Transaction Database} {ids : List Uuid}
    (h : Agreement db.drafts db.ledger)
    (hstep : ∀ {s s' : Database}, ∀ id ∈ ids, Keeps db.drafts s.drafts →
      Agreement s.drafts s.ledger → f s id = .ok s' → Advances s.drafts s'.drafts s'.ledger)
    (hop : ids.foldlM f db = .ok db') : Advances db.drafts db'.drafts db'.ledger := by
  apply foldlM_induction (P := fun s => Advances db.drafts s.drafts s.ledger) _ (.refl h) hop
  intro s s' id hid hs hf
  exact hs.trans fun hagree => hstep id hid hs.keeps hagree hf

theorem mergeWikiBranch_advances {branchId : Uuid} {reviewer : Actor} {note : Option String}
    {pageIds eventIds : Uuid → Uuid} (h : Agreement db.drafts db.ledger)
    (hop : mergeWikiBranch env db branchId reviewer note pageIds eventIds now = .ok db') :
    Advances db.drafts db'.drafts db'.ledger := by
  simp only [mergeWikiBranch, bind_ok] at hop
  obtain ⟨branch, -, -, -, hop⟩ := hop
  split at hop
  · simp at hop
  · simp only [bind_ok, pure_ok] at hop
    obtain ⟨merged, hfold, rfl⟩ := hop
    apply foldlM_advances h _ hfold
    intro s s' id _ _ hs hf
    exact approveWikiDraft_advances hs hf

theorem rebaseWikiBranchDraft_advances {branchId : Uuid} {author : Actor} {resolved : String}
    (h : Agreement db.drafts db.ledger)
    (hop : rebaseWikiBranchDraft env db branchId draftId author resolved eventId = .ok db') :
    Advances db.drafts db'.drafts db'.ledger := by
  simp only [rebaseWikiBranchDraft, bind_ok, require_ok] at hop
  obtain ⟨branch, -, draft, hfetch, -, -, -, -, -, -, -, -, -, hstatus, hop⟩ := hop
  split at hop
  · simp at hop
  · split at hop
    · simp at hop
    · simp only [bind_ok, mapError_ok, pure_ok] at hop
      obtain ⟨-, -, ⟨row, ledger⟩, hrecord, -, -, rfl⟩ := hop
      obtain ⟨-, payload, happend⟩ := recordDraftUpdate_ok hrecord
      apply Advances.append h (fetch_draft hfetch) happend
      · exact .within (by simp [Decided, hstatus]) rfl rfl (Nat.le_succ _) (by simp [hstatus])
      · rfl
      · rfl
      · rintro ⟨-, hle⟩
        simp at hle
      · exact ⟨rfl, le_rfl⟩
      · rfl

theorem fenceDraft_others {sourceId : Uuid} {generation : Nat} {reason : String}
    {eventIds : Uuid → Uuid} (hop : fenceDraft sourceId generation reason eventIds db draftId = .ok db')
    {other : Uuid} (hne : other ≠ draftId) : db'.drafts.get other = db.drafts.get other := by
  simp only [fenceDraft, bind_ok] at hop
  obtain ⟨draft, hfetch, hop⟩ := hop
  have hid : draft.id = draftId := Table.get_key (fetch_ok.mp hfetch)
  split at hop
  · rw [pure_ok] at hop
    rw [hop]
  · split at hop
    · rw [pure_ok] at hop
      rw [hop]
    · simp only [bind_ok, pure_ok] at hop
      obtain ⟨⟨row, ledger⟩, -, rfl⟩ := hop
      refine (Table.get_put _ _ _).trans (if_neg ?_)
      change draft.id ≠ other
      rw [hid]
      exact hne.symm

theorem fenceDrafts_advances {sourceId : Uuid} {generation : Nat} {reason : String}
    {eventIds : Uuid → Uuid} {ids : List Uuid} (h : Agreement db.drafts db.ledger)
    (hnodup : ids.Nodup)
    (hopen : ∀ id ∈ ids, ∀ draft, db.drafts.get id = some draft → ¬ Decided draft.status)
    (hop : ids.foldlM (fenceDraft sourceId generation reason eventIds) db = .ok db') :
    Advances db.drafts db'.drafts db'.ledger := by
  induction ids generalizing db with
  | nil =>
    rw [List.foldlM_nil, pure_ok] at hop
    subst hop
    exact .refl h
  | cons id ids ih =>
    rw [List.foldlM_cons, bind_ok] at hop
    obtain ⟨next, hnext, hop⟩ := hop
    rw [List.nodup_cons] at hnodup
    have hfirst := fenceDraft_advances h (hopen id List.mem_cons_self) hnext
    apply hfirst.trans
    intro hagree
    apply ih hagree hnodup.2 _ hop
    -- a draft is fenced once, so those still to come are as they were
    intro other hother draft hdraft
    rw [fenceDraft_others hnext (by rintro rfl; exact hnodup.1 hother)] at hdraft
    exact hopen other (List.mem_cons_of_mem _ hother) draft hdraft

theorem invalidateStaleCompilerDrafts_advances {sourceId : Uuid} {generation : Int}
    {reason : String} {eventIds : Uuid → Uuid} (h : Agreement db.drafts db.ledger)
    (hop : invalidateStaleCompilerDrafts db sourceId generation reason eventIds = .ok db') :
    Advances db.drafts db'.drafts db'.ledger := by
  simp only [invalidateStaleCompilerDrafts, bind_ok] at hop
  obtain ⟨-, -, hop⟩ := hop
  apply fenceDrafts_advances h _ _ hop
  · exact ((Sequence.perm_sortedBy _ _).map WikiPageDraft.id).nodup_iff.mpr
      (h.keyed.nodup_keys_filter _)
  · intro id hid draft hdraft
    obtain ⟨listed, hlisted, rfl⟩ := List.mem_map.mp hid
    simp only [staleCompilerDrafts, Sequence.mem_sortedBy, List.mem_filter, Bool.and_eq_true,
      decide_eq_true_eq] at hlisted
    have hget := h.keyed.get_of_mem hlisted.1
    change db.drafts.get listed.id = some listed at hget
    rw [hget] at hdraft
    obtain rfl := Option.some.inj hdraft
    have hstatus := hlisted.2.2
    revert hstatus
    cases listed.status <;> decide

/-- A draft of a branch is found under its own identifier. -/
theorem get_of_mem_branch {branchId : Uuid} {draft : WikiPageDraft}
    (h : db.drafts.Keyed) (hmem : draft ∈ loadBranchDrafts db.drafts branchId) :
    db.drafts.get draft.id = some draft :=
  h.get_of_mem (List.mem_of_mem_filter hmem)

theorem submitWikiBranch_advances {branchId : Uuid} {actor : Actor}
    (h : Agreement db.drafts db.ledger) (hgoverned : Governed db (.submitWikiBranch branchId actor))
    (hop : submitWikiBranch db branchId actor = .ok db') :
    Advances db.drafts db'.drafts db'.ledger := by
  simp only [submitWikiBranch, bind_ok, fetch_ok, require_ok, pure_ok] at hop
  obtain ⟨branch, hbranch, -, hactor, -, hstatus, -, -, after, hfold, rfl⟩ := hop
  have hpending := hgoverned branch hbranch hactor hstatus
  have hsame : after.drafts = db.drafts ∧ after.ledger = db.ledger := by
    apply foldlM_induction (P := fun s => s.drafts = db.drafts ∧ s.ledger = db.ledger) _ _ hfold
    · rintro s s' id hid ⟨hdrafts, hledger⟩ hstep
      obtain ⟨listed, hlisted, rfl⟩ := List.mem_map.mp hid
      simp only [submitBranchDraft, bind_ok, fetch_ok, pure_ok] at hstep
      obtain ⟨draft, hget, preReviews, -, rfl⟩ := hstep
      have hrow := get_of_mem_branch h.keyed hlisted
      rw [hdrafts, hrow] at hget
      cases hget
      have hinto : intoReview listed = listed := if_pos (hpending listed hlisted)
      exact ⟨by rw [hinto, hdrafts, Table.put_self h.keyed hrow], hledger⟩
    · exact ⟨rfl, rfl⟩
  change Advances db.drafts after.drafts after.ledger
  rw [hsame.1, hsame.2]
  exact .refl h

theorem closeWikiBranch_advances {branchId : Uuid} {actor : Actor} {reviewerOverride : Bool}
    {eventIds : Uuid → Uuid} (h : Agreement db.drafts db.ledger)
    (hgoverned : Governed db (.closeWikiBranch branchId actor reviewerOverride eventIds))
    (hop : closeWikiBranch db branchId actor reviewerOverride eventIds = .ok db') :
    Advances db.drafts db'.drafts db'.ledger := by
  simp only [closeWikiBranch, bind_ok, fetch_ok, require_ok, pure_ok] at hop
  obtain ⟨branch, hbranch, -, hallowed, -, hstatus, after, hfold, rfl⟩ := hop
  change Advances db.drafts after.drafts after.ledger
  by_cases hactor : isAuthorOrAdmin (some branch.authorId) actor
  · apply foldlM_advances h _ hfold
    intro s s' id _ _ hs hstep
    simp only [closeBranchDraft, hactor, decide_true, if_true, bind_ok] at hstep
    obtain ⟨draft, -, hstep⟩ := hstep
    split at hstep
    · rw [pure_ok] at hstep
      subst hstep
      exact .refl hs
    · exact withdraw_advances hs hstep
  · have hoverride : reviewerOverride = true := by simpa [hactor] using hallowed
    have hclosed := hgoverned branch hbranch hactor hoverride hstatus
    have hsame : after = db := by
      apply foldlM_induction (P := fun s => s = db) _ rfl hfold
      rintro s s' id hid rfl hstep
      obtain ⟨listed, hlisted, rfl⟩ := List.mem_map.mp hid
      simp only [closeBranchDraft, bind_ok, fetch_ok] at hstep
      obtain ⟨draft, hget, hstep⟩ := hstep
      rw [get_of_mem_branch h.keyed hlisted] at hget
      cases hget
      rw [if_pos (hclosed listed hlisted), pure_ok] at hstep
      exact hstep.symm
    subst hsame
    exact .refl h

/-- One accepted call. -/
theorem perform_advances {call : Call} (h : Agreement db.drafts db.ledger)
    (hgoverned : Governed db call) (hop : perform env call db = .ok db') :
    Advances db.drafts db'.drafts db'.ledger := by
  cases call with
  | createWikiDraft new proposalId reviewId => exact createWikiDraft_advances h hop
  | updateWikiDraft draftId author edit eventId now => exact updateWikiDraft_advances h hop
  | submitWikiDraft draftId author version type notes eventId =>
    exact submitWikiDraft_advances h hop
  | requestChanges draftId reviewer note eventId => exact requestChanges_advances h hop
  | resubmitWikiDraft draftId author content note updateId resubmitId now =>
    exact resubmitWikiDraft_advances h hop
  | approveWikiDraft draftId approval pageId eventId now => exact approveWikiDraft_advances h hop
  | rejectWikiDraft draftId reviewerId note eventId now => exact rejectWikiDraft_advances h hop
  | withdraw draftId author eventId => exact withdraw_advances h hop
  | invalidateStaleCompilerDrafts sourceId generation reason eventId =>
    exact invalidateStaleCompilerDrafts_advances h hop
  | submitWikiBranch branchId actor => exact submitWikiBranch_advances h hgoverned hop
  | closeWikiBranch branchId actor reviewerOverride eventId =>
    exact closeWikiBranch_advances h hgoverned hop
  | mergeWikiBranch branchId reviewer note pageId eventId now => exact mergeWikiBranch_advances h hop
  | rebaseWikiBranchDraft branchId draftId author resolved eventId =>
    exact rebaseWikiBranchDraft_advances h hop
  | elsewhere pages revisions links branches sources sourceDepartments =>
    cases hop
    exact .refl h

end Cygnus.Review
