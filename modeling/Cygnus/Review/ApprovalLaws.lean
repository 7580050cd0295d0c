import Cygnus.Governance.LedgerLaws
import Cygnus.Review.Approval
import Cygnus.Wiki.PageLaws

namespace Cygnus.Review

open Wiki Governance Text Result Sequence

variable {env : Platform} {db db' : Database} {draft : WikiPageDraft} {approval : Approval}
  {pageId : Uuid} {page : WikiPage}

theorem approveCreate_ok {finalContent : String} {reviewerId : Uuid} {reviewerNote : Option String}
    {overrides : Option JsonObject}
    (h : approveCreate env db draft finalContent reviewerId reviewerNote overrides pageId =
      .ok (page, db')) :
    ∃ metadata scopeType sourceIds created revisions,
      checkCreate env db draft overrides = .ok (metadata, scopeType) ∧
      getPageBySlug env db.pages metadata.slug none scopeType metadata.scopeId
        (some metadata.language) = none ∧
      draftSourceIds draft = .ok sourceIds ∧
      applyCreate env db pageId metadata.slug metadata.title finalContent metadata.summary
        metadata.knowledgeTypeSlugs sourceIds scopeType metadata.scopeId (some metadata.language) =
        .ok (page, created) ∧
      enrichRevision created.revisions page draft.id reviewerId reviewerNote = .ok revisions ∧
      db' = { created with revisions := revisions } := by
  simp only [approveCreate, bind_ok] at h
  obtain ⟨⟨metadata, scopeType⟩, hcheck, h⟩ := h
  dsimp only at h
  split at h
  · simp at h
  · rename_i hfree
    simp only [bind_ok, pure_ok, Prod.mk.injEq] at h
    obtain ⟨sourceIds, hsources, ⟨created, after⟩, hcreate, revisions, henrich, rfl, rfl⟩ := h
    exact ⟨metadata, scopeType, sourceIds, after, revisions, hcheck, hfree, hsources, hcreate,
      henrich, rfl⟩

theorem approveCreate_frame {finalContent : String} {reviewerId : Uuid}
    {reviewerNote : Option String} {overrides : Option JsonObject}
    (h : approveCreate env db draft finalContent reviewerId reviewerNote overrides pageId =
      .ok (page, db')) : PageFrame db db' := by
  obtain ⟨metadata, scopeType, sourceIds, created, revisions, -, -, -, hcreate, -, rfl⟩ :=
    approveCreate_ok h
  obtain ⟨outcome, -, hwrite⟩ := applyCreate_ok hcreate
  have hframe := writePage_frame hwrite
  exact ⟨hframe.drafts, hframe.rounds, hframe.preReviews, hframe.branches, hframe.ledger,
    hframe.sources, hframe.sourceDepartments⟩

theorem approveEdit_ok {finalContent : String} {reviewerId : Uuid}
    {reviewerNote edited : Option String} {allowConflict : Bool}
    (h : approveEdit env db draft finalContent reviewerId reviewerNote edited allowConflict =
      .ok (page, db')) :
    ∃ target sourceIds outcome, draft.pageId.bind db.pages.get = some target ∧
      (allowConflict ∨ edited.isSome ∨
        draft.baseVersion.all fun base => (target.version : Int) ≤ base) ∧
      draftSourceIds draft = .ok sourceIds ∧
      writePage env db target.id (editWrite draft target finalContent sourceIds reviewerId
        reviewerNote) = .ok (outcome, db') ∧ outcome.page = some page := by
  unfold approveEdit at h
  split at h
  · simp at h
  · rename_i target htarget
    simp only [bind_ok, require_ok] at h
    obtain ⟨-, -, -, hbase, sourceIds, hsources, ⟨outcome, after⟩, hwrite, h⟩ := h
    dsimp only at h
    split at h
    · simp at h
    · rename_i written hwritten
      simp only [pure_ok, Prod.mk.injEq] at h
      obtain ⟨rfl, rfl⟩ := h
      exact ⟨target, sourceIds, outcome, htarget, hbase, hsources, hwrite, hwritten⟩

theorem materialise_frame (h : materialise env db draft approval pageId = .ok (page, db')) :
    PageFrame db db' := by
  unfold materialise at h
  split at h
  · exact approveCreate_frame h
  · obtain ⟨target, sourceIds, outcome, -, -, -, hwrite, -⟩ := approveEdit_ok h
    exact writePage_frame hwrite

/-- An approval finds its draft pending, writes the page and then the ledger. -/
theorem approveWikiDraft_ok {draftId eventId : Uuid} {now : Timestamp}
    (h : approveWikiDraft env db draftId approval pageId eventId now = .ok db') :
    ∃ draft page written row ledger, db.drafts.get draftId = some draft ∧
      draft.status = .pending ∧ materialise env db draft approval pageId = .ok (page, written) ∧
      appendDraftEvent db.ledger eventId (approvalEvent env draft approval page now) =
        .ok (row, ledger) ∧
      db' = { written with
        drafts := db.drafts.put (approvedDraft draft approval page now), ledger := ledger } := by
  simp only [approveWikiDraft, bind_ok, fetch_ok, require_ok, pure_ok] at h
  obtain ⟨draft, hget, -, hpending, ⟨page, written⟩, hpage, ⟨row, ledger⟩, happend, rfl⟩ := h
  have hframe := materialise_frame hpage
  dsimp only at happend
  rw [hframe.ledger] at happend
  refine ⟨draft, page, written, row, ledger, hget, hpending, hpage, happend, ?_⟩
  rw [hframe.drafts]

end Cygnus.Review
