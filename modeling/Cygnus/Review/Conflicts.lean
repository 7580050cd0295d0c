import Cygnus.Review.ApprovalLaws

/-! The two conflicts of an approval: which of its steps never report one. -/

namespace Cygnus.Review

open Wiki Governance Text Result

section Errors

variable {α β : Type}

/-- What a draft asks for is taken, or its page has moved on. -/
def isConflict : ReviewError → Bool
  | .draftConflict _ _ => true
  | .createDraftSlugConflict _ _ _ => true
  | _ => false

/-- A computation that never reports such a conflict. -/
structure NoConflict (x : Transaction α) : Prop where
  never : ∀ error, x = .error error → isConflict error = false

theorem noConflict_ok (a : α) : NoConflict (.ok a) := by
  constructor
  intro error h
  cases h

theorem NoConflict.bind {x : Transaction α} {f : α → Transaction β} (hx : NoConflict x)
    (hf : ∀ a, NoConflict (f a)) : NoConflict (x >>= f) := by
  constructor
  intro error h
  rw [bind_error] at h
  rcases h with h | ⟨a, -, h⟩
  · exact hx.never error h
  · exact (hf a).never error h

theorem noConflict_require {condition : Prop} [Decidable condition] {error : ReviewError}
    (herror : isConflict error = false) : NoConflict (require condition error) := by
  constructor
  intro other h
  rw [require_error] at h
  rw [← h.2]
  exact herror

theorem noConflict_throw {error : ReviewError} (herror : isConflict error = false) :
    NoConflict (.error error : Transaction α) := by
  constructor
  intro other h
  cases h
  exact herror

theorem noConflict_mapM {f : β → Transaction α} (hf : ∀ b, NoConflict (f b)) (xs : List β) :
    NoConflict (xs.mapM f) := by
  induction xs with
  | nil => exact noConflict_ok _
  | cons x xs ih =>
    rw [List.mapM_cons]
    exact (hf x).bind fun _ => ih.bind fun _ => noConflict_ok _

theorem noConflict_insert [Row α] {row : α} {rows : Table α} {constraint : String} :
    NoConflict (rows.insert (ReviewError.integrityError constraint) row) := by
  unfold Table.insert
  split
  · exact noConflict_throw (by rfl)
  · exact noConflict_ok _

variable {env : Platform} {db : Database} {draft : WikiPageDraft} {pageId : Uuid}

theorem appendDraftEvent_noConflict {ledger : Table GovernanceLedgerEvent} {eventId : Uuid}
    {event : DraftEvent} : NoConflict (appendDraftEvent ledger eventId event) := by
  apply NoConflict.bind (noConflict_require (by rfl))
  intro _
  split
  · exact (noConflict_require (by rfl)).bind fun _ => noConflict_ok _
  · apply NoConflict.bind
    · unfold nextSequence
      split <;> exact (noConflict_require (by rfl)).bind fun _ => noConflict_ok _
    · intro _
      exact noConflict_insert.bind fun _ => noConflict_ok _

theorem compilerMetadataUuid_noConflict {metadata : JsonObject} {key : String} :
    NoConflict (compilerMetadataUuid metadata key) := by
  unfold compilerMetadataUuid
  split
  · split
    · exact noConflict_ok _
    · exact noConflict_throw (by rfl)
  · exact noConflict_throw (by rfl)

theorem compilerScopeId_noConflict {metadata : JsonObject} :
    NoConflict (compilerScopeId metadata) := by
  unfold compilerScopeId
  split
  · exact noConflict_ok _
  · split
    · exact noConflict_ok _
    · exact noConflict_throw (by rfl)
  · exact noConflict_throw (by rfl)

theorem validateCompilerDraftContext_noConflict {page : Option WikiPage} :
    NoConflict (validateCompilerDraftContext env db draft page) := by
  simp only [validateCompilerDraftContext]
  split
  · exact noConflict_ok _
  · apply compilerMetadataUuid_noConflict.bind
    intro sourceId
    split
    · exact noConflict_throw (by rfl)
    · apply compilerScopeId_noConflict.bind
      intro expectedScopeId
      split
      · exact noConflict_throw (by rfl)
      · split
        · exact noConflict_throw (by rfl)
        · iterate 4
            apply (noConflict_require (by rfl)).bind
            intro _
          split
          · exact noConflict_ok _
          · exact noConflict_require (by rfl)

theorem checkCreate_noConflict {overrides : Option JsonObject} :
    NoConflict (checkCreate env db draft overrides) := by
  have hstrip : ∀ value, NoConflict (stripValue value) := by
    intro value
    cases value <;> first | exact noConflict_ok _ | exact noConflict_throw (by rfl)
  have hquery : ∀ value, NoConflict (queryText value) := by
    intro value
    cases value <;> first | exact noConflict_ok _ | exact noConflict_throw (by rfl)
  have hmetadata : NoConflict (createMetadata draft overrides) :=
    (hstrip _).bind fun _ => (hstrip _).bind fun _ => noConflict_ok _
  unfold checkCreate
  apply (noConflict_require (by rfl)).bind
  intro _
  apply hmetadata.bind
  intro metadata
  apply validateCompilerDraftContext_noConflict.bind
  intro _
  apply (noConflict_require (by rfl)).bind
  intro _
  apply (noConflict_require (by rfl)).bind
  intro _
  exact (hquery _).bind fun _ => noConflict_ok _

theorem draftSourceIds_noConflict : NoConflict (draftSourceIds draft) := by
  unfold draftSourceIds
  split
  · exact noConflict_ok _
  · apply NoConflict.bind _ fun _ => noConflict_ok _
    apply noConflict_mapM
    intro raw
    unfold parseSourceId
    split
    · split
      · exact noConflict_ok _
      · exact noConflict_throw (by rfl)
    · exact noConflict_throw (by rfl)
  · exact noConflict_throw (by rfl)

theorem addRevision_noConflict {revisions : List WikiPageRevision}
    {revision : WikiPageRevision} : NoConflict (addRevision revisions revision) :=
  (noConflict_require (by rfl)).bind fun _ => noConflict_ok _

theorem writePage_noConflict {write : PageWrite} :
    NoConflict (writePage env db pageId write) := by
  unfold writePage
  apply (noConflict_require (by rfl)).bind
  intro _
  apply (noConflict_require (by rfl)).bind
  intro _
  split
  · unfold updatePage
    apply (noConflict_require (by rfl)).bind
    intro _
    split
    · exact noConflict_ok _
    · exact addRevision_noConflict.bind fun _ => noConflict_ok _
  · split
    · unfold insertPage
      exact noConflict_insert.bind fun _ =>
        addRevision_noConflict.bind fun _ => noConflict_ok _
    · exact noConflict_ok _

theorem applyCreate_noConflict {slug title contentMd summary scopeType : String}
    {knowledgeTypeSlugs : List String} {sourceIds : List Uuid} {scopeId : Option Uuid}
    {language : Option String} :
    NoConflict (applyCreate env db pageId slug title contentMd summary knowledgeTypeSlugs
      sourceIds scopeType scopeId language) := by
  apply writePage_noConflict.bind
  rintro ⟨outcome, after⟩
  dsimp only
  split
  · exact noConflict_ok _
  · exact noConflict_throw (by rfl)

theorem enrichRevision_noConflict {revisions : List WikiPageRevision} {page : WikiPage}
    {draftId reviewerId : Uuid} {reviewerNote : Option String} :
    NoConflict (enrichRevision revisions page draftId reviewerId reviewerNote) :=
  (noConflict_require (by rfl)).bind fun _ => noConflict_ok _

theorem approveCreate_conflict {finalContent : String} {reviewerId : Uuid}
    {reviewerNote : Option String} {overrides : Option JsonObject} {error : ReviewError}
    (h : approveCreate env db draft finalContent reviewerId reviewerNote overrides pageId =
      .error error) (hconflict : isConflict error = true) :
    ∃ metadata scopeType found, checkCreate env db draft overrides = .ok (metadata, scopeType) ∧
      getPageBySlug env db.pages metadata.slug none scopeType metadata.scopeId
        (some metadata.language) = some found ∧
      error = .createDraftSlugConflict metadata.slug scopeType metadata.scopeId := by
  unfold approveCreate at h
  rw [bind_error] at h
  rcases h with h | ⟨⟨metadata, scopeType⟩, hcheck, h⟩
  · rw [checkCreate_noConflict.never _ h] at hconflict
    cases hconflict
  · dsimp only at h
    split at h
    · rename_i found hfound
      rw [throw_error] at h
      exact ⟨metadata, scopeType, found, hcheck, hfound, h.symm⟩
    · have hreported : isConflict error = false := by
        refine NoConflict.never ?_ _ h
        apply draftSourceIds_noConflict.bind
        intro sourceIds
        apply applyCreate_noConflict.bind
        intro created
        apply enrichRevision_noConflict.bind
        intro revisions
        exact noConflict_ok _
      rw [hreported] at hconflict
      cases hconflict

/-- A conflict is reported while the page is written, not by the ledger. -/
theorem approveWikiDraft_error {approval : Approval} {eventId : Uuid} {now : Timestamp}
    {error : ReviewError} (hget : db.drafts.get draft.id = some draft)
    (h : approveWikiDraft env db draft.id approval pageId eventId now = .error error)
    (hconflict : isConflict error = true) :
    draft.status = .pending ∧ materialise env db draft approval pageId = .error error := by
  have hfetch : fetch "wiki_page_drafts" db.drafts draft.id = .ok draft := fetch_ok.mpr hget
  simp only [approveWikiDraft, hfetch, ok_bind, bind_error, require_error, require_ok,
    pure_ne_error, and_false, exists_false, or_false] at h
  rcases h with ⟨-, rfl⟩ | ⟨-, hpending, h | ⟨⟨page, written⟩, -, h⟩⟩
  · cases hconflict
  · exact ⟨hpending, h⟩
  · rw [appendDraftEvent_noConflict.never _ h] at hconflict
    cases hconflict

end Errors

end Cygnus.Review
