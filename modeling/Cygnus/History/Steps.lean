import Cygnus.Data.Machine
import Cygnus.Review.ApprovalLaws
import Cygnus.Wiki.ServiceLaws

/-! Runs of the operations that write wiki pages, each one transaction that is rolled back when it
raises. -/

namespace Cygnus.History

open Wiki Review Text Result

inductive Call
  | writePage (pageId : Uuid) (write : PageWrite)
  | applyCreate (pageId : Uuid) (slug title contentMd summary : String)
      (knowledgeTypeSlugs : List String) (sourceIds : List Uuid) (scopeType : String)
      (scopeId : Option Uuid) (language : Option String)
  | applyUpdate (update : PageUpdate)
  | upsertPage (pageId : Uuid) (slug title contentMd summary : String)
      (knowledgeTypeSlugs : List String) (sourceIds : List Uuid) (scopeType : String)
      (scopeId : Option Uuid) (status language : Option String)
  | regenerateIndex (pageId : Uuid) (orderBy : List WikiPage → List WikiPage) (scopeType : String)
      (scopeId : Option Uuid)
  | appendLog (pageId : Uuid) (ts entry scopeType : String) (scopeId : Option Uuid)
  | directEditPage (pageId editorId : Uuid) (contentMd : String) (changeNote : Option String)
  | rollbackToRevision (pageId : Uuid) (targetVersion : Nat) (actorId : Uuid)
  | approveWikiDraft (draftId : Uuid) (approval : Approval) (pageId eventId : Uuid)
      (now : Timestamp)
  | deletePageCascade (pageId : Uuid) (held : Uuid → Bool)
  | detachSourceFromWiki (sourceId : Uuid) (held : Uuid → Bool)
  /-- Whatever the rest of the system writes to the tables that hold no pages. -/
  | elsewhere (drafts : Table WikiPageDraft) (rounds : List WikiDraftRound)
      (preReviews : List PendingAiPreReview) (branches : Table WikiBranch)
      (ledger : Table GovernanceLedgerEvent) (sources : Table Source)
      (sourceDepartments : List SourceDepartment)

variable (env : Platform)

def perform : Call → Database → Transaction Database
  | .writePage pageId write, db => (writePage env db pageId write).map Prod.snd
  | .applyCreate pageId slug title contentMd summary ktSlugs sourceIds scopeType scopeId language,
    db => (applyCreate env db pageId slug title contentMd summary ktSlugs sourceIds scopeType scopeId
      language).map Prod.snd
  | .applyUpdate update, db => (applyUpdate env db update).map Prod.snd
  | .upsertPage pageId slug title contentMd summary ktSlugs sourceIds scopeType scopeId status
      language, db => (upsertPage env db pageId slug title contentMd summary ktSlugs sourceIds
      scopeType scopeId status language).map Prod.snd
  | .regenerateIndex pageId orderBy scopeType scopeId, db =>
    (regenerateIndex env db pageId orderBy scopeType scopeId).map Prod.snd
  | .appendLog pageId ts entry scopeType scopeId, db =>
    (appendLog env db pageId ts entry scopeType scopeId).map Prod.snd
  | .directEditPage pageId editorId contentMd changeNote, db =>
    directEditPage env db pageId editorId contentMd changeNote
  | .rollbackToRevision pageId targetVersion actorId, db =>
    rollbackToRevision env db pageId targetVersion actorId
  | .approveWikiDraft draftId approval pageId eventId now, db =>
    approveWikiDraft env db draftId approval pageId eventId now
  | .deletePageCascade pageId held, db => deletePageCascade held db pageId
  | .detachSourceFromWiki sourceId held, db => detachSourceFromWiki held db sourceId
  | .elsewhere drafts rounds preReviews branches ledger sources sourceDepartments, db =>
    .ok { db with
      drafts := drafts, rounds := rounds, preReviews := preReviews, branches := branches,
      ledger := ledger, sources := sources, sourceDepartments := sourceDepartments }

/-- A deletion finds no mention of its page to rewrite, and pages are created under a scope type that
is not empty. -/
def Plain (db : Database) : Call → Prop
  | .writePage _ write => write.insertIfMissing → write.scopeType ≠ ""
  | .applyCreate _ _ _ _ _ _ _ scopeType _ _ => scopeType ≠ ""
  | .upsertPage _ _ _ _ _ _ _ scopeType _ _ _ => scopeType ≠ ""
  | .regenerateIndex _ _ scopeType _ => scopeType ≠ ""
  | .appendLog _ _ _ scopeType _ => scopeType ≠ ""
  | .deletePageCascade pageId _ => ∀ deleted ∈ db.pages.get pageId, Unmentioned db deleted
  | _ => True

instance (db : Database) (deleted : WikiPage) : Decidable (Unmentioned db deleted) :=
  inferInstanceAs (Decidable (∀ page ∈ db.pages, page.id ≠ deleted.id → refersTo deleted page →
    mentions deleted.slug page.contentMd = false))

instance (db : Database) : (call : Call) → Decidable (Plain db call)
  | .writePage _ write => inferInstanceAs (Decidable (write.insertIfMissing → write.scopeType ≠ ""))
  | .applyCreate _ _ _ _ _ _ _ scopeType _ _ => inferInstanceAs (Decidable (scopeType ≠ ""))
  | .upsertPage _ _ _ _ _ _ _ scopeType _ _ _ => inferInstanceAs (Decidable (scopeType ≠ ""))
  | .regenerateIndex _ _ scopeType _ => inferInstanceAs (Decidable (scopeType ≠ ""))
  | .appendLog _ _ _ scopeType _ => inferInstanceAs (Decidable (scopeType ≠ ""))
  | .deletePageCascade pageId _ =>
    inferInstanceAs (Decidable (∀ deleted ∈ db.pages.get pageId, Unmentioned db deleted))
  | .applyUpdate _ => isTrue trivial
  | .directEditPage _ _ _ _ => isTrue trivial
  | .rollbackToRevision _ _ _ => isTrue trivial
  | .approveWikiDraft _ _ _ _ _ => isTrue trivial
  | .detachSourceFromWiki _ _ => isTrue trivial
  | .elsewhere _ _ _ _ _ _ _ => isTrue trivial

variable {env} {db db' : Database} {page : WikiPage} {pageId : Uuid}

/-- The scope type of a create draft falls back to the global one when it is empty. -/
theorem checkCreate_scopeType {draft : WikiPageDraft} {overrides : Option JsonObject}
    {metadata : CreateMetadata} {scopeType : String}
    (h : checkCreate env db draft overrides = .ok (metadata, scopeType)) : scopeType ≠ "" := by
  simp only [checkCreate, bind_ok, pure_ok, Prod.mk.injEq] at h
  obtain ⟨-, -, found, hmetadata, -, -, -, -, -, -, scope, hscope, rfl, rfl⟩ := h
  simp only [createMetadata, bind_ok, pure_ok] at hmetadata
  obtain ⟨slug, -, title, -, rfl⟩ := hmetadata
  dsimp only [Json.orElse] at hscope
  split at hscope
  · rename_i htruthy
    cases hvalue : Json.lookup (draft.suggestedMetadata.getD []) "scope_type" <;>
      rw [hvalue] at hscope htruthy <;> cases hscope
    simpa [Json.truthy] using htruthy
  · cases hscope
    decide

theorem enrichRevision_history {revisions : List WikiPageRevision} {draftId reviewerId : Uuid}
    {note : Option String} (h : enrichRevision db.revisions page draftId reviewerId note = .ok revisions)
    (id : Uuid) : history { db with revisions := revisions } id = history db id := by
  simp only [enrichRevision, bind_ok, pure_ok] at h
  obtain ⟨-, -, rfl⟩ := h
  refine history_map rfl ?_ ?_ ?_ id <;> intro revision <;> split <;> rfl

theorem materialise_effect {draft : WikiPageDraft} {approval : Approval} (hlower : LawfulLower env)
    (hwf : WellFormed env db) (h : materialise env db draft approval pageId = .ok (page, db')) :
    Effect env db db' := by
  unfold materialise at h
  split at h
  · obtain ⟨metadata, scopeType, sourceIds, created, revisions, hcheck, -, -, hcreate, henrich, rfl⟩ :=
      approveCreate_ok h
    have heffect := applyCreate_effect hlower hwf (checkCreate_scopeType hcheck) hcreate
    exact heffect.congr rfl rfl fun id => enrichRevision_history henrich id
  · obtain ⟨target, sourceIds, outcome, -, -, -, hwrite, -⟩ := approveEdit_ok h
    exact writePage_effect_existing hwf rfl hwrite

theorem perform_effect {call : Call} (hlower : LawfulLower env) (hs : Stored env db)
    (hplain : Plain db call) (h : perform env call db = .ok db') : Effect env db db' := by
  have hwf := hs.wellFormed
  cases call with
  | writePage pageId write =>
    obtain ⟨⟨outcome, after⟩, hwrite, rfl⟩ := map_ok.mp h
    exact writePage_effect hlower hwf hplain hwrite
  | applyCreate pageId slug title contentMd summary ktSlugs sourceIds scopeType scopeId language =>
    obtain ⟨⟨page, after⟩, hcreate, rfl⟩ := map_ok.mp h
    exact applyCreate_effect hlower hwf hplain hcreate
  | applyUpdate update =>
    obtain ⟨⟨found, after⟩, hupdate, rfl⟩ := map_ok.mp h
    obtain ⟨outcome, hwrite, -⟩ := applyUpdate_ok hupdate
    exact writePage_effect_existing hwf rfl hwrite
  | upsertPage pageId slug title contentMd summary ktSlugs sourceIds scopeType scopeId status
      language =>
    obtain ⟨⟨page, after⟩, hupsert, rfl⟩ := map_ok.mp h
    exact upsertPage_effect hlower hwf hplain hupsert
  | regenerateIndex pageId orderBy scopeType scopeId =>
    obtain ⟨⟨page, after⟩, hindex, rfl⟩ := map_ok.mp h
    exact regenerateIndex_effect hlower hwf hplain hindex
  | appendLog pageId ts entry scopeType scopeId =>
    obtain ⟨⟨page, after⟩, hlog, rfl⟩ := map_ok.mp h
    exact appendLog_effect hlower hwf hplain hlog
  | directEditPage pageId editorId contentMd changeNote =>
    obtain ⟨page, outcome, -, hwrite⟩ := directEditPage_ok h
    exact writePage_effect_existing hwf rfl hwrite
  | rollbackToRevision pageId targetVersion actorId =>
    obtain ⟨page, revision, outcome, -, -, -, -, hwrite⟩ := rollbackToRevision_ok h
    exact writePage_effect_existing hwf rfl hwrite
  | approveWikiDraft draftId approval pageId eventId now =>
    obtain ⟨draft, page, written, row, ledger, -, -, hmaterialise, -, rfl⟩ := approveWikiDraft_ok h
    exact (materialise_effect hlower hwf hmaterialise).congr rfl rfl fun _ => rfl
  | deletePageCascade pageId held => exact deletePageCascade_effect hplain h
  | detachSourceFromWiki sourceId held => exact detachSourceFromWiki_effect hwf.keyed h
  | elsewhere drafts rounds preReviews branches ledger sources sourceDepartments =>
    cases h
    exact .retains _ _ (.of_pages rfl (fun _ => rfl) rfl)

end Cygnus.History
