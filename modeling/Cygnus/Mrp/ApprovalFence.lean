import Cygnus.History.Approvals
import Cygnus.Mrp.StagingRuns

/-! Approvals of compiler drafts next to changes of their source. The fence of an approval is an
unlocked read of the source; what orders it against a change is the row of the draft, which a change
may withdraw, and the state the ledger has for it. The advisory lock on the slug is not modelled
here: it only takes interleavings away. -/

namespace Cygnus.Mrp.Fence

open Wiki Review Governance Text Result Machine

section Truth

/-- What a compiler draft is bound to. -/
structure SourceTruth where
  generation : Int
  scopeTargets : List String
  deriving DecidableEq

def IsCompiler (draft : WikiPageDraft) : Prop :=
  (Json.lookup (draft.sourceMetadata.getD []) "origin").asStr = some "compiler"

instance (draft : WikiPageDraft) : Decidable (IsCompiler draft) :=
  inferInstanceAs (Decidable (_ = _))

def recorded (draft : WikiPageDraft) : Option SourceTruth := do
  let metadata := draft.sourceMetadata.getD []
  let generation ← (Json.lookup metadata "compiler_dispatch_generation").asInt
  let scopeTargets ← nonemptyStrings (Json.lookup metadata "compiler_resolved_scope_targets")
  return ⟨generation, scopeTargets⟩

def compilerSource (db : Database) (draft : WikiPageDraft) : Option Source :=
  ((compilerMetadataUuid (draft.sourceMetadata.getD []) "compiler_source_id").toOption).bind
    db.sources.get

def sourceTruth (db : Database) (draft : WikiPageDraft) : Option SourceTruth :=
  (compilerSource db draft).map fun source =>
    ⟨source.dispatchGeneration, resolvedSourceScopeTargets db.sourceDepartments source⟩

/-- The draft records what holds of its source. -/
def UpToDate (db : Database) (draft : WikiPageDraft) : Prop :=
  (recorded draft).isSome ∧ recorded draft = sourceTruth db draft

instance (db : Database) (draft : WikiPageDraft) : Decidable (UpToDate db draft) :=
  inferInstanceAs (Decidable (_ ∧ _))

end Truth

section Change

/-- A transaction that changes a source: its scope, and its generation when a dispatch is recorded. -/
structure SourceChange where
  sourceId : Uuid
  /-- whether a dispatch is recorded, and whether it starts a new generation -/
  dispatch : Option Bool
  /-- the reason with which earlier compiler drafts are withdrawn in the same transaction -/
  invalidation : Option String := none
  scope : Option (String × Option Uuid) := none
  departmentIds : Option (List Uuid) := none
  language : Option String := none

def SourceChange.generation (change : SourceChange) (source : Source) : Nat :=
  match change.dispatch with
  | none => source.dispatchGeneration
  | some true => source.dispatchGeneration + 1
  | some false => if source.dispatchGeneration < 1 then 1 else source.dispatchGeneration

def SourceChange.row (change : SourceChange) (source : Source) : Source :=
  { source with
    dispatchGeneration := change.generation source,
    scopeType := (change.scope.map Prod.fst).getD source.scopeType,
    scopeId := (change.scope.map Prod.snd).getD source.scopeId,
    language := change.language.getD source.language }

def SourceChange.departments (change : SourceChange) (departments : List SourceDepartment) :
    List SourceDepartment :=
  match change.departmentIds with
  | none => departments
  | some ids => departments.filter (·.sourceId ≠ change.sourceId) ++
      ids.map fun id => ⟨change.sourceId, id⟩

def SourceChange.invalidate (change : SourceChange) (source : Source) (eventId : Uuid → Uuid)
    (db : Database) : Transaction Database :=
  match change.invalidation with
  | none => .ok db
  | some reason =>
    invalidateStaleCompilerDrafts db source.id (change.generation source : Nat) reason eventId

def SourceChange.write (change : SourceChange) (source : Source) (db : Database) : Database :=
  { db with
    sources := db.sources.put (change.row source),
    sourceDepartments := change.departments db.sourceDepartments }

def SourceChange.perform (change : SourceChange) (eventId : Uuid → Uuid) (db : Database) :
    Transaction Database := do
  let source ← fetch "sources" db.sources change.sourceId
  let db ← change.invalidate source eventId db
  return change.write source db

/-- The change moves what the draft is bound to. -/
def SourceChange.Moves (change : SourceChange) (db : Database) (draft : WikiPageDraft) : Prop :=
  ∃ source ∈ db.sources.get change.sourceId,
    sourceTruth (change.write source db) draft ≠ sourceTruth db draft

/-- The change starts a new generation and withdraws the open drafts of the earlier ones, of which
this is one. -/
def SourceChange.Fences (change : SourceChange) (db : Database) (draft : WikiPageDraft) : Prop :=
  change.dispatch = some true ∧ change.invalidation.isSome ∧
    ∃ row ∈ staleCompilerDrafts db.drafts change.sourceId, row.id = draft.id

/-- An approval of the draft that has read its source does not notice the change. -/
def SourceChange.Overtakes (change : SourceChange) (db : Database) (draft : WikiPageDraft) : Prop :=
  change.Moves db draft ∧ ¬ change.Fences db draft

instance (change : SourceChange) (db : Database) (draft : WikiPageDraft) :
    Decidable (change.Moves db draft) :=
  inferInstanceAs (Decidable (∃ source ∈ db.sources.get change.sourceId, _))

instance (change : SourceChange) (db : Database) (draft : WikiPageDraft) :
    Decidable (change.Fences db draft) :=
  inferInstanceAs (Decidable (_ ∧ _ ∧ ∃ row ∈ staleCompilerDrafts _ _, _))

instance (change : SourceChange) (db : Database) (draft : WikiPageDraft) :
    Decidable (change.Overtakes db draft) :=
  inferInstanceAs (Decidable (_ ∧ ¬ _))

end Change

section Approve

variable (env : Platform)

/-- An approval that has read its source and has not committed. -/
inductive Fenced
  | edit (checked : Approvals.Checked)
  | create (draft : WikiPageDraft) (approval : Approval) (metadata : CreateMetadata)
      (scopeType : String)

def Fenced.draft : Fenced → WikiPageDraft
  | .edit checked => checked.draft
  | .create draft _ _ _ => draft

def fenceRead (db : Database) (draftId : Uuid) (approval : Approval) : Transaction Fenced := do
  let draft ← fetch "wiki_page_drafts" db.drafts draftId
  require (draft.status = .pending) (.invalidTransition
    "A draft must be explicitly submitted for review before approval.")
  if draft.draftKind = "create" then
    let checked ← checkCreate env db draft approval.metadataOverrides
    return .create draft approval checked.1 checked.2
  else
    let checked ← Approvals.checkEdit env db draftId approval
    return .edit checked

/-- The rest of the approval of a create draft, which updates the row as it then is. -/
def commitCreate (db : Database) (draft : WikiPageDraft) (approval : Approval)
    (metadata : CreateMetadata) (scopeType : String) (pageId eventId : Uuid) (now : Timestamp) :
    Transaction Database :=
  match getPageBySlug env db.pages metadata.slug none scopeType metadata.scopeId
      (some metadata.language) with
  | some _ => throw (.createDraftSlugConflict metadata.slug scopeType metadata.scopeId)
  | none => do
    let sourceIds ← draftSourceIds draft
    let created ← applyCreate env db pageId metadata.slug metadata.title
      (approval.finalContent draft) metadata.summary metadata.knowledgeTypeSlugs sourceIds scopeType
      metadata.scopeId (some metadata.language)
    let revisions ← enrichRevision created.2.revisions created.1 draft.id approval.reviewerId
      approval.reviewerNote
    let event ← appendDraftEvent created.2.ledger eventId
      (approvalEvent env draft approval created.1 now)
    let row ← fetch "wiki_page_drafts" created.2.drafts draft.id
    return { created.2 with
      revisions, ledger := event.2,
      drafts := created.2.drafts.put (approvedDraft row approval created.1 now) }

def Fenced.commit (fenced : Fenced) (db : Database) (pageId eventId : Uuid) (now : Timestamp) :
    Transaction Database :=
  match fenced with
  | .edit checked => Approvals.commit env db checked eventId now
  | .create draft approval metadata scopeType =>
    commitCreate env db draft approval metadata scopeType pageId eventId now

/-- Without another step in between, the two halves are the approval. -/
theorem approveWikiDraft_eq {db : Database} {draft : WikiPageDraft} {approval : Approval}
    {pageId eventId : Uuid} {now : Timestamp} (hdraft : db.drafts.get draft.id = some draft) :
    approveWikiDraft env db draft.id approval pageId eventId now =
      (do let fenced ← fenceRead env db draft.id approval
          fenced.commit env db pageId eventId now) := by
  have hfetch : fetch "wiki_page_drafts" db.drafts draft.id = pure draft := fetch_ok.mpr hdraft
  by_cases hkind : draft.draftKind = "create"
  · simp only [approveWikiDraft, fenceRead, hfetch, materialise, if_pos hkind, approveCreate,
      bind_assoc, pure_bind]
    congr 1
    funext _
    congr 1
    funext checked
    obtain ⟨metadata, scopeType⟩ := checked
    simp only [Fenced.commit, commitCreate]
    cases hpage : getPageBySlug env db.pages metadata.slug none scopeType metadata.scopeId
        (some metadata.language) with
    | some page => rfl
    | none =>
      simp only [bind_assoc, pure_bind]
      congr 1
      funext sourceIds
      cases hcreate : applyCreate env db pageId metadata.slug metadata.title
          (approval.finalContent draft) metadata.summary metadata.knowledgeTypeSlugs sourceIds
          scopeType metadata.scopeId (some metadata.language) with
      | error e => rfl
      | ok created =>
        obtain ⟨page, after⟩ := created
        obtain ⟨outcome, -, hwrite⟩ := applyCreate_ok hcreate
        have hrow : fetch "wiki_page_drafts" after.drafts draft.id = pure draft := by
          rw [(writePage_frame hwrite).drafts]
          exact hfetch
        simp only [ok_bind, pure_bind, hrow]
  · rw [Approvals.approveWikiDraft_eq env hdraft hkind]
    simp only [fenceRead, hfetch, if_neg hkind, pure_bind]
    cases hpending : require (draft.status = .pending) (ReviewError.invalidTransition
        "A draft must be explicitly submitted for review before approval.") with
    | error e => simp only [Approvals.checkEdit, hfetch, pure_bind, hpending]; rfl
    | ok u => simp only [ok_bind, bind_assoc, pure_bind]; rfl

end Approve

section Laws

variable {env : Platform} {db db' : Database} {draft : WikiPageDraft}

theorem recorded_generation {truth : SourceTruth} (h : recorded draft = some truth) :
    (Json.lookup (draft.sourceMetadata.getD []) "compiler_dispatch_generation").asInt =
      some truth.generation := by
  simp only [recorded, Option.bind_eq_bind, Option.bind_eq_some_iff, Option.pure_def,
    Option.some.injEq] at h
  obtain ⟨generation, hgeneration, -, -, rfl⟩ := h
  exact hgeneration

theorem compilerSource_of_text {sourceId : Uuid}
    (h : (Json.lookup (draft.sourceMetadata.getD []) "compiler_source_id").asStr =
      some sourceId.text) : compilerSource db draft = db.sources.get sourceId := by
  have hparsed : compilerMetadataUuid (draft.sourceMetadata.getD []) "compiler_source_id" =
      .ok sourceId := by
    unfold compilerMetadataUuid
    cases hvalue : Json.lookup (draft.sourceMetadata.getD []) "compiler_source_id" with
    | str raw =>
      rw [hvalue] at h
      obtain rfl : raw = sourceId.text := Option.some.inj h
      dsimp only
      rw [Uuid.parse_text]
    | _ =>
      rw [hvalue] at h
      cases h
  rw [compilerSource, hparsed]
  rfl

/-- What the fence reads is what the source is at that time. -/
theorem validateCompilerDraftContext_upToDate {page : Option WikiPage} {u : Unit}
    (h : validateCompilerDraftContext env db draft page = .ok u) (horigin : IsCompiler draft) :
    UpToDate db draft := by
  unfold IsCompiler at horigin
  unfold validateCompilerDraftContext at h
  dsimp only at h
  rw [if_neg (not_not.mpr horigin), bind_ok] at h
  obtain ⟨sourceId, hsourceId, h⟩ := h
  split at h
  · simp at h
  · rename_i generation scopeType language hfence
    simp only [Option.bind_eq_bind, Option.bind_eq_some_iff] at hfence
    obtain ⟨stated, hgeneration, _, -, _, -, hfence⟩ := hfence
    have hstated : stated = generation := by
      split at hfence
      · cases hfence
      · exact congrArg Prod.fst (Option.some.inj hfence)
    subst hstated
    rw [bind_ok] at h
    obtain ⟨scopeId, -, h⟩ := h
    split at h
    · simp at h
    · rename_i scopeTargets hscopeTargets
      split at h
      · simp at h
      · rename_i source hsource
        simp only [bind_ok, require_ok] at h
        obtain ⟨_, hgenerations, _, -, _, htargets, -⟩ := h
        have hrecorded : recorded draft = some ⟨stated, scopeTargets⟩ := by
          unfold recorded
          dsimp only
          rw [hgeneration, hscopeTargets]
          rfl
        refine ⟨by rw [hrecorded]; rfl, ?_⟩
        rw [hrecorded, sourceTruth, compilerSource, hsourceId]
        change _ = Option.map _ (db.sources.get sourceId)
        rw [hsource, Option.map_some, hgenerations, htargets]

theorem fenceRead_ok {draftId : Uuid} {approval : Approval} {fenced : Fenced}
    (h : fenceRead env db draftId approval = .ok fenced) :
    db.drafts.get fenced.draft.id = some fenced.draft ∧ fenced.draft.status = .pending ∧
      (IsCompiler fenced.draft → UpToDate db fenced.draft) := by
  simp only [fenceRead, bind_ok, require_ok] at h
  obtain ⟨draft, hfetch, -, hpending, h⟩ := h
  have hget := fetch_draft hfetch
  split at h
  · simp only [bind_ok, pure_ok, checkCreate] at h
    obtain ⟨checked, ⟨-, -, metadata, -, _, hcontext, -⟩, rfl⟩ := h
    exact ⟨hget, hpending, validateCompilerDraftContext_upToDate hcontext⟩
  · simp only [bind_ok, pure_ok, Approvals.checkEdit] at h
    obtain ⟨checked, ⟨found, hfound, -, -, h⟩, rfl⟩ := h
    rw [hfetch, Except.ok.injEq] at hfound
    subst hfound
    split at h
    · simp at h
    · simp only [bind_ok, pure_ok] at h
      obtain ⟨_, hcontext, -, -, sourceIds, -, rfl⟩ := h
      exact ⟨hget, hpending, validateCompilerDraftContext_upToDate hcontext⟩

/-- A commit appends the approval to the ledger and writes the row as it then is. -/
theorem Fenced.commit_ok {fenced : Fenced} {pageId eventId : Uuid} {now : Timestamp}
    (h : fenced.commit env db pageId eventId now = .ok db') :
    ∃ approval page row event, db.drafts.get fenced.draft.id = some row ∧
      appendDraftEvent db.ledger eventId (approvalEvent env fenced.draft approval page now) =
        .ok (event, db'.ledger) ∧
      db'.drafts = db.drafts.put (approvedDraft row approval page now) ∧
      db'.sources = db.sources ∧ db'.sourceDepartments = db.sourceDepartments := by
  cases fenced with
  | edit checked =>
    simp only [commit, Approvals.commit, bind_ok] at h
    obtain ⟨⟨outcome, written⟩, hwrite, h⟩ := h
    have hframe := writePage_frame hwrite
    dsimp only at h
    split at h
    · simp at h
    · rename_i page hpage
      simp only [bind_ok, pure_ok, fetch_ok] at h
      obtain ⟨⟨event, ledger⟩, happend, row, hrow, rfl⟩ := h
      rw [hframe.drafts] at hrow
      rw [hframe.ledger] at happend
      refine ⟨checked.approval, page, row, event, hrow, happend, ?_, hframe.sources,
        hframe.sourceDepartments⟩
      dsimp only
      rw [hframe.drafts]
  | create draft approval metadata scopeType =>
    simp only [commit, commitCreate] at h
    split at h
    · simp at h
    · simp only [bind_ok, pure_ok, fetch_ok] at h
      obtain ⟨sourceIds, -, ⟨page, written⟩, hcreate, revisions, -, ⟨event, ledger⟩, happend, row,
        hrow, rfl⟩ := h
      obtain ⟨outcome, -, hwrite⟩ := applyCreate_ok hcreate
      have hframe := writePage_frame hwrite
      rw [hframe.drafts] at hrow
      rw [hframe.ledger] at happend
      refine ⟨approval, page, row, event, hrow, happend, ?_, hframe.sources,
        hframe.sourceDepartments⟩
      dsimp only
      rw [hframe.drafts]

/-- The ledger takes a commit only for a draft that is in review, or a second time. -/
theorem Fenced.commit_advances {fenced : Fenced} {pageId eventId : Uuid} {now : Timestamp}
    (hagree : Agreement db.drafts db.ledger)
    (h : fenced.commit env db pageId eventId now = .ok db') :
    ∃ approval page row, db.drafts.get fenced.draft.id = some row ∧
      row.status ∈ [.pending, .approved] ∧
      db'.drafts = db.drafts.put (approvedDraft row approval page now) ∧
      Advances db.drafts db'.drafts db'.ledger := by
  obtain ⟨approval, page, row, event, hrow, happend, hdrafts, -, -⟩ := commit_ok h
  have hid : row.id = fenced.draft.id := Table.get_key hrow
  have hget : db.drafts.get row.id = some row := hid ▸ hrow
  refine ⟨approval, page, row, hrow, ?_⟩
  rw [hdrafts]
  rcases appendDraftEvent_ok happend with ⟨hfind, -, hledger⟩ | happends
  · obtain ⟨hmem, hkey⟩ := findKey_some hfind
    obtain ⟨other, hother, hspent⟩ := hagree.spent event hmem
    rw [hkey] at hspent
    obtain ⟨hsame, happroved⟩ : fenced.draft.id = other.id ∧ other.status = .approved := hspent
    have hother' : event.draftId = fenced.draft.id := (Table.get_key hother).symm.trans hsame.symm
    rw [hother', hrow, Option.some.injEq] at hother
    subst hother
    refine ⟨by rw [happroved]; decide, rfl, ?_⟩
    rw [hledger]
    apply Advances.put hagree hget
    · exact ⟨rfl, .inr ⟨rfl, by rw [happroved]; rfl⟩, le_rfl, fun _ => happroved.symm⟩
    · refine ⟨?_, fun _ _ => rfl, fun _ he => .inl he⟩
      have hfollows := hagree.follows row.id row hget
      rw [happroved] at hfollows
      exact hfollows
  · have hpending : row.status = .pending := by
      have hstate := (hagree.follows _ row hrow).symm.trans happends.from_eq
      cases hs : row.status <;> simp_all [governanceStateForDraftStatus, approvalEvent]
    refine ⟨by rw [hpending]; decide, rfl, ?_⟩
    apply Advances.put hagree hget
    · exact .within (by simp [Decided, hpending]) rfl rfl le_rfl
        (stage_le_of_decided (by simp [Decided, approvedDraft]) _)
    · exact .of_append happends hid.symm rfl ⟨hid.symm, rfl⟩

end Laws

end Cygnus.Mrp.Fence
