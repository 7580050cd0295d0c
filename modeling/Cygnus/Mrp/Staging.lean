import Cygnus.Mrp.Commit
import Cygnus.Review.LifecycleLaws

/-! Staging across review: what a compiler draft is staged for, what a review leaves of it, and
when staging the same result again finds it. -/

namespace Cygnus.Mrp

open Wiki Review Governance Text Result

/-- What the docstring allows one draft for. -/
structure Target where
  sourceId : Uuid
  generation : Nat
  scopeType : String
  scopeId : Option Uuid
  language : String
  slug : String
  deriving DecidableEq

/-- The draft's documents name this target. -/
def Target.Of (target : Target) (draft : WikiPageDraft) : Prop :=
  let metadata := draft.sourceMetadata.getD []
  (Json.lookup metadata "origin").asStr = some "compiler" ∧
    (Json.lookup metadata "compiler_source_id").asStr = some target.sourceId.text ∧
    (Json.lookup metadata "compiler_dispatch_generation").asInt = some (target.generation : Int) ∧
    (Json.lookup metadata "compiler_scope_type").asStr = some target.scopeType ∧
    (Json.lookup metadata "compiler_scope_id").asStr = target.scopeId.map Uuid.text ∧
    (Json.lookup metadata "compiler_language").asStr = some target.language ∧
    (Json.lookup (draft.suggestedMetadata.getD []) "slug").asStr = some target.slug

instance (target : Target) (draft : WikiPageDraft) : Decidable (target.Of draft) :=
  inferInstanceAs (Decidable (_ ∧ _))

theorem Target.Of.unique {target target' : Target} {draft : WikiPageDraft} (h : target.Of draft)
    (h' : target'.Of draft) : target = target' := by
  obtain ⟨-, hsource, hgeneration, hscopeType, hscopeId, hlanguage, hslug⟩ := h
  obtain ⟨-, hsource', hgeneration', hscopeType', hscopeId', hlanguage', hslug'⟩ := h'
  rw [hsource, Option.some.injEq] at hsource'
  rw [hgeneration, Option.some.injEq, Int.natCast_inj] at hgeneration'
  rw [hscopeType, Option.some.injEq] at hscopeType'
  rw [hscopeId] at hscopeId'
  rw [hlanguage, Option.some.injEq] at hlanguage'
  rw [hslug, Option.some.injEq] at hslug'
  cases target
  cases target'
  simp only [Target.mk.injEq]
  exact ⟨Uuid.text_injective hsource', hgeneration', hscopeType',
    Option.map_injective Uuid.text_injective hscopeId', hlanguage', hslug'⟩

/-- One call of `stage_compilation_wiki_draft`, with the scope rows it finds. -/
structure Staging where
  source : Source
  page : Option WikiPage
  unit : Compilation
  departments : List SourceDepartment

/-- A result of the same bytes for the same page at the same version. -/
structure Staging.Repeats (staging earlier : Staging) : Prop where
  unit : staging.unit = earlier.unit
  version : staging.page.map WikiPage.version = earlier.page.map WikiPage.version

deriving instance DecidableEq for Compilation

instance (staging earlier : Staging) : Decidable (staging.Repeats earlier) :=
  decidable_of_iff (staging.unit = earlier.unit ∧
    staging.page.map WikiPage.version = earlier.page.map WikiPage.version)
    ⟨fun h => ⟨h.1, h.2⟩, fun h => ⟨h.unit, h.version⟩⟩

def Compilation.ktSlugs (unit : Compilation) (page : Option WikiPage) : List String :=
  (unit.knowledgeTypeSlug.filter (· ≠ "")).elim (page.elim [] WikiPage.knowledgeTypeSlugs)
    fun slug => [slug]

/-- What the draft also holds of the page and of the source is what it was. -/
structure Staging.SameContext (staging earlier : Staging) : Prop where
  sourceIds : compilerSourceIds staging.page staging.source.id =
    compilerSourceIds earlier.page earlier.source.id
  ktSlugs : staging.unit.ktSlugs staging.page = earlier.unit.ktSlugs earlier.page
  scopeTargets : resolvedSourceScopeTargets staging.departments staging.source =
    resolvedSourceScopeTargets earlier.departments earlier.source

instance (staging earlier : Staging) : Decidable (staging.SameContext earlier) :=
  decidable_of_iff
    (compilerSourceIds staging.page staging.source.id =
        compilerSourceIds earlier.page earlier.source.id ∧
      staging.unit.ktSlugs staging.page = earlier.unit.ktSlugs earlier.page ∧
      resolvedSourceScopeTargets staging.departments staging.source =
        resolvedSourceScopeTargets earlier.departments earlier.source)
    ⟨fun h => ⟨h.1, h.2.1, h.2.2⟩, fun h => ⟨h.sourceIds, h.ktSlugs, h.scopeTargets⟩⟩

section Row

variable (env : Platform) (stage : Stage)

def Staging.slug (staging : Staging) : String := env.lower (strip staging.unit.slug)

def Staging.language (staging : Staging) : String := env.lower (strip staging.unit.language)

def Staging.target (staging : Staging) : Target :=
  { sourceId := staging.source.id, generation := staging.source.dispatchGeneration,
    scopeType := staging.unit.scopeType, scopeId := staging.unit.scopeId,
    language := staging.language env, slug := staging.slug env }

def Target.identity (target : Target) (pageId : Option Uuid) : String :=
  compilerDraftIdentity target.sourceId target.generation target.scopeType target.scopeId
    target.language target.slug pageId

def Staging.identity (staging : Staging) : String :=
  (staging.target env).identity (staging.page.map WikiPage.id)

def Staging.draftId (staging : Staging) : Uuid := stage.uuid5 ("cygnus:" ++ staging.identity env)

def Staging.row (staging : Staging) : NewDraft :=
  compilationDraft stage staging.departments staging.source staging.page staging.unit
    (staging.draftId env stage) (staging.identity env) (staging.slug env) (staging.language env)

/-- Nothing that must not be blank is blank. -/
structure Staging.Valid (staging : Staging) : Prop where
  slug : staging.slug env ≠ ""
  language : staging.language env ≠ ""
  content : strip staging.unit.contentMd ≠ ""

variable {env stage} {staging earlier : Staging}

theorem Staging.identity_eq (htarget : staging.target env = earlier.target env)
    (hpage : staging.page.map WikiPage.id = earlier.page.map WikiPage.id) :
    staging.identity env = earlier.identity env := by
  rw [identity, identity, htarget, hpage]

theorem Staging.draftId_eq (htarget : staging.target env = earlier.target env)
    (hpage : staging.page.map WikiPage.id = earlier.page.map WikiPage.id) :
    staging.draftId env stage = earlier.draftId env stage := by
  rw [draftId, draftId, identity_eq htarget hpage]

/-- A repeated staging asks for the row that the earlier one has made. -/
theorem Staging.row_eq (htarget : staging.target env = earlier.target env)
    (hpage : staging.page.map WikiPage.id = earlier.page.map WikiPage.id)
    (hrepeats : staging.Repeats earlier) (hcontext : staging.SameContext earlier) :
    staging.row env stage = earlier.row env stage := by
  have hsource : staging.source.id = earlier.source.id := congrArg Target.sourceId htarget
  have hgeneration : staging.source.dispatchGeneration = earlier.source.dispatchGeneration :=
    congrArg Target.generation htarget
  have hslug : staging.slug env = earlier.slug env := congrArg Target.slug htarget
  have hlanguage : staging.language env = earlier.language env := congrArg Target.language htarget
  have hsome : staging.page.isSome = earlier.page.isSome := by
    rw [← Option.isSome_map (f := WikiPage.id), hpage, Option.isSome_map]
  have hversion : staging.page.map (fun page => (page.version : Int)) =
      earlier.page.map fun page => (page.version : Int) := by
    have := congrArg (Option.map fun version : Nat => (version : Int)) hrepeats.version
    rwa [Option.map_map, Option.map_map] at this
  have hkt := hcontext.ktSlugs
  have hids := hcontext.sourceIds
  unfold Compilation.ktSlugs at hkt
  rw [hsource] at hids
  simp only [row, compilationDraft, draftId_eq htarget hpage, identity_eq htarget hpage, hslug,
    hlanguage, hsome, hversion, hpage, hsource, hgeneration, hrepeats.unit,
    hcontext.scopeTargets, hids]
  rw [hrepeats.unit] at hkt
  simp only [hkt]

theorem Staging.target_row (staging : Staging) :
    (staging.target env).Of (staging.row env stage).row := by
  refine ⟨rfl, rfl, rfl, rfl, ?_, rfl, rfl⟩
  change (Json.ofOption (fun id => Json.str id.text) staging.unit.scopeId).asStr =
    staging.unit.scopeId.map Uuid.text
  cases staging.unit.scopeId <;> rfl

/-- The documents of a compiler draft equal themselves, as Python compares them. -/
theorem Staging.isExactReplay_row (staging : Staging) {draft : WikiPageDraft}
    (hpage : draft.pageId = (staging.row env stage).pageId)
    (hkind : draft.draftKind = (staging.row env stage).draftKind)
    (hbase : draft.baseVersion = (staging.row env stage).baseVersion)
    (hcontent : draft.contentMd = (staging.row env stage).contentMd)
    (hsource : draft.sourceMetadata = (staging.row env stage).sourceMetadata)
    (hsuggested : draft.suggestedMetadata = (staging.row env stage).suggestedMetadata) :
    isExactReplay draft (staging.row env stage) = true := by
  have hstrings : ∀ strings : List String, (Json.list (strings.map Json.str)).DistinctKeys :=
    fun strings => .list fun x hx => by
      obtain ⟨s, -, rfl⟩ := List.mem_map.mp hx
      exact .str s
  have hscope : (Json.ofOption (fun id => .str id.text) staging.unit.scopeId).DistinctKeys := by
    cases staging.unit.scopeId with
    | none => exact .null
    | some id => exact .str _
  have hmetadata : ∀ document, (staging.row env stage).sourceMetadata = some document →
      (Json.object document).DistinctKeys := by
    rintro document hdocument
    rw [← Option.some.inj hdocument]
    refine .object (by simp) ?_
    simp only [List.forall_mem_cons]
    refine ⟨.str _, .str _, .str _, .str _, .int _, .str _, hscope, .str _, hstrings _, hstrings _,
      .object (by simp) ?_, fun _ h => by cases h⟩
    simp only [List.forall_mem_cons]
    exact ⟨.str _, .str _, hstrings _, .str _, fun _ h => by cases h⟩
  have hproposed : ∀ document, (staging.row env stage).suggestedMetadata = some document →
      (Json.object document).DistinctKeys := by
    rintro document hdocument
    rw [← Option.some.inj hdocument]
    refine .object (by simp) ?_
    simp only [List.forall_mem_cons]
    exact ⟨.str _, .str _, .str _, .str _, hstrings _, .str _, hscope, .str _,
      fun _ h => by cases h⟩
  have hsame : ∀ document : Option JsonObject,
      (∀ fields, document = some fields → (Json.object fields).DistinctKeys) →
        document.any (differs · document) = false := by
    intro document hdistinct
    cases document with
    | none => rfl
    | some fields => simp [differs, (hdistinct fields rfl).eq_self]
  rw [isExactReplay, hpage, hkind, hbase, hcontent, hsource, hsuggested,
    hsame _ hmetadata, hsame _ hproposed]
  simp

end Row

section Stage

variable {env : Platform} {stage : Stage} {db db' : Database} {staging : Staging}

def Staging.perform (env : Platform) (stage : Stage) (staging : Staging) (db : Database) :
    Except StagingError (Uuid × Bool × Database) :=
  stageCompilationWikiDraft env stage db staging.source staging.page staging.unit

theorem Staging.perform_replay {draft : WikiPageDraft} (hvalid : staging.Valid env)
    (hdepartments : staging.departments = db.sourceDepartments)
    (hget : db.drafts.get (staging.draftId env stage) = some draft)
    (hreplay : isExactReplay draft (staging.row env stage) = true) :
    staging.perform env stage db = .ok (staging.draftId env stage, false, db) := by
  obtain ⟨source, page, unit, departments⟩ := staging
  subst hdepartments
  simp only [perform, stageCompilationWikiDraft, bind_ok, require_ok]
  refine ⟨(), hvalid.slug, (), hvalid.language, (), hvalid.content, ?_⟩
  split
  · rename_i existing hexisting
    obtain rfl : draft = existing := Option.some.inj (hget.symm.trans hexisting)
    simp only [bind_ok, require_ok, pure_ok]
    exact ⟨(), hreplay, rfl⟩
  · rename_i hnone
    cases hget.symm.trans hnone

theorem Staging.perform_conflict {draft : WikiPageDraft} (hvalid : staging.Valid env)
    (hdepartments : staging.departments = db.sourceDepartments)
    (hget : db.drafts.get (staging.draftId env stage) = some draft)
    (hreplay : isExactReplay draft (staging.row env stage) = false) :
    staging.perform env stage db = .error (.compilationDraftConflict
      s!"compiler retry conflicts with the existing durable draft for {staging.identity env}") := by
  obtain ⟨source, page, unit, departments⟩ := staging
  subst hdepartments
  simp only [perform, stageCompilationWikiDraft, bind_error, require_ok]
  refine .inr ⟨(), hvalid.slug, .inr ⟨(), hvalid.language, .inr ⟨(), hvalid.content, ?_⟩⟩⟩
  split
  · rename_i existing hexisting
    obtain rfl : draft = existing := Option.some.inj (hget.symm.trans hexisting)
    simp only [bind_error, require_error]
    refine .inl ⟨?_, rfl⟩
    rw [Bool.not_eq_true]
    exact hreplay
  · rename_i hnone
    cases hget.symm.trans hnone

/-- A call that returns has found its draft or has made it. -/
theorem Staging.perform_ok {draftId : Uuid} {isNew : Bool}
    (h : staging.perform env stage db = .ok (draftId, isNew, db'))
    (hdepartments : staging.departments = db.sourceDepartments) :
    staging.Valid env ∧ draftId = staging.draftId env stage ∧
      (isNew = false ∧ db' = db ∨
        isNew = true ∧ db.drafts.get draftId = none ∧
          db'.drafts = db.drafts ++ [(staging.row env stage).row] ∧
          db'.sourceDepartments = db.sourceDepartments) := by
  obtain ⟨source, page, unit, departments⟩ := staging
  subst hdepartments
  simp only [perform, stageCompilationWikiDraft, bind_ok, require_ok] at h
  obtain ⟨_, hslug, _, hlanguage, _, hcontent, h⟩ := h
  refine ⟨⟨hslug, hlanguage, hcontent⟩, ?_⟩
  split at h
  · simp only [bind_ok, pure_ok, Prod.mk.injEq] at h
    obtain ⟨_, -, rfl, rfl, rfl⟩ := h
    exact ⟨rfl, .inl ⟨rfl, rfl⟩⟩
  · rename_i hnone
    simp only [bind_ok, pure_ok, Prod.mk.injEq, mapError_ok] at h
    obtain ⟨after, hcreate, rfl, rfl, rfl⟩ := h
    refine ⟨rfl, .inr ⟨rfl, hnone, ?_⟩⟩
    simp only [createWikiDraft, bind_ok] at hcreate
    obtain ⟨_, -, _, -, drafts, hinsert, hcreate⟩ := hcreate
    obtain ⟨-, rfl⟩ := Table.insert_ok hinsert
    -- a compiler draft is not submitted when it is made
    simp only [compilationDraft, Bool.false_eq_true, if_false, bind_ok, pure_ok] at hcreate
    obtain ⟨_, -, rfl⟩ := hcreate
    exact ⟨rfl, rfl⟩

end Stage

end Cygnus.Mrp
