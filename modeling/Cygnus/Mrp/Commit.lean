import Cygnus.Mrp.Completeness
import Cygnus.Review.Contributions

/-! The commit phase of the compiler: every written page becomes a draft for review in each scope of
its source, or nothing does. -/

namespace Cygnus.Mrp

open Wiki Review Text Result Sequence

inductive StagingError
  | review (error : ReviewError)
  | compilationDraftConflict (message : String)

section Staging

/-- What `stage_compilation_wiki_draft` takes from its surroundings: the name-based identifiers of
`uuid5`, the identifiers of new ledger rows, and the employee who contributed the source. -/
structure Stage where
  uuid5 : String → Uuid
  eventId : Uuid → Uuid
  contributedById : Option Uuid

def compilerDraftIdentity (sourceId : Uuid) (generation : Nat) (scopeType : String)
    (scopeId : Option Uuid) (language slug : String) (pageId : Option Uuid) : String :=
  ":".intercalate ["compiler-draft", sourceId.text, toString generation, scopeType,
    scopeId.elim "global" Uuid.text, language, slug, pageId.elim "create" Uuid.text]

def compilerSourceIds (page : Option WikiPage) (sourceId : Uuid) : List String :=
  let sourceIds := page.elim [] fun page => page.sourceIds.map Uuid.text
  if sourceId.text ∈ sourceIds then sourceIds else sourceIds ++ [sourceId.text]

/-- The arguments of `stage_compilation_wiki_draft` besides the source and the page. -/
structure Compilation where
  slug : String
  title : String
  pageType : String
  contentMd : String
  summary : String
  knowledgeTypeSlug : Option String
  scopeType : String
  scopeId : Option Uuid
  language : String
  compiler : String

variable (env : Platform) (stage : Stage)

/-- The row of a compiler draft, with its two metadata documents. -/
def compilationDraft (departments : List SourceDepartment) (source : Source) (page : Option WikiPage)
    (unit : Compilation) (draftId : Uuid) (identity slug language : String) : NewDraft :=
  let ktSlugs := (unit.knowledgeTypeSlug.filter (· ≠ "")).elim
    (page.elim [] WikiPage.knowledgeTypeSlugs) fun slug => [slug]
  let proposed : JsonObject :=
    [("title", .str (strip unit.title)), ("summary", .str (strip unit.summary)),
      ("knowledge_type_slugs", .list (ktSlugs.map Json.str)), ("language", .str language)]
  { draftId := draftId, pageId := page.map WikiPage.id, authorId := stage.contributedById,
    contentMd := strip unit.contentMd, source := "compiler",
    sourceMetadata := some
      [("origin", .str "compiler"), ("compiler", .str unit.compiler),
        ("compilation_identity", .str identity), ("compiler_source_id", .str source.id.text),
        ("compiler_dispatch_generation", .int source.dispatchGeneration),
        ("compiler_scope_type", .str unit.scopeType),
        ("compiler_scope_id", Json.ofOption (fun id => .str id.text) unit.scopeId),
        ("compiler_language", .str language),
        ("source_ids", .list ((compilerSourceIds page source.id).map Json.str)),
        ("compiler_resolved_scope_targets",
          .list ((resolvedSourceScopeTargets departments source).map Json.str)),
        ("proposed_metadata", .object proposed)],
    baseVersion := page.map fun page => page.version,
    draftKind := if page.isSome then "edit" else "create",
    suggestedMetadata := some
      [("slug", .str slug), ("title", .str (strip unit.title)),
        ("summary", .str (strip unit.summary)),
        ("page_type", .str (if strip unit.pageType = "" then "concept" else strip unit.pageType)),
        ("knowledge_type_slugs", .list (ktSlugs.map Json.str)),
        ("scope_type", .str unit.scopeType),
        ("scope_id", Json.ofOption (fun id => .str id.text) unit.scopeId),
        ("language", .str language)],
    submitForReview := false }

def isExactReplay (existing : WikiPageDraft) (new : NewDraft) : Bool :=
  existing.pageId = new.pageId && existing.draftKind = new.draftKind &&
    existing.baseVersion = new.baseVersion && existing.contentMd = new.contentMd &&
    !new.sourceMetadata.any (differs · existing.sourceMetadata) &&
    !new.suggestedMetadata.any (differs · existing.suggestedMetadata)

/-- The identifier of the draft, and whether it is new. -/
def stageCompilationWikiDraft (db : Database) (source : Source) (page : Option WikiPage)
    (unit : Compilation) : Except StagingError (Uuid × Bool × Database) := do
  let slug := env.lower (strip unit.slug)
  require (slug ≠ "") (.review (.valueError "compiler draft slug must not be blank"))
  let language := env.lower (strip unit.language)
  require (language ≠ "") (.review (.valueError "compiler draft language must not be blank"))
  require (strip unit.contentMd ≠ "")
    (.review (.valueError "compiler draft content must not be blank"))
  let identity := compilerDraftIdentity source.id source.dispatchGeneration unit.scopeType
    unit.scopeId language slug (page.map WikiPage.id)
  let draftId := stage.uuid5 ("cygnus:" ++ identity)
  let new := compilationDraft stage db.sourceDepartments source page unit draftId identity slug
    language
  match db.drafts.get draftId with
  | some existing =>
    require (isExactReplay existing new) (.compilationDraftConflict
      s!"compiler retry conflicts with the existing durable draft for {identity}")
    return (draftId, false, db)
  | none =>
    let db ← (createWikiDraft env db new (stage.eventId draftId) 0).mapError StagingError.review
    return (draftId, true, db)

end Staging

section Merging

/-- The language model of `merge_page_content`: a prompt's answer, or none where the call fails or
times out. -/
abbrev Generate := String → Option String

def mergePrompt (existingContent newContent slug : String) : String :=
  "Merge these two versions of wiki page `" ++ slug ++ "`:\n\n## EXISTING VERSION\n\n" ++
    existingContent ++ "\n\n---\n\n## INCOMING VERSION\n\n" ++ newContent ++
    "\n\n---\n\nProduce the merged page now. Return ONLY the markdown content."

/-- `BODY_SHRINK_THRESHOLD` is seven tenths. -/
def mergePageContent (generate : Generate) (existingContent newContent slug : String) : String :=
  if existingContent = "" ∨ (strip existingContent).length < 50 then newContent
  else if strip existingContent = strip newContent then newContent
  else match generate (mergePrompt existingContent newContent slug) with
    | none => newContent
    | some raw =>
      let longest := max existingContent.length newContent.length
      if (strip raw).length < longest * 7 / 10 then newContent else strip raw

end Merging

section Phase

structure SourceCompilationPlan where
  planJson : JsonObject
  status : String

structure CommitState where
  db : Database
  plan : Option SourceCompilationPlan

/-- A page result with the draft it became in one scope. -/
structure StagedDraft where
  result : PageWriteResult
  draftId : Uuid

structure CommitReport where
  staged : List StagedDraft
  draftsCreated : Nat
  editDraftsCreated : Nat
  draftsReplayed : Nat

/-- What the loop over scopes and results has done so far. -/
structure Progress where
  db : Database
  staged : List StagedDraft := []
  failures : List JsonObject := []
  created : Nat := 0
  edited : Nat := 0
  replayed : Nat := 0

variable (env : Platform) (py : Python) (stage : Stage)

def supportedSourceLanguages : List String := ["en", "zh"]

def resolveSourceLanguage (source : Source) : Except CompileError String := do
  if source.language = "" then return "en"
  let normalized := env.lower (strip source.language)
  require (normalized ≠ "") (.sourceLanguage "language is required and must be one of: en, zh")
  require (normalized.length ≤ 10)
    (.sourceLanguage s!"language '{normalized}' is too long (max 10 characters)")
  require (normalized ∈ supportedSourceLanguages)
    (.sourceLanguage s!"language '{normalized}' is not supported; must be one of: en, zh")
  return normalized

/-- The scopes of a source row, given its department links in order. -/
def wikiScopes (departmentIds : List Uuid) (source : Source) :
    Except CompileError (List (String × Option Uuid)) := do
  if source.scopeType = "department" then
    match source.scopeId with
    | none => throw (.sourceScope s!"source_id={source.id.text} has department scope without scope_id")
    | some scopeId =>
      require (scopeId ∈ departmentIds) (.sourceScope
        s!"source_id={source.id.text} department scope is missing its SourceDepartment link")
      return [("department", some scopeId)]
  else if source.scopeType = "project" then
    match source.scopeId with
    | none => throw (.sourceScope s!"source_id={source.id.text} has project scope without scope_id")
    | some scopeId => return [("project", some scopeId)]
  else
    require (source.scopeType = "global" ∧ source.scopeId = none) (.sourceScope
      (s!"source_id={source.id.text} has invalid scope identity {source.scopeType}:" ++
        source.scopeId.elim "None" Uuid.text))
    if departmentIds = [] then return [("global", none)]
    return departmentIds.map fun departmentId => ("department", some departmentId)

def resolveWikiScopes (db : Database) (sourceId : Uuid) :
    Except CompileError (List (String × Option Uuid)) :=
  match db.sources.get sourceId with
  | none => .error (.sourceScope s!"source_id={sourceId.text} no longer exists")
  | some source => wikiScopes (sortedBy id
      ((db.sourceDepartments.filter (·.sourceId = sourceId)).map SourceDepartment.departmentId)) source

/-- The body of the draft: the result's, or its merge into a page of other sources. -/
def finalContent (merge : Option Generate) (source : Source) (existing : Option WikiPage)
    (result : PageWriteResult) : String :=
  match existing, merge with
  | some page, some generate =>
    if page.contentMd ≠ "" ∧ source.id ∉ page.sourceIds ∧ 100 < (strip page.contentMd).length then
      mergePageContent generate page.contentMd result.contentMd result.slug
    else result.contentMd
  | _, _ => result.contentMd

/-- One result in one scope. A call that raises is noted, and the rollback at the end takes back
whatever it wrote. -/
def stageResult (merge : Option Generate) (describe : StagingError → String) (source : Source)
    (ktSlug : Option String) (language : String) (scope : String × Option Uuid) (progress : Progress)
    (result : PageWriteResult) : Progress :=
  let existing := getPageBySlug env progress.db.pages result.slug none scope.1 scope.2 (some language)
  let staged := stageCompilationWikiDraft env stage progress.db source existing
    { slug := result.slug, title := result.title, pageType := result.pageType,
      contentMd := finalContent merge source existing result, summary := result.summary,
      knowledgeTypeSlug := ktSlug, scopeType := scope.1, scopeId := scope.2, language := language,
      compiler := "mrp" }
  match staged with
  | .ok (draftId, isNew, db) =>
    { progress with
      db := db, staged := progress.staged ++ [⟨result, draftId⟩],
      replayed := progress.replayed + if isNew then 0 else 1,
      created := progress.created + if isNew && existing.isNone then 1 else 0,
      edited := progress.edited + if isNew && existing.isSome then 1 else 0 }
  | .error error =>
    let message := "scope=" ++ scope.1 ++ ": " ++ describe error
    { progress with
      failures := progress.failures ++ [failureOf s!"commit:page:{result.slug}" "commit"
        "draft_staging_failed" (String.ofList (message.toList.take 500)) true] }

def stageAll (merge : Option Generate) (describe : StagingError → String) (db : Database)
    (source : Source) (ktSlug : Option String) (language : String)
    (scopes : List (String × Option Uuid)) (results : List PageWriteResult) : Progress :=
  scopes.foldl (fun progress scope =>
    results.foldl (stageResult env stage merge describe source ktSlug language scope) progress)
    { db := db }

def persistPlanFailures (state : CommitState) (failures : List JsonObject) : CommitState :=
  { state with plan := state.plan.map fun plan =>
      { plan with planJson := plan.planJson.set "_failures" (.list (failures.map Json.object)) } }

/-- The rows of a commit that succeeds: the plan is done and the source ready. -/
def completeCommit (state : CommitState) (source : Source) (progress : Progress) : CommitState :=
  let draftIds := sortedBy id (progress.staged.map fun draft => draft.draftId.text).eraseDups
  { db := { progress.db with
      sources := match progress.db.sources.get source.id with
        | some row => progress.db.sources.put
            { row with pipelinePhase := some "commit", status := "ready" }
        | none => progress.db.sources },
    plan := state.plan.map fun plan =>
      { planJson := plan.planJson.set "_compiler_draft_ids" (.list (draftIds.map Json.str)),
        status := "done" } }

def runCommitPhase (merge : Option Generate) (describe : StagingError → String)
    (state : CommitState) (source : Source) (results : List PageWriteResult) (ktSlug : Option String)
    (fullText : String) : CommitState × Except CompileError CommitReport :=
  let plan := state.plan.elim [] SourceCompilationPlan.planJson
  match validateCompileCompleteness env py plan results fullText with
  | .error error => (state, .error error)
  | .ok (failure :: failures) =>
    (persistPlanFailures state (failure :: failures), .error (.incomplete (failure :: failures)))
  | .ok [] =>
    match resolveSourceLanguage env source, resolveWikiScopes state.db source.id with
    | .error error, _ => (state, .error error)
    | .ok _, .error error => (state, .error error)
    | .ok language, .ok scopes =>
      let progress := stageAll env stage merge describe state.db source ktSlug language scopes results
      if progress.failures = [] then
        (completeCommit state source progress, .ok
          { staged := progress.staged, draftsCreated := progress.created,
            editDraftsCreated := progress.edited, draftsReplayed := progress.replayed })
      else
        (persistPlanFailures state progress.failures, .error (.incomplete progress.failures))

end Phase

end Cygnus.Mrp
