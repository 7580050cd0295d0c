import Cygnus.Governance.ApprovalGuards
import Cygnus.Wiki.Page

/-! The draft lifecycle. Every operation is one transaction over the database; identifiers of new
rows are arguments. Audit entries and notifications are not modelled: nothing reads them back. -/

namespace Cygnus.Review

open Wiki Governance Text Result Sequence

def assertStatus (draft : WikiPageDraft) (allowed : List DraftStatus) : Transaction Unit :=
  require (draft.status ∈ allowed) (.invalidTransition
    (s!"Cannot perform this action while wiki_draft is in status '{draft.status.value}'. " ++
      "Allowed: " ++ ", ".intercalate (allowed.map DraftStatus.value) ++ "."))

def stageAiPreReview (preReviews : List PendingAiPreReview) (draft : WikiPageDraft) :
    Transaction (List PendingAiPreReview) := do
  if draft.status ≠ .pending then return preReviews
  require (1 ≤ draft.version)
    (.valueError "draft.version must be positive before AI review staging")
  let staged : PendingAiPreReview := ⟨draft.id, draft.version, draft.revisionRound⟩
  if staged ∈ preReviews then return preReviews
  return preReviews ++ [staged]

/-- The arguments of `create_wiki_draft`, with the branch that the routers assign in the same
transaction. -/
structure NewDraft where
  draftId : Uuid
  pageId : Option Uuid := none
  authorId : Option Uuid := none
  contentMd : String
  note : Option String := none
  source : String := "web_ui"
  sourceMetadata : Option JsonObject := none
  baseVersion : Option Int := none
  draftKind : String := "edit"
  suggestedMetadata : Option JsonObject := none
  submitForReview : Bool := true
  branchId : Option Uuid := none

def NewDraft.row (new : NewDraft) : WikiPageDraft :=
  { id := new.draftId, pageId := new.pageId, authorId := new.authorId, contentMd := new.contentMd,
    note := new.note, status := if new.submitForReview then .pending else .draft,
    source := new.source, sourceMetadata := new.sourceMetadata, baseVersion := new.baseVersion,
    draftKind := new.draftKind, suggestedMetadata := new.suggestedMetadata,
    branchId := new.branchId }

section Compiler

variable (env : Platform)

def resolvedSourceScopeTargets (departments : List SourceDepartment) (source : Source) :
    List String :=
  let scopeType := strip (if source.scopeType = "" then "global" else source.scopeType)
  if scopeType = "department" ∨ scopeType = "project" then
    match source.scopeId with
    | none => []
    | some scopeId => [s!"{scopeType}:{scopeId.text}"]
  else if scopeType ≠ "global" ∨ source.scopeId ≠ none then []
  else
    let departmentIds := sortedBy id
      ((departments.filter (·.sourceId = source.id)).map SourceDepartment.departmentId)
    if departmentIds = [] then ["global"]
    else departmentIds.map fun departmentId => s!"department:{departmentId.text}"

def compilerMetadataUuid (metadata : JsonObject) (key : String) : Transaction Uuid :=
  match Json.lookup metadata key with
  | .str raw =>
    match Uuid.parse raw with
    | some id => .ok id
    | none => .error (.compilationDraftContextConflict
        s!"compiler draft has an invalid {key}; it cannot be approved")
  | _ => .error (.compilationDraftContextConflict
      s!"compiler draft is missing {key}; it cannot be approved")

/-- The scope identifier a compiler draft was staged for. -/
def compilerScopeId (metadata : JsonObject) : Transaction (Option Uuid) :=
  match Json.lookup metadata "compiler_scope_id" with
  | .null => .ok none
  | .str raw =>
    match Uuid.parse raw with
    | some id => .ok (some id)
    | none => .error (.compilationDraftContextConflict
        "compiler draft has an invalid compiler_scope_id")
  | _ => .error (.compilationDraftContextConflict "compiler draft has an invalid compiler_scope_id")

/-- `list[str]` with no empty entry, as the resolved scope targets must be. -/
def nonemptyStrings : Json → Option (List String)
  | .list items => items.mapM fun item => item.asStr.filter (· ≠ "")
  | _ => none

def normalizedLanguage (language : String) : String := env.lower (strip language)

def validateCompilerDraftContext (db : Database) (draft : WikiPageDraft) (page : Option WikiPage) :
    Transaction Unit := do
  let metadata := draft.sourceMetadata.getD []
  if (Json.lookup metadata "origin").asStr ≠ some "compiler" then return ()
  let sourceId ← compilerMetadataUuid metadata "compiler_source_id"
  let fence : Option (Int × String × String) := do
    let generation ← (Json.lookup metadata "compiler_dispatch_generation").asInt
    let scopeType ← (Json.lookup metadata "compiler_scope_type").asStr
    let language ← (Json.lookup metadata "compiler_language").asStr
    if strip scopeType = "" ∨ strip language = "" then none else some (generation, scopeType, language)
  match fence with
  | none => throw (.compilationDraftContextConflict
      "compiler draft lacks its immutable source generation/scope/language fence")
  | some (expectedGeneration, expectedScopeType, expectedLanguage) =>
    let expectedScopeId ← compilerScopeId metadata
    match nonemptyStrings (Json.lookup metadata "compiler_resolved_scope_targets") with
    | none => throw (.compilationDraftContextConflict
        "compiler draft lacks its immutable resolved scope-target fence")
    | some expectedScopeTargets =>
      match db.sources.get sourceId with
      | none => throw (.compilationDraftContextConflict
          "compiler source no longer exists; stage a new draft from current truth")
      | some source =>
        require ((source.dispatchGeneration : Int) = expectedGeneration)
          (.compilationDraftContextConflict
            "compiler source generation changed; this draft was fenced by re-ingest")
        require (normalizedLanguage env source.language = normalizedLanguage env expectedLanguage)
          (.compilationDraftContextConflict (
            "compiler source language changed; this draft cannot recreate prior-language content"))
        require (expectedScopeTargets = resolvedSourceScopeTargets db.sourceDepartments source)
          (.compilationDraftContextConflict ("compiler source scope targets changed; " ++
            "this draft cannot recreate prior audience truth"))
        let sourceScopeType := strip (if source.scopeType = "" then "global" else source.scopeType)
        require (¬ (sourceScopeType ∈ ["department", "project"] ∧
            (sourceScopeType ≠ expectedScopeType ∨ source.scopeId ≠ expectedScopeId)))
          (.compilationDraftContextConflict
            "compiler source scope changed; this draft cannot recreate prior-scope content")
        match page with
        | none => return ()
        | some page =>
          require ((if page.scopeType = "" then "global" else page.scopeType) = expectedScopeType ∧
              page.scopeId = expectedScopeId ∧
              normalizedLanguage env page.language = normalizedLanguage env expectedLanguage)
            (.compilationDraftContextConflict
              "compiler target page no longer has the staged scope/language identity")

end Compiler

def parseSourceId : Json → Transaction Uuid
  | .str raw =>
    match Uuid.parse raw with
    | some id => .ok id
    | none => .error (.valueError "draft source_ids must contain UUIDs")
  | _ => .error (.valueError "draft source_ids must contain UUIDs")

def draftSourceIds (draft : WikiPageDraft) : Transaction (List Uuid) :=
  match Json.lookup (draft.sourceMetadata.getD []) "source_ids" with
  | .null => .ok []
  | .list raw => do
    let ids ← raw.mapM parseSourceId
    return ids.eraseDups
  | _ => .error (.valueError "draft source_ids must be a list")

def compilerProposedMetadata (draft : WikiPageDraft) : JsonObject :=
  match Json.lookup (draft.sourceMetadata.getD []) "proposed_metadata" with
  | .object fields => fields
  | _ => []

def metadataString (metadata : JsonObject) (key : String) : Option String :=
  match Json.lookup metadata key with
  | .str value => if strip value = "" then none else some (strip value)
  | _ => none

def metadataSlugList (metadata : JsonObject) : Option (List String) :=
  match Json.lookup metadata "knowledge_type_slugs" with
  | .list items => some (((items.filterMap Json.asStr).map strip).filter (· ≠ "")).eraseDups
  | _ => none

section Lifecycle

variable (env : Platform)

def createWikiDraft (db : Database) (new : NewDraft) (proposalId reviewId : Uuid) :
    Transaction Database := do
  require (new.pageId.all fun id => (db.pages.get id).isSome)
    (.integrityError "wiki_page_drafts_page_id_fkey")
  require (new.branchId.all fun id => (db.branches.get id).isSome)
    (.integrityError "wiki_page_drafts_branch_id_fkey")
  let draft := new.row
  let drafts ← db.drafts.insert (.integrityError "wiki_page_drafts_pkey") draft
  if new.submitForReview then
    let ledger ← recordCreatedDraft env db.ledger proposalId reviewId draft
    let preReviews ← stageAiPreReview db.preReviews draft
    return { db with drafts := drafts, ledger := ledger, preReviews := preReviews }
  else
    let (_, ledger) ← recordDraftProposal env db.ledger proposalId draft
    return { db with drafts := drafts, ledger := ledger }

/-- The first two thousand characters. -/
def clip (s : String) : String := String.ofList (s.toList.take 2000)

/-- Withdraws one compiler draft of an earlier generation; drafts without a recorded generation and
drafts of this one are passed over. -/
def fenceDraft (sourceId : Uuid) (currentGeneration : Nat) (reason : String)
    (eventId : Uuid → Uuid) (db : Database) (draftId : Uuid) : Transaction Database := do
  let draft ← fetch "wiki_page_drafts" db.drafts draftId
  match (Json.lookup (draft.sourceMetadata.getD []) "compiler_dispatch_generation").asInt with
  | none => return db
  | some generation =>
    if (currentGeneration : Int) ≤ generation then return db
    let note := clip (strip reason)
    let (_, ledger) ← appendDraftEvent db.ledger (eventId draft.id)
      { draftId := draft.id, eventType := .withdrawn,
        fromState := some (governanceStateForDraftStatus draft.status), toState := .withdrawn,
        actorId := none,
        idempotencyKey := .compilerSourceFence draft.id currentGeneration,
        reason := some note,
        payload := [
          ("compiler_source_id", .str sourceId.text),
          ("previous_generation", .int generation),
          ("current_generation", .int currentGeneration)] }
    let draft := { draft with status := .withdrawn, reviewerNote := some note }
    return { db with drafts := db.drafts.put draft, ledger := ledger }

def staleCompilerDrafts (drafts : Table WikiPageDraft) (sourceId : Uuid) : List WikiPageDraft :=
  sortedBy WikiPageDraft.id (drafts.filter fun draft =>
    let metadata := draft.sourceMetadata.getD []
    (Json.lookup metadata "origin").asStr = some "compiler" &&
      (Json.lookup metadata "compiler_source_id").asStr = some sourceId.text &&
      draft.status ∈ [.draft, .pending, .needsRevision])

def invalidateStaleCompilerDrafts (db : Database) (sourceId : Uuid) (currentGeneration : Int)
    (reason : String) (eventId : Uuid → Uuid) : Transaction Database := do
  require (1 ≤ currentGeneration) (.valueError "current_generation must be positive")
  ((staleCompilerDrafts db.drafts sourceId).map WikiPageDraft.id).foldlM
    (fenceDraft sourceId currentGeneration.toNat reason eventId) db

/-- `left != right` on optional documents. -/
def differs (left : JsonObject) (right : Option JsonObject) : Bool :=
  match right with
  | none => true
  | some right => !Json.eq (.object left) (.object right)

structure DraftEdit where
  expectedVersion : Int
  contentMd : Option String := none
  suggestedMetadata : Option JsonObject := none
  sourceMetadata : Option JsonObject := none

def DraftEdit.changes (edit : DraftEdit) (draft : WikiPageDraft) : Bool :=
  edit.contentMd.any (· ≠ draft.contentMd) ||
    edit.suggestedMetadata.any (differs · draft.suggestedMetadata) ||
    edit.sourceMetadata.any (differs · draft.sourceMetadata)

def isAuthorOrAdmin (authorId : Option Uuid) (actor : Actor) : Prop :=
  authorId = some actor.id ∨ actor.role = "admin"

instance (authorId : Option Uuid) (actor : Actor) : Decidable (isAuthorOrAdmin authorId actor) :=
  inferInstanceAs (Decidable (_ ∨ _))

/-- The snapshot of the round that a reworked draft leaves behind. -/
def roundOf (draft : WikiPageDraft) (now : Timestamp) : WikiDraftRound :=
  { draftId := draft.id, roundNo := draft.revisionRound, contentMd := draft.contentMd,
    authorNote := draft.note, reviewerReturnNote := draft.lastReturnedNote,
    aiCheckResults := draft.aiCheckResults, submittedAt := now }

/-- The next revision round, with the verdicts of the last one cleared. -/
def nextRound (draft : WikiPageDraft) (status : DraftStatus) : WikiPageDraft :=
  { draft with
    revisionRound := draft.revisionRound + 1, lastReturnedNote := none, aiCheckStatus := "pending",
    aiCheckResults := none, aiCheckedAt := none, status := status }

/-- The row after an accepted edit. -/
def DraftEdit.applyTo (edit : DraftEdit) (draft : WikiPageDraft) : WikiPageDraft :=
  let draft := if draft.status = .needsRevision then nextRound draft .draft else draft
  { draft with
    contentMd := edit.contentMd.getD draft.contentMd,
    suggestedMetadata := edit.suggestedMetadata.or draft.suggestedMetadata,
    sourceMetadata := edit.sourceMetadata.or draft.sourceMetadata,
    version := draft.version + 1 }

def updateWikiDraft (db : Database) (draftId : Uuid) (author : Actor) (edit : DraftEdit)
    (eventId : Uuid) (now : Timestamp) : Transaction Database := do
  require (1 ≤ edit.expectedVersion) (.valueError "expected_version must be positive")
  let draft ← fetch "wiki_page_drafts" db.drafts draftId
  require (isAuthorOrAdmin draft.authorId author)
    (.invalidTransition "Only the original author can update this draft.")
  assertStatus draft [.draft, .needsRevision]
  require ((draft.version : Int) = edit.expectedVersion)
    (.draftVersionConflict edit.expectedVersion draft.version)
  if !edit.changes draft then return db
  let rounds := if draft.status = .needsRevision then db.rounds ++ [roundOf draft now] else db.rounds
  let updated := edit.applyTo draft
  -- neither admitted status is `pending`, so the status names the ledger state
  let (_, ledger) ← recordDraftUpdate env db.ledger eventId updated draft.version
    (governanceStateForDraftStatus draft.status) .draft (some author.id) "draft_update"
  return { db with drafts := db.drafts.put updated, rounds := rounds, ledger := ledger }

/-- `except GovernanceLedgerConflict as exc: raise InvalidTransition(str(exc))`. -/
def asInvalidTransition : ReviewError → ReviewError
  | .governanceLedgerConflict message => .invalidTransition message
  | error => error

/-- The row as the author hands it to review. -/
def submittedDraft (draft : WikiPageDraft) (reviewType : String) (notes : Option String) :
    WikiPageDraft :=
  { draft with
    sourceMetadata := some (Dict.set "review_type" (.str reviewType) (draft.sourceMetadata.getD [])),
    note := notes.or draft.note, status := .pending }

def submitWikiDraft (db : Database) (draftId : Uuid) (author : Actor) (expectedVersion : Int)
    (reviewType : String) (notes : Option String) (eventId : Uuid) : Transaction Database := do
  require (1 ≤ expectedVersion) (.valueError "expected_version must be positive")
  let draft ← fetch "wiki_page_drafts" db.drafts draftId
  require (isAuthorOrAdmin draft.authorId author)
    (.invalidTransition "Only the original author can request review.")
  require ((draft.version : Int) = expectedVersion)
    (.draftVersionConflict expectedVersion draft.version)
  if draft.status = .pending then
    let (_, ledger) ← (recordDraftReviewRequest db.ledger eventId draft (some author.id) notes
      (some reviewType) (some expectedVersion)).mapError asInvalidTransition
    let preReviews ← stageAiPreReview db.preReviews draft
    return { db with ledger := ledger, preReviews := preReviews }
  else
    assertStatus draft [.draft]
    let submitted := submittedDraft draft reviewType notes
    let (_, ledger) ← (recordDraftReviewRequest db.ledger eventId submitted (some author.id) notes
      (some reviewType) (some expectedVersion)).mapError asInvalidTransition
    let preReviews ← stageAiPreReview db.preReviews submitted
    return { db with drafts := db.drafts.put submitted, ledger := ledger, preReviews := preReviews }

def rejectWikiDraft (db : Database) (draftId reviewerId : Uuid) (reviewerNote : String)
    (eventId : Uuid) (now : Timestamp) : Transaction Database := do
  let draft ← fetch "wiki_page_drafts" db.drafts draftId
  let rejected := { draft with
    status := .rejected, reviewedById := some reviewerId, reviewedAt := some now,
    reviewerNote := some reviewerNote }
  let (_, ledger) ← appendDraftEvent db.ledger eventId
    { draftId := draft.id, eventType := .rejected, fromState := some .inReview,
      toState := .rejected, actorId := some reviewerId,
      idempotencyKey := transitionKey draft.id .rejected, reason := some reviewerNote,
      payload := [("revision_round", .int draft.revisionRound)] }
  return { db with drafts := db.drafts.put rejected, ledger := ledger }

def requestChanges (db : Database) (draftId : Uuid) (reviewer : Actor) (note : String)
    (eventId : Uuid) : Transaction Database := do
  let draft ← fetch "wiki_page_drafts" db.drafts draftId
  require (strip note ≠ "")
    (.invalidTransition "reviewer_note is required when requesting changes.")
  assertStatus draft [.pending]
  let returned := { draft with status := .needsRevision, lastReturnedNote := some (strip note) }
  let (_, ledger) ← appendDraftEvent db.ledger eventId
    { draftId := draft.id, eventType := .changesRequested, fromState := some .inReview,
      toState := .needsRevision, actorId := some reviewer.id,
      idempotencyKey := transitionKey draft.id .changesRequested (some draft.revisionRound),
      reason := some note, payload := [("revision_round", .int draft.revisionRound)] }
  return { db with drafts := db.drafts.put returned, ledger := ledger }

def resubmitWikiDraft (db : Database) (draftId : Uuid) (author : Actor) (newContentMd : String)
    (authorNote : Option String) (updateId resubmitId : Uuid) (now : Timestamp) :
    Transaction Database := do
  let draft ← fetch "wiki_page_drafts" db.drafts draftId
  assertStatus draft [.needsRevision]
  require (isAuthorOrAdmin draft.authorId author)
    (.invalidTransition "Only the original author can resubmit this draft.")
  let resubmitted : WikiPageDraft :=
    { nextRound draft .pending with
      contentMd := newContentMd, note := authorNote.or draft.note, version := draft.version + 1 }
  let (_, ledger) ← recordDraftUpdate env db.ledger updateId resubmitted draft.version
    (governanceStateForDraftStatus draft.status) .draft (some author.id) "resubmit" authorNote
  let (_, ledger) ← appendDraftEvent ledger resubmitId
    { draftId := draft.id, eventType := .reviewResubmitted, fromState := some .draft,
      toState := .inReview, actorId := some author.id,
      idempotencyKey :=
        transitionKey draft.id .reviewResubmitted (some resubmitted.revisionRound),
      reason := authorNote, payload := [("revision_round", .int resubmitted.revisionRound)] }
  let preReviews ← stageAiPreReview db.preReviews resubmitted
  return { db with
    drafts := db.drafts.put resubmitted, rounds := db.rounds ++ [roundOf draft now],
    ledger := ledger, preReviews := preReviews }

def withdraw (db : Database) (draftId : Uuid) (author : Actor) (eventId : Uuid) :
    Transaction Database := do
  let draft ← fetch "wiki_page_drafts" db.drafts draftId
  assertStatus draft [.draft, .pending, .needsRevision]
  require (isAuthorOrAdmin draft.authorId author)
    (.invalidTransition "Only the original author can withdraw this contribution.")
  let withdrawn := { draft with status := .withdrawn }
  let (_, ledger) ← appendDraftEvent db.ledger eventId
    { draftId := draft.id, eventType := .withdrawn,
      fromState := some (governanceStateForDraftStatus draft.status), toState := .withdrawn,
      actorId := some author.id, idempotencyKey := transitionKey draft.id .withdrawn,
      payload := [("revision_round", .int draft.revisionRound)] }
  return { db with drafts := db.drafts.put withdrawn, ledger := ledger }

end Lifecycle

end Cygnus.Review
