import Cygnus.Review.Contributions

/-! Approval: the reviewed content becomes a page, or the next version of one. -/

namespace Cygnus.Review

open Wiki Governance Text Result Sequence

/-- What the metadata of a create draft and the reviewer's overrides ask for. The scope type is
checked by the database only. -/
structure CreateMetadata where
  slug : String
  title : String
  knowledgeTypeSlugs : List String
  summary : String
  language : String
  scopeType : Json
  scopeId : Option Uuid

/-- `(value).strip()`, which only a string has. -/
def stripValue : Json → Transaction String
  | .str s => .ok (strip s)
  | _ => .error (.typeError "object has no attribute 'strip'")

def createMetadata (draft : WikiPageDraft) (metadataOverrides : Option JsonObject) :
    Transaction CreateMetadata := do
  let metadata := draft.suggestedMetadata.getD []
  let overrides := metadataOverrides.getD []
  let slug ← stripValue (Json.orElse (Json.lookup overrides "final_slug")
    (Json.orElse (Json.lookup metadata "slug") (.str "")))
  let title ← stripValue (Json.orElse (Json.lookup overrides "final_title")
    (Json.orElse (Json.lookup metadata "title") (.str "")))
  let raw := match Json.lookup overrides "final_knowledge_type_slugs" with
    | .null => Json.orElse (Json.lookup metadata "knowledge_type_slugs") (.list [])
    | value => value
  return {
    slug := slug, title := title,
    knowledgeTypeSlugs := match raw with
      | .list items => items.filterMap Json.asStr
      | _ => [],
    summary := (metadataString metadata "summary").getD "",
    language := (metadataString metadata "language").getD "en",
    scopeType := Json.orElse (Json.lookup metadata "scope_type") (.str "global"),
    scopeId := match Json.lookup metadata "scope_id" with
      | .str raw => Uuid.parse raw
      | _ => none }

/-- The advisory lock on the suggested slug takes a text. -/
def lockSuggestedSlug (draft : WikiPageDraft) : Transaction Unit :=
  let slug := Json.lookup (draft.suggestedMetadata.getD []) "slug"
  require (slug.truthy → slug.asStr.isSome) (.typeError "hashtext expects a text")

def queryText : Json → Transaction String
  | .str s => .ok s
  | _ => .error (.typeError "a text column is compared with a value that is no text")

section Approve

variable (env : Platform)

/-- The checks a create draft passes before its slug is looked up, and the page it then asks for. -/
def checkCreate (db : Database) (draft : WikiPageDraft) (metadataOverrides : Option JsonObject) :
    Transaction (CreateMetadata × String) := do
  lockSuggestedSlug draft
  let metadata ← createMetadata draft metadataOverrides
  validateCompilerDraftContext env db draft none
  require (metadata.slug ∉ ["", indexSlug, logSlug, hotSlug])
    (.valueError s!"Invalid slug for new page: '{metadata.slug}'")
  require (metadata.title ≠ "") (.valueError "Title is required to materialise a new page")
  let scopeType ← queryText metadata.scopeType
  return (metadata, scopeType)

/-- `apply_create` staged the first revision; the approval writes its own provenance into it. -/
def enrichRevision (revisions : List WikiPageRevision) (page : WikiPage) (draftId reviewerId : Uuid)
    (reviewerNote : Option String) : Transaction (List WikiPageRevision) := do
  require (∃ r ∈ revisions, r.pageId = page.id ∧ r.version = page.version)
    (.runtimeError "apply_create did not persist its initial revision")
  return revisions.map fun r =>
    if r.pageId = page.id ∧ r.version = page.version then
      { r with
        changeType := "draft_approved_create", draftId := some draftId,
        changedById := some reviewerId, changeNote := reviewerNote }
    else r

def approveCreate (db : Database) (draft : WikiPageDraft) (finalContent : String)
    (reviewerId : Uuid) (reviewerNote : Option String) (metadataOverrides : Option JsonObject)
    (pageId : Uuid) : Transaction (WikiPage × Database) := do
  let (metadata, scopeType) ← checkCreate env db draft metadataOverrides
  match getPageBySlug env db.pages metadata.slug none scopeType metadata.scopeId
      (some metadata.language) with
  | some _ => throw (.createDraftSlugConflict metadata.slug scopeType metadata.scopeId)
  | none =>
    let sourceIds ← draftSourceIds draft
    let (page, db) ← applyCreate env db pageId metadata.slug metadata.title finalContent
      metadata.summary metadata.knowledgeTypeSlugs sourceIds scopeType metadata.scopeId
      (some metadata.language)
    let revisions ← enrichRevision db.revisions page draft.id reviewerId reviewerNote
    return (page, { db with revisions := revisions })

/-- The write an approved edit draft asks for. -/
def editWrite (draft : WikiPageDraft) (page : WikiPage) (finalContent : String) (sourceIds : List Uuid)
    (reviewerId : Uuid) (reviewerNote : Option String) : PageWrite :=
  let proposed := compilerProposedMetadata draft
  { slug := page.slug, title := some ((metadataString proposed "title").getD page.title),
    contentMd := finalContent,
    summary := some ((metadataString proposed "summary").getD page.summary),
    knowledgeTypeSlugs := some (match metadataSlugList proposed with
      | some slugs => (page.knowledgeTypeSlugs ++ slugs).eraseDups
      | none => page.knowledgeTypeSlugs),
    sourceIds := some (page.sourceIds ++ sourceIds).eraseDups,
    scopeType := if page.scopeType = "" then "global" else page.scopeType, scopeId := page.scopeId,
    language := some page.language, status := some page.status, insertIfMissing := false,
    changeType := "draft_approved", changedById := some reviewerId, changeNote := reviewerNote,
    draftId := some draft.id }

def approveEdit (db : Database) (draft : WikiPageDraft) (finalContent : String) (reviewerId : Uuid)
    (reviewerNote editedContentMd : Option String) (allowConflict : Bool) :
    Transaction (WikiPage × Database) := do
  match draft.pageId.bind db.pages.get with
  | none => throw (.valueError ("Wiki page " ++ draft.pageId.elim "None" Uuid.text ++ " not found"))
  | some page =>
    validateCompilerDraftContext env db draft (some page)
    require (allowConflict ∨ editedContentMd.isSome ∨
        draft.baseVersion.all fun base => (page.version : Int) ≤ base)
      (.draftConflict page.version (draft.baseVersion.getD 0))
    let sourceIds ← draftSourceIds draft
    let (outcome, db) ← writePage env db page.id
      (editWrite draft page finalContent sourceIds reviewerId reviewerNote)
    match outcome.page with
    | none => throw (.valueError ("Wiki page " ++ draft.pageId.elim "None" Uuid.text ++ " not found"))
    | some page => return (page, db)

structure Approval where
  reviewerId : Uuid
  reviewerNote : Option String := none
  editedContentMd : Option String := none
  allowConflict : Bool := false
  metadataOverrides : Option JsonObject := none

def Approval.finalContent (approval : Approval) (draft : WikiPageDraft) : String :=
  match approval.editedContentMd with
  | none => draft.contentMd
  | some "" => draft.contentMd
  | some edited => strip edited

/-- The page a pending draft becomes. -/
def materialise (db : Database) (draft : WikiPageDraft) (approval : Approval) (pageId : Uuid) :
    Transaction (WikiPage × Database) :=
  if draft.draftKind = "create" then
    approveCreate env db draft (approval.finalContent draft) approval.reviewerId approval.reviewerNote
      approval.metadataOverrides pageId
  else
    approveEdit env db draft (approval.finalContent draft) approval.reviewerId approval.reviewerNote
      approval.editedContentMd approval.allowConflict

def approvedDraft (draft : WikiPageDraft) (approval : Approval) (page : WikiPage)
    (now : Timestamp) : WikiPageDraft :=
  { draft with
    pageId := if draft.draftKind = "create" then some page.id else draft.pageId,
    status := .approved, reviewedById := some approval.reviewerId, reviewedAt := some now,
    reviewerNote := approval.reviewerNote }

def approvalEvent (draft : WikiPageDraft) (approval : Approval) (page : WikiPage) (now : Timestamp) :
    DraftEvent :=
  { draftId := draft.id, eventType := .approved, fromState := some .inReview, toState := .approved,
    actorId := some approval.reviewerId, idempotencyKey := transitionKey draft.id .approved,
    reason := approval.reviewerNote,
    payload := [
      ("page_id", .str page.id.text),
      ("page_version", .int page.version),
      ("revision_round", .int draft.revisionRound),
      ("approval_digest", .str (approvalDigest env draft page (approval.finalContent draft)
        (some approval.reviewerId) (some now) approval.reviewerNote))] }

def approveWikiDraft (db : Database) (draftId : Uuid) (approval : Approval) (pageId eventId : Uuid)
    (now : Timestamp) : Transaction Database := do
  let draft ← fetch "wiki_page_drafts" db.drafts draftId
  require (draft.status = .pending) (.invalidTransition
    "A draft must be explicitly submitted for review before approval.")
  let (page, db) ← materialise env db draft approval pageId
  let (_, ledger) ← appendDraftEvent db.ledger eventId (approvalEvent env draft approval page now)
  return { db with
    drafts := db.drafts.put (approvedDraft draft approval page now), ledger := ledger }

end Approve

end Cygnus.Review
