import Cygnus.Wiki.Models

/-! Page reads and the canonical write path of the wiki. -/

namespace Cygnus.Wiki

open Text Result

def indexSlug : String := "_index"
def logSlug : String := "_log"
def hotSlug : String := "_hot"

def defaultPageLanguage : String := "en"

section Links

/-- The slug of a `[[slug]]` or `[[slug|display]]` that starts here, and what follows the link. -/
def matchWikilink : List Char → Option (List Char × List Char)
  | '[' :: '[' :: cs =>
    let slug := cs.takeWhile fun c => c ≠ ']' && c ≠ '|'
    if slug = [] then none
    else match cs.drop slug.length with
      | ']' :: ']' :: rest => some (slug, rest)
      | '|' :: cs =>
        match cs.dropWhile (· ≠ ']') with
        | ']' :: ']' :: rest => some (slug, rest)
        | _ => none
      | _ => none
  | _ => none

/-- The matches from left to right, none overlapping another; `fuel` is at least the length. -/
def findWikilinks : Nat → List Char → List String
  | 0, _ => []
  | fuel + 1, cs =>
    match matchWikilink cs with
    | some (slug, rest) => String.ofList slug :: findWikilinks fuel rest
    | none =>
      match cs with
      | [] => []
      | _ :: cs => findWikilinks fuel cs

def extractWikilinks (contentMd : String) : List String :=
  let slugs := (findWikilinks contentMd.length contentMd.toList).map strip
  (slugs.filter (· ≠ "")).eraseDups

def refreshLinks (links : List WikiLink) (fromPageId : Uuid) (fromSlug contentMd : String) :
    List WikiLink :=
  let targets := (extractWikilinks contentMd).filter (· ≠ fromSlug)
  links.filter (·.fromPageId ≠ fromPageId) ++ targets.map fun toSlug => ⟨fromPageId, toSlug⟩

end Links

variable (env : Platform)

def normalizePagePath (slug : String) : String := env.lower (strip slug)

def normalizePageLanguage (language : Option String) : String :=
  let raw := match language with
    | none => defaultPageLanguage
    | some "" => defaultPageLanguage
    | some language => language
  let normalized := env.lower (strip raw)
  if normalized = "" then defaultPageLanguage else normalized

def getPageBySlug (pages : Table WikiPage) (slug : String)
    (allowedKtSlugs : Option (List String)) (scopeType : String) (scopeId : Option Uuid)
    (language : Option String) : Option WikiPage := do
  let page ← pages.find? fun page =>
    page.slug = slug && page.language = normalizePageLanguage env language &&
      page.scopeType = scopeType && page.scopeId = scopeId
  match allowedKtSlugs with
  | none => some page
  | some allowed =>
    if slug ∈ [indexSlug, logSlug, hotSlug] ∨ page.knowledgeTypeSlugs = [] ∨
        (page.knowledgeTypeSlugs.any (· ∈ allowed)) = true then some page
    else none

/-- The row that owns a canonical identity. -/
def lockPageByIdentity (pages : Table WikiPage) (slug scopeType : String) (scopeId : Option Uuid)
    (language : Option String) : Option WikiPage :=
  pages.find? fun page =>
    page.scopeType = scopeType && page.language = normalizePageLanguage env language &&
      page.normalizedPath = normalizePagePath env slug && page.scopeId = scopeId

/-- The arguments of `write_page`. -/
structure PageWrite where
  slug : String
  title : Option String
  contentMd : String
  summary : Option String := none
  knowledgeTypeSlugs : Option (List String) := none
  sourceIds : Option (List Uuid) := none
  scopeType : String := "global"
  scopeId : Option Uuid := none
  language : Option String := none
  status : Option String := none
  expectedVersion : Option Nat := none
  insertIfMissing : Bool := true
  changeType : String := "agent_compile"
  changedById : Option Uuid := none
  changeNote : Option String := none
  draftId : Option Uuid := none

def isExactRetry (page : WikiPage) (write : PageWrite) : Bool :=
  page.contentMd = write.contentMd && write.title.all (page.title = ·) &&
    write.summary.all (page.summary = ·) && write.status.all (page.status = ·) &&
    write.knowledgeTypeSlugs.all (page.knowledgeTypeSlugs = ·) &&
    write.sourceIds.all (page.sourceIds = ·)

structure PageWriteOutcome where
  page : Option WikiPage
  inserted : Bool := false
  applied : Bool := false

def PageWrite.revision (write : PageWrite) (pageId : Uuid) (version : Nat) : WikiPageRevision :=
  { pageId := pageId, version := version, contentMd := write.contentMd,
    changeType := write.changeType, draftId := write.draftId, changedById := write.changedById,
    changeNote := write.changeNote }

/-- A page has one revision for each version. -/
def addRevision (revisions : List WikiPageRevision) (revision : WikiPageRevision) :
    Transaction (List WikiPageRevision) := do
  require (∀ r ∈ revisions, ¬ (r.pageId = revision.pageId ∧ r.version = revision.version))
    (.integrityError "uq_wiki_revisions_page_version")
  return revisions ++ [revision]

/-- The row `write_page` inserts for an identity that is free. -/
def PageWrite.newPage (write : PageWrite) (pageId : Uuid) (slug title : String) : WikiPage :=
  { id := pageId, slug := slug, title := title, status := write.status.elim "seed" fun status =>
      if status = "" then "seed" else status,
    contentMd := write.contentMd, summary := write.summary.getD "",
    scopeType := write.scopeType, scopeId := write.scopeId,
    language := normalizePageLanguage env write.language,
    normalizedPath := normalizePagePath env slug,
    knowledgeTypeSlugs := write.knowledgeTypeSlugs.getD [],
    sourceIds := write.sourceIds.getD [], version := 1 }

/-- The row after a write that is not an exact retry. -/
def PageWrite.applyTo (write : PageWrite) (page : WikiPage) : WikiPage :=
  { page with
    contentMd := write.contentMd, title := write.title.getD page.title,
    summary := write.summary.getD page.summary, status := write.status.getD page.status,
    knowledgeTypeSlugs := write.knowledgeTypeSlugs.getD page.knowledgeTypeSlugs,
    sourceIds := write.sourceIds.getD page.sourceIds, version := page.version + 1 }

def insertPage (db : Database) (pageId : Uuid) (write : PageWrite) (slug title : String) :
    Transaction (PageWriteOutcome × Database) := do
  let page := write.newPage env pageId slug title
  let pages ← db.pages.insert (.integrityError "wiki_pages_pkey") page
  let revisions ← addRevision db.revisions (write.revision pageId 1)
  let links := refreshLinks db.links pageId slug write.contentMd
  return (⟨some page, true, true⟩, { db with pages := pages, revisions := revisions, links := links })

def updatePage (db : Database) (page : WikiPage) (write : PageWrite) (slug : String) :
    Transaction (PageWriteOutcome × Database) := do
  require (write.expectedVersion.all (page.version = ·))
    (.pageWriteConflict slug write.scopeType write.scopeId (write.expectedVersion.getD 0)
      page.version)
  if isExactRetry page write then return (⟨some page, false, false⟩, db)
  let page := write.applyTo page
  let links := refreshLinks db.links page.id slug write.contentMd
  let revisions ← addRevision db.revisions (write.revision page.id page.version)
  return (⟨some page, false, true⟩,
    { db with pages := db.pages.put page, revisions := revisions, links := links })

/-- `pageId` is the identifier the database draws for a new row. An insert conflicts exactly when
the identity has an owner, so within one transaction the second insert attempt of the source is
never reached. -/
def writePage (db : Database) (pageId : Uuid) (write : PageWrite) :
    Transaction (PageWriteOutcome × Database) := do
  let slug := strip write.slug
  require (slug ≠ "") (.valueError "slug is required to materialize a wiki page")
  require (write.insertIfMissing → write.title.isSome)
    (.valueError s!"title is required to create page '{slug}'")
  match lockPageByIdentity env db.pages slug write.scopeType write.scopeId write.language with
  | some page => updatePage db page write slug
  | none =>
    if write.insertIfMissing then insertPage env db pageId write slug (write.title.getD "")
    else return (⟨none, false, false⟩, db)

def applyCreate (db : Database) (pageId : Uuid) (slug title contentMd summary : String)
    (knowledgeTypeSlugs : List String) (sourceIds : List Uuid) (scopeType : String)
    (scopeId : Option Uuid) (language : Option String) : Transaction (WikiPage × Database) := do
  let (outcome, db) ← writePage env db pageId
    { slug := slug, title := some title, contentMd := contentMd, summary := some summary,
      knowledgeTypeSlugs := some knowledgeTypeSlugs, sourceIds := some sourceIds,
      scopeType := scopeType, scopeId := scopeId, language := language, status := some "seed" }
  match outcome.page with
  | some page => return (page, db)
  | none => throw (.runtimeError s!"apply_create failed to materialize page '{slug}'")

/-- The rewrite of an existing page under its own identity, all other columns kept. -/
def rewritePage (page : WikiPage) (contentMd changeType : String) (changedById : Uuid)
    (changeNote : Option String) : PageWrite :=
  { slug := page.slug, title := some page.title, contentMd := contentMd,
    summary := some page.summary, knowledgeTypeSlugs := some page.knowledgeTypeSlugs,
    sourceIds := some page.sourceIds,
    scopeType := if page.scopeType = "" then "global" else page.scopeType, scopeId := page.scopeId,
    language := some page.language, status := some page.status, insertIfMissing := false,
    changeType := changeType, changedById := some changedById, changeNote := changeNote }

def directEditPage (db : Database) (pageId editorId : Uuid) (contentMd : String)
    (changeNote : Option String) : Transaction Database := do
  let page ← fetch "wiki_pages" db.pages pageId
  let (outcome, db) ← writePage env db pageId
    (rewritePage page contentMd "editor_edit" editorId changeNote)
  require outcome.page.isSome
    (.runtimeError s!"wiki page '{page.slug}' disappeared before direct edit")
  return db

def rollbackToRevision (db : Database) (pageId : Uuid) (targetVersion : Nat) (actorId : Uuid) :
    Transaction Database := do
  let page ← fetch "wiki_pages" db.pages pageId
  match db.revisions.find? fun r => r.pageId = pageId && r.version = targetVersion with
  | none => throw (.valueError s!"Revision v{targetVersion} not found for page {page.slug}")
  | some revision =>
    let (outcome, db) ← writePage env db pageId
      (rewritePage page revision.contentMd "rollback" actorId
        (some s!"rollback to v{targetVersion}"))
    require outcome.page.isSome (.valueError s!"Wiki page {page.slug} not found")
    return db

end Cygnus.Wiki
