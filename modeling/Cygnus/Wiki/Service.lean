import Cygnus.Data.Like
import Cygnus.Wiki.Page
import Mathlib.Data.String.Basic

/-! The operations around the canonical write path: compiler updates, the reserved pages, and
deletion with the cleanup of what refers to the page. -/

namespace Cygnus.Wiki

open Text Result

section Cleanup

/-- The display text of a `[[slug|display]]` that starts here; `opening` is `[[slug|`. -/
def matchDisplay (opening cs : List Char) : Option (List Char) :=
  if opening.isPrefixOf cs then
    let display := (cs.drop opening.length).takeWhile (· ≠ ']')
    if display = [] then none
    else match cs.drop (opening.length + display.length) with
      | ']' :: ']' :: _ => some display
      | _ => none
  else none

/-- Every `[[slug|display]]`, leftmost first, by its display text; `skip` counts the characters of a
match still to be passed over. -/
def keepDisplay (opening : List Char) (skip : Nat) : List Char → List Char
  | [] => []
  | c :: cs =>
    if 0 < skip then keepDisplay opening (skip - 1) cs
    else match matchDisplay opening (c :: cs) with
      | some display => display ++ keepDisplay opening (opening.length + display.length + 1) cs
      | none => c :: keepDisplay opening 0 cs

def lastSegment (slug : String) : String := (split '/' slug).getLast?.getD ""

/-- A page's text without its links to `slug`: the display text stays, else the last segment of the
slug. -/
def scrub (slug contentMd : String) : String :=
  let cleaned := String.ofList (keepDisplay ("[[".toList ++ slug.toList ++ ['|']) 0 contentMd.toList)
  replace ("[[" ++ slug ++ "]]") (lastSegment slug) cleaned

/-- The pages that a deletion may rewrite: all of them for a global page, else those of its scope. -/
def inDeletedScope (deleted page : WikiPage) : Bool :=
  let scopeType := if deleted.scopeType = "" then "global" else deleted.scopeType
  scopeType = "global" || (page.scopeType = scopeType && page.scopeId = deleted.scopeId)

def refersTo (deleted page : WikiPage) : Bool :=
  (Like.contains page.contentMd ("[[" ++ deleted.slug ++ "]]") ||
    Like.contains page.contentMd ("[[" ++ deleted.slug ++ "|")) && inDeletedScope deleted page

/-- A row after the deletion of another page. -/
def scrubPage (deleted page : WikiPage) : WikiPage :=
  if refersTo deleted page ∧ page.id ≠ deleted.id then
    { page with contentMd := scrub deleted.slug page.contentMd }
  else page

def dropIncoming (pages : Table WikiPage) (deleted : WikiPage) (links : List WikiLink) :
    List WikiLink :=
  links.filter fun link => ¬ (link.toSlug = deleted.slug ∧
    ((if deleted.scopeType = "" then "global" else deleted.scopeType) = "global" ∨
      ∃ page ∈ pages, page.id = link.fromPageId ∧ inDeletedScope deleted page))

/-- Deletes the row. Revisions, links and drafts go with it, and with a draft its rounds and staged
reviews; ledger events keep their draft, and `held` are the pages that a publication, an audience
binding or a feedback signal keeps. -/
def deletePage (held : Uuid → Bool) (db : Database) (pageId : Uuid) : Transaction Database := do
  let dropped := (db.drafts.filter (·.pageId = some pageId)).map WikiPageDraft.id
  require (held pageId = false ∧ ∀ event ∈ db.ledger, event.draftId ∉ dropped)
    (.integrityError "wiki_pages_id_fkey")
  let kept := db.revisions.filter (·.pageId ≠ pageId)
  return { db with
    pages := db.pages.filter (·.id ≠ pageId),
    revisions := kept.map fun revision =>
      if revision.draftId.any (· ∈ dropped) then { revision with draftId := none } else revision,
    links := db.links.filter (·.fromPageId ≠ pageId),
    drafts := db.drafts.filter (·.pageId ≠ some pageId),
    rounds := db.rounds.filter (·.draftId ∉ dropped),
    preReviews := db.preReviews.filter (·.draftId ∉ dropped) }

def deletePageCascade (held : Uuid → Bool) (db : Database) (pageId : Uuid) :
    Transaction Database := do
  let page ← fetch "wiki_pages" db.pages pageId
  deletePage held { db with
    pages := db.pages.map (scrubPage page), links := dropIncoming db.pages page db.links } pageId

/-- One page of `detach_source_from_wiki`. -/
def detachSource (held : Uuid → Bool) (sourceId : Uuid) (db : Database) (pageId : Uuid) :
    Transaction Database := do
  let page ← fetch "wiki_pages" db.pages pageId
  let remaining := page.sourceIds.filter (· ≠ sourceId)
  if remaining = [] then deletePage held db pageId
  else return { db with pages := db.pages.put { page with sourceIds := remaining } }

def detachSourceFromWiki (held : Uuid → Bool) (db : Database) (sourceId : Uuid) :
    Transaction Database :=
  ((db.pages.filter fun page => sourceId ∈ page.sourceIds).map WikiPage.id).foldlM
    (detachSource held sourceId) db

end Cleanup

section Compiler

variable (env : Platform)

/-- The arguments of `apply_update`. -/
structure PageUpdate where
  slug : String
  newContentMd : String
  summary : Option String := none
  title : Option String := none
  addKnowledgeTypeSlug : Option String := none
  addSourceId : Option Uuid := none
  scopeType : String := "global"
  scopeId : Option Uuid := none
  status : Option String := none
  language : Option String := none

/-- `if added and added not in items: items.append(added)`. -/
def appendMissing {α : Type} [DecidableEq α] (items : List α) (added : Option α) : List α :=
  match added with
  | none => items
  | some a => if a ∈ items then items else items ++ [a]

/-- What the call reads before it writes. -/
def PageUpdate.read (update : PageUpdate) (pages : Table WikiPage) : Option WikiPage :=
  getPageBySlug env pages update.slug none update.scopeType update.scopeId update.language

/-- The write that follows the read. An empty knowledge type is none. -/
def PageUpdate.write (update : PageUpdate) (existing : Option WikiPage) : PageWrite :=
  { slug := update.slug, title := update.title, contentMd := update.newContentMd,
    summary := update.summary,
    knowledgeTypeSlugs := existing.map fun page =>
      appendMissing page.knowledgeTypeSlugs (update.addKnowledgeTypeSlug.filter (· ≠ "")),
    sourceIds := existing.map fun page => appendMissing page.sourceIds update.addSourceId,
    scopeType := update.scopeType, scopeId := update.scopeId, language := update.language,
    status := update.status, insertIfMissing := false }

/-- Nothing is inserted, so no identifier is drawn. -/
def applyUpdate (db : Database) (update : PageUpdate) : Transaction (Option WikiPage × Database) := do
  let (outcome, db) ← writePage env db 0 (update.write (update.read env db.pages))
  return (outcome.page, db)

/-- The write of `upsert_page`, whose arguments are those of the record without a version guard or
provenance. -/
def upsertPage (db : Database) (pageId : Uuid) (slug title contentMd summary : String)
    (knowledgeTypeSlugs : List String) (sourceIds : List Uuid) (scopeType : String)
    (scopeId : Option Uuid) (status language : Option String) :
    Transaction (WikiPage × Database) := do
  let (outcome, db) ← writePage env db pageId
    { slug := slug, title := some title, contentMd := contentMd, summary := some summary,
      knowledgeTypeSlugs := some knowledgeTypeSlugs, sourceIds := some sourceIds,
      scopeType := scopeType, scopeId := scopeId, language := language, status := status }
  match outcome.page with
  | some page => return (page, db)
  | none => throw (.runtimeError s!"upsert_page failed to materialize page '{slug}'")

end Compiler

section Reserved

variable (env : Platform)

def pageType (slug : String) : String :=
  if slug ∈ [indexSlug, logSlug, hotSlug] then String.ofList (slug.toList.dropWhile (· = '_'))
  else if "source/".toList.isPrefixOf slug.toList then "source"
  else "concept"

/-- `str.capitalize` of an ASCII word. -/
def capitalize (word : String) : String :=
  match word.toList with
  | [] => ""
  | c :: cs => String.ofList (c.toUpper :: cs.map Char.toLower)

def indexLine (page : WikiPage) : String :=
  "- [[" ++ page.slug ++ "|" ++ page.title ++ "]]" ++
    if page.summary = "" then "" else " — " ++ page.summary

/-- The listing of one group of pages. -/
def indexGroup (rows : List WikiPage) (type : String) : List String :=
  ["## " ++ capitalize type, ""] ++
    (rows.filter fun page => pageType page.slug = type).map indexLine ++ [""]

def indexContent (rows : List WikiPage) : String :=
  let types := Sequence.sortedBy id (rows.map fun page => pageType page.slug).eraseDups
  let lines := ["# Wiki Index", ""] ++
    if types = [] then ["_(empty — no pages yet)_"] else types.flatMap (indexGroup rows)
  String.ofList (("\n".intercalate lines).toList.rdropWhile isSpace) ++ "\n"

/-- `orderBy` is the order the database gives the rows, which depends on its collation. -/
def regenerateIndex (db : Database) (pageId : Uuid) (orderBy : List WikiPage → List WikiPage)
    (scopeType : String) (scopeId : Option Uuid) : Transaction (WikiPage × Database) := do
  let rows := orderBy (db.pages.filter fun page =>
    page.slug ∉ [indexSlug, logSlug, hotSlug] && page.scopeType = scopeType && page.scopeId = scopeId)
  let (outcome, db) ← writePage env db pageId
    { slug := indexSlug, title := some "Wiki Index", contentMd := indexContent rows,
      summary := some "Catalog of all wiki pages", knowledgeTypeSlugs := some [],
      sourceIds := some [], scopeType := scopeType, scopeId := scopeId }
  match outcome.page with
  | some page => return (page, db)
  | none => throw (.runtimeError s!"regenerate_index failed to materialize '{indexSlug}'")

/-- The log row a scope starts with. -/
def newLogPage (pageId : Uuid) (contentMd scopeType : String) (scopeId : Option Uuid) : WikiPage :=
  { id := pageId, slug := logSlug, title := "Wiki Log", status := "seed", contentMd := contentMd,
    summary := "Chronological activity log", scopeType := scopeType, scopeId := scopeId,
    language := normalizePageLanguage env none, normalizedPath := normalizePagePath env logSlug,
    version := 1 }

/-- One `INSERT ... ON CONFLICT DO UPDATE`. A row with the marker of an empty log starts anew. -/
def upsertLog (pages : Table WikiPage) (pageId : Uuid) (line scopeType : String)
    (scopeId : Option Uuid) : Transaction (WikiPage × Table WikiPage) :=
  let fresh := "# Wiki Log\n\n" ++ line ++ "\n"
  match lockPageByIdentity env pages logSlug scopeType scopeId none with
  | none => do
    let page := newLogPage env pageId fresh scopeType scopeId
    let pages ← pages.insert (.integrityError "wiki_pages_pkey") page
    return (page, pages)
  | some page =>
    let page := { page with
      contentMd := if Like.contains page.contentMd "_(empty" then fresh
        else page.contentMd ++ "\n\n" ++ line ++ "\n",
      version := page.version + 1 }
    return (page, pages.put page)

/-- `ts` is the current minute. -/
def appendLog (db : Database) (pageId : Uuid) (ts entry scopeType : String)
    (scopeId : Option Uuid) : Transaction (WikiPage × Database) := do
  let line := "## [" ++ ts ++ "] " ++ strip entry
  let (page, pages) ← upsertLog env db.pages pageId line scopeType scopeId
  let links := refreshLinks db.links page.id logSlug page.contentMd
  let revisions ← addRevision db.revisions
    { pageId := page.id, version := page.version, contentMd := page.contentMd,
      changeType := "agent_compile" }
  return (page, { db with pages := pages, revisions := revisions, links := links })

end Reserved

end Cygnus.Wiki
