import Cygnus.Wiki.Page

namespace Cygnus.Wiki

open Text Result

variable {env : Platform} {db db' : Database} {pageId : Uuid} {write : PageWrite}
  {outcome : PageWriteOutcome} {page : WikiPage} {slug title : String}

/-- Only pages, revisions and links differ. -/
structure PageFrame (db db' : Database) : Prop where
  drafts : db'.drafts = db.drafts
  rounds : db'.rounds = db.rounds
  preReviews : db'.preReviews = db.preReviews
  branches : db'.branches = db.branches
  ledger : db'.ledger = db.ledger
  sources : db'.sources = db.sources
  sourceDepartments : db'.sourceDepartments = db.sourceDepartments

theorem PageFrame.refl (db : Database) : PageFrame db db := ⟨rfl, rfl, rfl, rfl, rfl, rfl, rfl⟩

theorem addRevision_ok {revisions revisions' : List WikiPageRevision} {revision : WikiPageRevision}
    (h : addRevision revisions revision = .ok revisions') :
    (∀ r ∈ revisions, ¬ (r.pageId = revision.pageId ∧ r.version = revision.version)) ∧
      revisions' = revisions ++ [revision] := by
  simp only [addRevision, bind_ok, require_ok, pure_ok] at h
  obtain ⟨-, hfree, rfl⟩ := h
  exact ⟨hfree, rfl⟩

/-- What an insert adds. -/
structure Inserts (env : Platform) (db : Database) (pageId : Uuid) (write : PageWrite)
    (slug title : String) (outcome : PageWriteOutcome) (db' : Database) : Prop where
  idFree : db.pages.get pageId = none
  page_eq : outcome.page = some (write.newPage env pageId slug title)
  pages_eq : db'.pages = db.pages ++ [write.newPage env pageId slug title]
  revisions_eq : db'.revisions = db.revisions ++ [write.revision pageId 1]
  links_eq : db'.links = refreshLinks db.links pageId slug write.contentMd
  frame : PageFrame db db'

theorem insertPage_ok (h : insertPage env db pageId write slug title = .ok (outcome, db')) :
    Inserts env db pageId write slug title outcome db' := by
  simp only [insertPage, bind_ok, pure_ok, Prod.mk.injEq] at h
  obtain ⟨pages, hpages, revisions, hrevisions, rfl, rfl⟩ := h
  obtain ⟨hfree, rfl⟩ := Table.insert_ok hpages
  obtain ⟨-, rfl⟩ := addRevision_ok hrevisions
  exact ⟨hfree, rfl, rfl, rfl, rfl, ⟨rfl, rfl, rfl, rfl, rfl, rfl, rfl⟩⟩

/-- What a write of content other than the stored one does to the page. -/
structure Updates (db : Database) (page : WikiPage) (write : PageWrite) (slug : String)
    (outcome : PageWriteOutcome) (db' : Database) : Prop where
  page_eq : outcome.page = some (write.applyTo page)
  pages_eq : db'.pages = db.pages.put (write.applyTo page)
  revisions_eq : db'.revisions = db.revisions ++ [write.revision page.id (page.version + 1)]
  links_eq : db'.links = refreshLinks db.links page.id slug write.contentMd
  frame : PageFrame db db'

theorem updatePage_ok (h : updatePage db page write slug = .ok (outcome, db')) :
    (isExactRetry page write ∧ outcome.page = some page ∧ db' = db) ∨
      Updates db page write slug outcome db' := by
  simp only [updatePage, bind_ok] at h
  obtain ⟨-, -, h⟩ := h
  split at h
  · rename_i hretry
    simp only [pure_ok, Prod.mk.injEq] at h
    obtain ⟨rfl, rfl⟩ := h
    exact .inl ⟨hretry, rfl, rfl⟩
  · simp only [bind_ok, pure_ok, Prod.mk.injEq] at h
    obtain ⟨revisions, hrevisions, rfl, rfl⟩ := h
    obtain ⟨-, rfl⟩ := addRevision_ok hrevisions
    exact .inr ⟨rfl, rfl, rfl, rfl, ⟨rfl, rfl, rfl, rfl, rfl, rfl, rfl⟩⟩

/-- The write path in its four outcomes. -/
theorem writePage_ok (h : writePage env db pageId write = .ok (outcome, db')) :
    (∃ page, lockPageByIdentity env db.pages (strip write.slug) write.scopeType write.scopeId
        write.language = some page ∧
      ((isExactRetry page write ∧ outcome.page = some page ∧ db' = db) ∨
        Updates db page write (strip write.slug) outcome db')) ∨
    (lockPageByIdentity env db.pages (strip write.slug) write.scopeType write.scopeId
        write.language = none ∧
      ((write.insertIfMissing = false ∧ outcome.page = none ∧ db' = db) ∨
        Inserts env db pageId write (strip write.slug) (write.title.getD "") outcome db')) := by
  simp only [writePage, bind_ok] at h
  obtain ⟨-, -, -, -, h⟩ := h
  split at h
  · rename_i page hlock
    exact .inl ⟨page, hlock, updatePage_ok h⟩
  · rename_i hlock
    right
    refine ⟨hlock, ?_⟩
    split at h
    · exact .inr (insertPage_ok h)
    · rename_i hmissing
      simp only [pure_ok, Prod.mk.injEq] at h
      obtain ⟨rfl, rfl⟩ := h
      exact .inl ⟨by simpa using hmissing, rfl, rfl⟩

theorem writePage_frame (h : writePage env db pageId write = .ok (outcome, db')) :
    PageFrame db db' := by
  rcases writePage_ok h with ⟨page, -, ⟨-, -, rfl⟩ | hupdate⟩ | ⟨-, ⟨-, -, rfl⟩ | hinsert⟩
  · exact .refl _
  · exact hupdate.frame
  · exact .refl _
  · exact hinsert.frame

theorem applyCreate_ok {contentMd summary scopeType : String} {ktSlugs : List String}
    {sourceIds : List Uuid} {scopeId : Option Uuid} {language : Option String}
    (h : applyCreate env db pageId slug title contentMd summary ktSlugs sourceIds scopeType scopeId
      language = .ok (page, db')) :
    ∃ outcome, outcome.page = some page ∧ writePage env db pageId
      { slug := slug, title := some title, contentMd := contentMd, summary := some summary,
        knowledgeTypeSlugs := some ktSlugs, sourceIds := some sourceIds, scopeType := scopeType,
        scopeId := scopeId, language := language, status := some "seed" } = .ok (outcome, db') := by
  simp only [applyCreate, bind_ok] at h
  obtain ⟨⟨outcome, after⟩, hwrite, h⟩ := h
  dsimp only at h
  split at h
  · rename_i created hcreated
    simp only [pure_ok, Prod.mk.injEq] at h
    obtain ⟨rfl, rfl⟩ := h
    exact ⟨outcome, hcreated, hwrite⟩
  · simp at h

end Cygnus.Wiki
