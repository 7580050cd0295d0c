import Cygnus.Wiki.PageLaws

/-! The canonical identity of pages, and the store the database constraints and the write path
guarantee. -/

namespace Cygnus.Wiki

open Text Result

structure PageIdentity where
  scopeType : String
  scopeId : Option Uuid
  language : String
  path : String
  deriving DecidableEq

variable (env : Platform)

def pageIdentity (page : WikiPage) : PageIdentity :=
  ⟨page.scopeType, page.scopeId, page.language, normalizePagePath env page.slug⟩

def PageWrite.identity (write : PageWrite) : PageIdentity :=
  ⟨write.scopeType, write.scopeId, normalizePageLanguage env write.language,
    normalizePagePath env write.slug⟩

/-- Primary keys, the derived path column, the unique identity, and the foreign keys of revisions and
links. -/
structure WellFormed (db : Database) : Prop where
  keyed : db.pages.Keyed
  paths : ∀ page ∈ db.pages, page.normalizedPath = normalizePagePath env page.slug
  unique : ∀ page ∈ db.pages, ∀ other ∈ db.pages,
    pageIdentity env page = pageIdentity env other → page = other
  revisionsOwned : ∀ revision ∈ db.revisions, ∃ page ∈ db.pages, page.id = revision.pageId
  linksOwned : ∀ link ∈ db.links, ∃ page ∈ db.pages, page.id = link.fromPageId

variable {env} {db db' : Database} {pageId : Uuid} {write : PageWrite} {page : WikiPage}

@[simp] theorem normalizePagePath_strip (slug : String) :
    normalizePagePath env (strip slug) = normalizePagePath env slug := by
  rw [normalizePagePath, normalizePagePath, strip_strip]

theorem lockPageByIdentity_some (hwf : WellFormed env db)
    (h : lockPageByIdentity env db.pages (strip write.slug) write.scopeType write.scopeId
      write.language = some page) : page ∈ db.pages ∧ pageIdentity env page = write.identity env := by
  have hmem := List.mem_of_find?_eq_some h
  have hfound := List.find?_some h
  simp only [Bool.and_eq_true, decide_eq_true_eq, normalizePagePath_strip] at hfound
  obtain ⟨⟨⟨hscope, hlanguage⟩, hpath⟩, hid⟩ := hfound
  rw [hwf.paths page hmem] at hpath
  exact ⟨hmem, by rw [pageIdentity, PageWrite.identity, hscope, hlanguage, hpath, hid]⟩

theorem lockPageByIdentity_none (hwf : WellFormed env db)
    (h : lockPageByIdentity env db.pages (strip write.slug) write.scopeType write.scopeId
      write.language = none) : ∀ page ∈ db.pages, pageIdentity env page ≠ write.identity env := by
  intro page hmem heq
  rw [lockPageByIdentity, List.find?_eq_none] at h
  apply h page hmem
  rw [pageIdentity, PageWrite.identity, PageIdentity.mk.injEq] at heq
  obtain ⟨hscope, hid, hlanguage, hpath⟩ := heq
  simp [hscope, hid, hlanguage, hwf.paths page hmem, hpath]

theorem WellFormed.get_none (hwf : WellFormed env db) (h : db.pages.get pageId = none) :
    (∀ revision ∈ db.revisions, revision.pageId ≠ pageId) ∧
      ∀ link ∈ db.links, link.fromPageId ≠ pageId := by
  rw [Table.get_eq_none] at h
  constructor
  · rintro revision hrevision rfl
    obtain ⟨page, hpage, hid⟩ := hwf.revisionsOwned revision hrevision
    exact h page hpage hid
  · rintro link hlink rfl
    obtain ⟨page, hpage, hid⟩ := hwf.linksOwned link hlink
    exact h page hpage hid

theorem mem_refreshLinks {links : List WikiLink} {slug content : String} {link : WikiLink}
    (h : link ∈ refreshLinks links pageId slug content) :
    link ∈ links ∨ link.fromPageId = pageId := by
  rw [refreshLinks, List.mem_append] at h
  rcases h with h | h
  · exact .inl (List.mem_of_mem_filter h)
  · obtain ⟨target, -, rfl⟩ := List.mem_map.mp h
    exact .inr rfl

theorem newPage_identity (title : String) :
    pageIdentity env (write.newPage env pageId (strip write.slug) title) = write.identity env := by
  simp [pageIdentity, PageWrite.newPage, PageWrite.identity]

theorem WellFormed.insert (hwf : WellFormed env db) {outcome : PageWriteOutcome} {title : String}
    (hnone : ∀ page ∈ db.pages, pageIdentity env page ≠ write.identity env)
    (h : Inserts env db pageId write (strip write.slug) title outcome db') :
    WellFormed env db' := by
  have hidentity := @newPage_identity env pageId write title
  constructor
  · rw [h.pages_eq]
    exact hwf.keyed.append h.idFree
  · intro page hpage
    rw [h.pages_eq, List.mem_append, List.mem_singleton] at hpage
    rcases hpage with hpage | rfl
    · exact hwf.paths page hpage
    · rfl
  · intro page hpage other hother heq
    rw [h.pages_eq, List.mem_append, List.mem_singleton] at hpage hother
    rcases hpage with hpage | rfl <;> rcases hother with hother | rfl
    · exact hwf.unique page hpage other hother heq
    · exact absurd (heq.trans hidentity) (hnone page hpage)
    · exact absurd (heq.symm.trans hidentity) (hnone other hother)
    · rfl
  · intro revision hrevision
    rw [h.revisions_eq, List.mem_append, List.mem_singleton] at hrevision
    rw [h.pages_eq]
    rcases hrevision with hrevision | rfl
    · obtain ⟨page, hpage, hid⟩ := hwf.revisionsOwned revision hrevision
      exact ⟨page, List.mem_append_left _ hpage, hid⟩
    · exact ⟨_, List.mem_append_right _ List.mem_cons_self, rfl⟩
  · intro link hlink
    rw [h.links_eq] at hlink
    rw [h.pages_eq]
    rcases mem_refreshLinks hlink with hlink | hlink
    · obtain ⟨page, hpage, hid⟩ := hwf.linksOwned link hlink
      exact ⟨page, List.mem_append_left _ hpage, hid⟩
    · exact ⟨_, List.mem_append_right _ List.mem_cons_self, hlink.symm⟩

end Cygnus.Wiki
