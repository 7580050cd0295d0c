import Cygnus.Wiki.Service
import Cygnus.Wiki.Store
import Mathlib.Data.List.Range

/-! What the page operations do to the pages and their revisions, and the store they keep. -/

namespace Cygnus.Wiki

open Text Result

/-- The versions a page has had, with their contents. -/
def history (db : Database) (pageId : Uuid) : List (Nat × String) :=
  (db.revisions.filter (·.pageId = pageId)).map fun revision => (revision.version, revision.contentMd)

/-- Lowering is idempotent on trimmed texts and keeps the default language. -/
structure LawfulLower (env : Platform) : Prop where
  idem : ∀ s, env.lower (strip (env.lower (strip s))) = env.lower (strip s)
  default : env.lower defaultPageLanguage = defaultPageLanguage

/-- A row in the form in which the write path finds it again. -/
structure Canonical (env : Platform) (page : WikiPage) : Prop where
  slug : Stripped page.slug
  language : normalizePageLanguage env (some page.language) = page.language
  scopeType : page.scopeType ≠ ""

/-- Two rows of one page: only what a write may set differs. -/
structure SamePage (page page' : WikiPage) : Prop where
  id : page'.id = page.id
  slug : page'.slug = page.slug
  normalizedPath : page'.normalizedPath = page.normalizedPath
  scopeType : page'.scopeType = page.scopeType
  scopeId : page'.scopeId = page.scopeId
  language : page'.language = page.language

/-- Some pages are gone with their revisions and links; the others keep version and content. -/
structure Retains (keep : Uuid → Bool) (f : WikiPage → WikiPage) (db db' : Database) : Prop where
  pages : db'.pages = (db.pages.filter fun page => keep page.id).map f
  same : ∀ page ∈ db.pages, SamePage page (f page)
  version : ∀ page ∈ db.pages, (f page).version = page.version
  content : ∀ page ∈ db.pages, (f page).contentMd = page.contentMd
  history_eq : ∀ id, history db' id = if keep id then history db id else []
  links : ∀ link ∈ db'.links, link ∈ db.links ∧ keep link.fromPageId

/-- A page is new, at version one. -/
structure Adds (env : Platform) (page : WikiPage) (db db' : Database) : Prop where
  idFree : db.pages.get page.id = none
  identityFree : ∀ other ∈ db.pages, pageIdentity env other ≠ pageIdentity env page
  path : page.normalizedPath = normalizePagePath env page.slug
  canonical : Canonical env page
  version : page.version = 1
  pages : db'.pages = db.pages ++ [page]
  history_eq : ∀ id, history db' id =
    history db id ++ if page.id = id then [(1, page.contentMd)] else []
  links : ∀ link ∈ db'.links, link ∈ db.links ∨ link.fromPageId = page.id

/-- A page is at its next version. -/
structure Revises (page page' : WikiPage) (db db' : Database) : Prop where
  mem : page ∈ db.pages
  same : SamePage page page'
  version : page'.version = page.version + 1
  pages : db'.pages = db.pages.put page'
  history_eq : ∀ id, history db' id =
    history db id ++ if page.id = id then [(page.version + 1, page'.contentMd)] else []
  links : ∀ link ∈ db'.links, link ∈ db.links ∨ link.fromPageId = page.id

inductive Effect (env : Platform) (db db' : Database) : Prop
  | retains (keep : Uuid → Bool) (f : WikiPage → WikiPage) (h : Retains keep f db db')
  | adds (page : WikiPage) (h : Adds env page db db')
  | revises (page page' : WikiPage) (h : Revises page page' db db')

/-- The database constraints hold, rows are canonical, and the revisions of a page are its versions
from the first to the current one. -/
structure Stored (env : Platform) (db : Database) : Prop where
  wellFormed : WellFormed env db
  canonical : ∀ page ∈ db.pages, Canonical env page
  versions : ∀ page ∈ db.pages, (history db page.id).map Prod.fst = List.range' 1 page.version
  latest : ∀ page ∈ db.pages, (page.version, page.contentMd) ∈ history db page.id

variable {env : Platform} {db db' : Database} {page page' : WikiPage} {pageId : Uuid}
  {write : PageWrite}

section Identity

theorem SamePage.refl (page : WikiPage) : SamePage page page := ⟨rfl, rfl, rfl, rfl, rfl, rfl⟩

theorem SamePage.trans {page'' : WikiPage} (h : SamePage page page') (h' : SamePage page' page'') :
    SamePage page page'' :=
  ⟨h'.id.trans h.id, h'.slug.trans h.slug, h'.normalizedPath.trans h.normalizedPath,
    h'.scopeType.trans h.scopeType, h'.scopeId.trans h.scopeId, h'.language.trans h.language⟩

theorem SamePage.symm (h : SamePage page page') : SamePage page' page :=
  ⟨h.id.symm, h.slug.symm, h.normalizedPath.symm, h.scopeType.symm, h.scopeId.symm, h.language.symm⟩

theorem SamePage.identity (h : SamePage page page') : pageIdentity env page' = pageIdentity env page := by
  rw [pageIdentity, pageIdentity, h.scopeType, h.scopeId, h.language, h.slug]

theorem SamePage.canonical (h : SamePage page page') (hc : Canonical env page) :
    Canonical env page' := by
  constructor
  · rw [h.slug]
    exact hc.slug
  · rw [h.language]
    exact hc.language
  · rw [h.scopeType]
    exact hc.scopeType

theorem normalizePageLanguage_some {language : String} (h : language ≠ "") :
    normalizePageLanguage env (some language) =
      if env.lower (strip language) = "" then defaultPageLanguage else env.lower (strip language) := by
  unfold normalizePageLanguage
  split
  · rename_i heq
    cases heq
  · rename_i heq
    exact absurd (Option.some.inj heq) h
  · rename_i heq
    cases heq
    rfl

theorem normalizePageLanguage_cases (language : Option String) :
    normalizePageLanguage env language = defaultPageLanguage ∨
      ∃ raw, normalizePageLanguage env language = env.lower (strip raw) ∧ env.lower (strip raw) ≠ "" := by
  obtain ⟨raw, hraw⟩ : ∃ raw, normalizePageLanguage env language =
      if env.lower (strip raw) = "" then defaultPageLanguage else env.lower (strip raw) := ⟨_, rfl⟩
  rw [hraw]
  split
  · exact .inl rfl
  · rename_i hne
    exact .inr ⟨raw, rfl, hne⟩

theorem normalizePageLanguage_idem (hlower : LawfulLower env) (language : Option String) :
    normalizePageLanguage env (some (normalizePageLanguage env language)) =
      normalizePageLanguage env language := by
  rcases @normalizePageLanguage_cases env language with heq | ⟨raw, heq, hne⟩
  · have hdefault : strip defaultPageLanguage = defaultPageLanguage := by decide
    rw [heq, normalizePageLanguage_some (by decide), hdefault, hlower.default, if_neg (by decide)]
  · rw [heq, normalizePageLanguage_some hne, hlower.idem, if_neg hne]

end Identity

section History

theorem mem_history {entry : Nat × String} : entry ∈ history db pageId ↔
    ∃ revision ∈ db.revisions, revision.pageId = pageId ∧
      (revision.version, revision.contentMd) = entry := by
  simp [history, and_assoc]

theorem WellFormed.history_nil (hwf : WellFormed env db) (h : db.pages.get pageId = none) :
    history db pageId = [] := by
  rw [List.eq_nil_iff_forall_not_mem]
  intro entry hentry
  obtain ⟨revision, hrevision, hid, -⟩ := mem_history.mp hentry
  exact (hwf.get_none h).1 revision hrevision hid

theorem history_append {revision : WikiPageRevision}
    (h : db'.revisions = db.revisions ++ [revision]) (id : Uuid) :
    history db' id = history db id ++
      if revision.pageId = id then [(revision.version, revision.contentMd)] else [] := by
  rw [history, history, h, List.filter_append, List.map_append]
  congr 1
  by_cases hid : revision.pageId = id <;> simp [hid]

/-- Provenance may change without the history doing so. -/
theorem history_map {revise : WikiPageRevision → WikiPageRevision}
    (h : db'.revisions = db.revisions.map revise)
    (hid : ∀ revision, (revise revision).pageId = revision.pageId)
    (hversion : ∀ revision, (revise revision).version = revision.version)
    (hcontent : ∀ revision, (revise revision).contentMd = revision.contentMd) (id : Uuid) :
    history db' id = history db id := by
  rw [history, history, h, List.filter_map, List.map_map]
  have hfilter : (fun revision => decide (revision.pageId = id)) ∘ revise =
      fun revision => decide (revision.pageId = id) := by
    funext revision
    rw [Function.comp_apply, hid]
  have hentry : (fun revision => (revision.version, revision.contentMd)) ∘ revise =
      fun revision => (revision.version, revision.contentMd) := by
    funext revision
    rw [Function.comp_apply, hversion, hcontent]
  rw [hfilter, hentry]

theorem history_filter (keep : Uuid → Bool)
    (h : db'.revisions = db.revisions.filter fun revision => keep revision.pageId) (id : Uuid) :
    history db' id = if keep id then history db id else [] := by
  rw [history, history, h, List.filter_filter]
  split
  · rename_i hkeep
    congr 1
    apply List.filter_congr
    intro revision _
    by_cases hid : revision.pageId = id <;> simp [hid, hkeep]
  · rename_i hkeep
    rw [List.map_eq_nil_iff, List.filter_eq_nil_iff]
    intro revision _ heq
    rw [Bool.and_eq_true, decide_eq_true_eq] at heq
    exact hkeep (heq.1 ▸ heq.2)

end History

section Effects

theorem Retains.of_pages (hpages : db'.pages = db.pages)
    (hhistory : ∀ id, history db' id = history db id) (hlinks : db'.links = db.links) :
    Retains (fun _ => true) id db db' := by
  refine ⟨by simp [hpages], fun page _ => .refl page, fun _ _ => rfl, fun _ _ => rfl, ?_, ?_⟩
  · intro id
    rw [if_pos rfl]
    exact hhistory id
  · intro link hlink
    rw [hlinks] at hlink
    exact ⟨hlink, rfl⟩

theorem Effect.refl (db : Database) : Effect env db db :=
  .retains _ _ (.of_pages rfl (fun _ => rfl) rfl)

theorem Retains.trans {keep keep' : Uuid → Bool} {f g : WikiPage → WikiPage} {db'' : Database}
    (h : Retains keep f db db') (h' : Retains keep' g db' db'') :
    Retains (fun id => keep id && keep' id) (fun page => if keep page.id then g (f page) else page)
      db db'' := by
  have hmem : ∀ page ∈ db.pages, keep page.id = true → f page ∈ db'.pages := by
    intro page hpage hkeep
    rw [h.pages]
    exact List.mem_map_of_mem (List.mem_filter.mpr ⟨hpage, hkeep⟩)
  constructor
  · rw [h'.pages, h.pages, List.filter_map, List.map_map, List.filter_filter]
    have hfilter : db.pages.filter (fun page => (((fun page => keep' page.id) ∘ f) page && keep page.id)) =
        db.pages.filter (fun page => keep page.id && keep' page.id) := by
      apply List.filter_congr
      intro page hpage
      rw [Function.comp_apply, (h.same page hpage).id, Bool.and_comm]
    rw [hfilter]
    apply List.map_congr_left
    intro page hpage
    have hkeep := (List.mem_filter.mp hpage).2
    rw [Bool.and_eq_true] at hkeep
    rw [Function.comp_apply, if_pos hkeep.1]
  · intro page hpage
    split
    · rename_i hkeep
      exact (h.same page hpage).trans (h'.same _ (hmem page hpage hkeep))
    · exact .refl page
  · intro page hpage
    split
    · rename_i hkeep
      exact (h'.version _ (hmem page hpage hkeep)).trans (h.version page hpage)
    · rfl
  · intro page hpage
    split
    · rename_i hkeep
      exact (h'.content _ (hmem page hpage hkeep)).trans (h.content page hpage)
    · rfl
  · intro id
    rw [h'.history_eq, h.history_eq]
    by_cases hkeep : keep id <;> by_cases hkeep' : keep' id <;> simp [hkeep, hkeep']
  · intro link hlink
    obtain ⟨hlink, hkeep'⟩ := h'.links link hlink
    obtain ⟨hlink, hkeep⟩ := h.links link hlink
    exact ⟨hlink, by rw [hkeep, hkeep']; rfl⟩

/-- An effect shows in pages, links and histories only. -/
theorem Effect.congr {after after' : Database} (h : Effect env db after)
    (hpages : after'.pages = after.pages) (hlinks : after'.links = after.links)
    (hhistory : ∀ id, history after' id = history after id) : Effect env db after' := by
  cases h with
  | retains keep f h =>
    exact .retains keep f ⟨hpages.trans h.pages, h.same, h.version, h.content,
      fun id => (hhistory id).trans (h.history_eq id), fun link hlink => h.links link (hlinks ▸ hlink)⟩
  | adds page h =>
    exact .adds page ⟨h.idFree, h.identityFree, h.path, h.canonical, h.version, hpages.trans h.pages,
      fun id => (hhistory id).trans (h.history_eq id), fun link hlink => h.links link (hlinks ▸ hlink)⟩
  | revises page page' h =>
    exact .revises page page' ⟨h.mem, h.same, h.version, hpages.trans h.pages,
      fun id => (hhistory id).trans (h.history_eq id), fun link hlink => h.links link (hlinks ▸ hlink)⟩

end Effects

section Stored

theorem WellFormed.of_history (hkeyed : db.pages.Keyed)
    (hpaths : ∀ page ∈ db.pages, page.normalizedPath = normalizePagePath env page.slug)
    (hunique : ∀ page ∈ db.pages, ∀ other ∈ db.pages,
      pageIdentity env page = pageIdentity env other → page = other)
    (hhistory : ∀ id, history db id ≠ [] → ∃ page ∈ db.pages, page.id = id)
    (hlinks : ∀ link ∈ db.links, ∃ page ∈ db.pages, page.id = link.fromPageId) :
    WellFormed env db := by
  refine ⟨hkeyed, hpaths, hunique, ?_, hlinks⟩
  intro revision hrevision
  apply hhistory
  exact List.ne_nil_of_mem (mem_history.mpr ⟨revision, hrevision, rfl, rfl⟩)

theorem WellFormed.exists_of_history (hwf : WellFormed env db) (h : history db pageId ≠ []) :
    ∃ page ∈ db.pages, page.id = pageId := by
  obtain ⟨entry, hentry⟩ := List.exists_mem_of_ne_nil _ h
  obtain ⟨revision, hrevision, rfl, -⟩ := mem_history.mp hentry
  exact hwf.revisionsOwned revision hrevision

variable {keep : Uuid → Bool} {f : WikiPage → WikiPage}

theorem Retains.mem (h : Retains keep f db db') (hpage : page' ∈ db'.pages) :
    ∃ page ∈ db.pages, keep page.id ∧ f page = page' := by
  rw [h.pages, List.mem_map] at hpage
  obtain ⟨page, hpage, rfl⟩ := hpage
  obtain ⟨hmem, hkeep⟩ := List.mem_filter.mp hpage
  exact ⟨page, hmem, hkeep, rfl⟩

theorem Retains.map_mem (h : Retains keep f db db') (hpage : page ∈ db.pages) (hkeep : keep page.id) :
    f page ∈ db'.pages := by
  rw [h.pages]
  exact List.mem_map_of_mem (List.mem_filter.mpr ⟨hpage, hkeep⟩)

theorem Retains.keyed (h : Retains keep f db db') (hkeyed : db.pages.Keyed) : db'.pages.Keyed := by
  have hkeys : db'.pages.map Row.key = (db.pages.filter fun page => keep page.id).map Row.key := by
    rw [h.pages, List.map_map]
    apply List.map_congr_left
    intro page hpage
    exact (h.same page (List.mem_of_mem_filter hpage)).id
  rw [Table.Keyed, hkeys]
  exact hkeyed.nodup_keys_filter _

theorem Retains.stored (h : Retains keep f db db') (hs : Stored env db) : Stored env db' := by
  have howner : ∀ {id}, keep id = true → (∃ page ∈ db.pages, page.id = id) →
      ∃ page ∈ db'.pages, page.id = id := by
    rintro id hkeep ⟨page, hpage, rfl⟩
    exact ⟨f page, h.map_mem hpage hkeep, (h.same page hpage).id⟩
  constructor
  · refine .of_history (h.keyed hs.wellFormed.keyed) ?_ ?_ ?_ ?_
    · intro page' hpage'
      obtain ⟨page, hpage, -, rfl⟩ := h.mem hpage'
      rw [(h.same page hpage).normalizedPath, (h.same page hpage).slug]
      exact hs.wellFormed.paths page hpage
    · intro page' hpage' other' hother' heq
      obtain ⟨page, hpage, -, rfl⟩ := h.mem hpage'
      obtain ⟨other, hother, -, rfl⟩ := h.mem hother'
      rw [(h.same page hpage).identity, (h.same other hother).identity] at heq
      rw [hs.wellFormed.unique page hpage other hother heq]
    · intro id hne
      rw [h.history_eq] at hne
      split at hne
      · rename_i hkeep
        exact howner hkeep (hs.wellFormed.exists_of_history hne)
      · exact absurd rfl hne
    · intro link hlink
      obtain ⟨hold, hkeep⟩ := h.links link hlink
      exact howner hkeep (hs.wellFormed.linksOwned link hold)
  · intro page' hpage'
    obtain ⟨page, hpage, -, rfl⟩ := h.mem hpage'
    exact (h.same page hpage).canonical (hs.canonical page hpage)
  · intro page' hpage'
    obtain ⟨page, hpage, hkeep, rfl⟩ := h.mem hpage'
    rw [(h.same page hpage).id, h.history_eq, if_pos hkeep, h.version page hpage]
    exact hs.versions page hpage
  · intro page' hpage'
    obtain ⟨page, hpage, hkeep, rfl⟩ := h.mem hpage'
    rw [(h.same page hpage).id, h.history_eq, if_pos hkeep, h.version page hpage,
      h.content page hpage]
    exact hs.latest page hpage

theorem Adds.stored (h : Adds env page db db') (hs : Stored env db) : Stored env db' := by
  have hmem : ∀ {other}, other ∈ db'.pages → other ∈ db.pages ∨ other = page := by
    intro other hother
    rw [h.pages, List.mem_append, List.mem_singleton] at hother
    exact hother
  have hold : ∀ {other}, other ∈ db.pages → other ∈ db'.pages := by
    intro other hother
    rw [h.pages]
    exact List.mem_append_left _ hother
  have hnew : page ∈ db'.pages := by
    rw [h.pages]
    exact List.mem_append_right _ List.mem_cons_self
  have hne : ∀ {other}, other ∈ db.pages → page.id ≠ other.id := by
    intro other hother heq
    exact (Table.get_eq_none.mp h.idFree) other hother heq.symm
  constructor
  · refine .of_history ?_ ?_ ?_ ?_ ?_
    · rw [h.pages]
      exact hs.wellFormed.keyed.append h.idFree
    · intro other hother
      rcases hmem hother with hother | rfl
      · exact hs.wellFormed.paths other hother
      · exact h.path
    · intro first hfirst second hsecond heq
      rcases hmem hfirst with hfirst | rfl <;> rcases hmem hsecond with hsecond | rfl
      · exact hs.wellFormed.unique first hfirst second hsecond heq
      · exact absurd heq (h.identityFree first hfirst)
      · exact absurd heq.symm (h.identityFree second hsecond)
      · rfl
    · intro id hne
      by_cases hid : page.id = id
      · exact ⟨page, hnew, hid⟩
      · rw [h.history_eq, if_neg hid, List.append_nil] at hne
        obtain ⟨other, hother, heq⟩ := hs.wellFormed.exists_of_history hne
        exact ⟨other, hold hother, heq⟩
    · intro link hlink
      rcases h.links link hlink with hlink | hlink
      · obtain ⟨other, hother, heq⟩ := hs.wellFormed.linksOwned link hlink
        exact ⟨other, hold hother, heq⟩
      · exact ⟨page, hnew, hlink.symm⟩
  · intro other hother
    rcases hmem hother with hother | rfl
    · exact hs.canonical other hother
    · exact h.canonical
  · intro other hother
    rcases hmem hother with hother | rfl
    · rw [h.history_eq, if_neg (hne hother), List.append_nil]
      exact hs.versions other hother
    · rw [h.history_eq, hs.wellFormed.history_nil h.idFree, if_pos rfl, h.version]
      rfl
  · intro other hother
    rcases hmem hother with hother | rfl
    · rw [h.history_eq, if_neg (hne hother), List.append_nil]
      exact hs.latest other hother
    · rw [h.history_eq, if_pos rfl, h.version]
      exact List.mem_append_right _ List.mem_cons_self

theorem Revises.stored (h : Revises page page' db db') (hs : Stored env db) : Stored env db' := by
  have hget : db.pages.get page'.id = some page := by
    rw [h.same.id]
    exact hs.wellFormed.keyed.get_of_mem h.mem
  have hmem : ∀ {other}, other ∈ db'.pages → other = page' ∨ other ∈ db.pages ∧ other.id ≠ page.id := by
    intro other hother
    rw [h.pages] at hother
    rcases Table.mem_put hother with heq | ⟨hold, hne⟩
    · exact .inl heq
    · refine .inr ⟨hold, ?_⟩
      rw [← h.same.id]
      exact hne
  have hnew : page' ∈ db'.pages := by
    rw [h.pages]
    exact Table.mem_put_self hget
  have howner : ∀ {id}, (∃ other ∈ db.pages, other.id = id) → ∃ other ∈ db'.pages, other.id = id := by
    rintro id ⟨other, hother, rfl⟩
    by_cases heq : other.id = page.id
    · exact ⟨page', hnew, h.same.id.trans heq.symm⟩
    · refine ⟨other, ?_, rfl⟩
      rw [h.pages]
      refine List.mem_map.mpr ⟨other, hother, if_neg ?_⟩
      show other.id ≠ page'.id
      rw [h.same.id]
      exact heq
  constructor
  · refine .of_history ?_ ?_ ?_ ?_ ?_
    · rw [h.pages]
      exact hs.wellFormed.keyed.put page'
    · intro other hother
      rcases hmem hother with rfl | ⟨hother, -⟩
      · rw [h.same.normalizedPath, h.same.slug]
        exact hs.wellFormed.paths page h.mem
      · exact hs.wellFormed.paths other hother
    · intro first hfirst second hsecond heq
      rcases hmem hfirst with rfl | ⟨hfirst, hne⟩ <;> rcases hmem hsecond with rfl | ⟨hsecond, hne'⟩
      · rfl
      · rw [h.same.identity] at heq
        rw [hs.wellFormed.unique page h.mem second hsecond heq] at hne'
        exact absurd rfl hne'
      · rw [h.same.identity] at heq
        rw [hs.wellFormed.unique first hfirst page h.mem heq] at hne
        exact absurd rfl hne
      · exact hs.wellFormed.unique first hfirst second hsecond heq
    · intro id hne
      by_cases hid : page.id = id
      · exact ⟨page', hnew, h.same.id.trans hid⟩
      · rw [h.history_eq, if_neg hid, List.append_nil] at hne
        exact howner (hs.wellFormed.exists_of_history hne)
    · intro link hlink
      rcases h.links link hlink with hlink | hlink
      · exact howner (hs.wellFormed.linksOwned link hlink)
      · exact ⟨page', hnew, h.same.id.trans hlink.symm⟩
  · intro other hother
    rcases hmem hother with rfl | ⟨hother, -⟩
    · exact h.same.canonical (hs.canonical page h.mem)
    · exact hs.canonical other hother
  · intro other hother
    rcases hmem hother with rfl | ⟨hother, hne⟩
    · rw [h.same.id, h.history_eq, if_pos rfl, List.map_append, hs.versions page h.mem, h.version,
        List.range'_concat, Nat.one_mul, Nat.add_comm 1]
      rfl
    · rw [h.history_eq, if_neg (Ne.symm hne), List.append_nil]
      exact hs.versions other hother
  · intro other hother
    rcases hmem hother with rfl | ⟨hother, hne⟩
    · rw [h.same.id, h.history_eq, if_pos rfl, h.version]
      exact List.mem_append_right _ List.mem_cons_self
    · rw [h.history_eq, if_neg (Ne.symm hne), List.append_nil]
      exact hs.latest other hother

theorem Effect.stored (h : Effect env db db') (hs : Stored env db) : Stored env db' := by
  cases h with
  | retains keep f h => exact h.stored hs
  | adds page h => exact h.stored hs
  | revises page page' h => exact h.stored hs

/-- Versions only grow, and what is recorded of a page stays while the page does. -/
theorem Effect.grows (h : Effect env db db') (hs : Stored env db)
    (hpage : db.pages.get pageId = some page) (hpage' : db'.pages.get pageId = some page') :
    page.version ≤ page'.version ∧ history db pageId <+: history db' pageId := by
  have hkey := Table.get_key hpage'
  cases h with
  | retains keep f h =>
    obtain ⟨old, hold, hkeep, rfl⟩ := h.mem (Table.get_mem hpage')
    have hid : old.id = pageId := (h.same old hold).id.symm.trans hkey
    have heq : old = page := by
      have hget := hs.wellFormed.keyed.get_of_mem hold
      rw [show Row.key old = pageId from hid, hpage] at hget
      exact (Option.some.inj hget).symm
    rw [h.history_eq, ← hid, if_pos hkeep, h.version old hold, heq]
    exact ⟨Nat.le_refl _, List.prefix_rfl⟩
  | adds new h =>
    have hget : db'.pages.get pageId = some page := by
      rw [h.pages]
      exact Table.get_append_of_some hpage
    rw [hget] at hpage'
    cases hpage'
    rw [h.history_eq]
    exact ⟨Nat.le_refl _, List.prefix_append _ _⟩
  | revises old new h =>
    refine ⟨?_, ?_⟩
    · rw [h.pages, Table.get_put] at hpage'
      split at hpage'
      · rename_i hid
        rw [hpage] at hpage'
        cases hpage'
        have hold := hs.wellFormed.keyed.get_of_mem h.mem
        rw [show Row.key old = pageId from h.same.id.symm.trans hid, hpage] at hold
        cases hold
        rw [h.version]
        exact Nat.le_succ _
      · rw [hpage] at hpage'
        cases hpage'
        exact Nat.le_refl _
    · rw [h.history_eq]
      exact List.prefix_append _ _

end Stored

end Cygnus.Wiki
