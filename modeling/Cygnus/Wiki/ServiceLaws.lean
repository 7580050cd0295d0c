import Cygnus.Wiki.Effects

/-! What each page operation does, as an effect on pages and revisions. -/

namespace Cygnus.Wiki

open Text Result

variable {env : Platform} {db db' : Database} {page : WikiPage} {pageId : Uuid} {write : PageWrite}
  {outcome : PageWriteOutcome}

section Writes

theorem writePage_slug (h : writePage env db pageId write = .ok (outcome, db')) :
    strip write.slug ≠ "" := by
  simp only [writePage, bind_ok, require_ok] at h
  obtain ⟨-, hslug, -⟩ := h
  exact hslug

theorem applyTo_samePage (write : PageWrite) (page : WikiPage) : SamePage page (write.applyTo page) :=
  ⟨rfl, rfl, rfl, rfl, rfl, rfl⟩

theorem Updates.revises {slug : String} (h : Updates db page write slug outcome db')
    (hmem : page ∈ db.pages) : Revises page (write.applyTo page) db db' := by
  refine ⟨hmem, applyTo_samePage write page, rfl, h.pages_eq, ?_, ?_⟩
  · intro id
    rw [history_append h.revisions_eq]
    rfl
  · intro link hlink
    rw [h.links_eq] at hlink
    exact mem_refreshLinks hlink

theorem Inserts.adds {slug title : String} (hlower : LawfulLower env)
    (h : Inserts env db pageId write slug title outcome db')
    (hfree : ∀ other ∈ db.pages,
      pageIdentity env other ≠ pageIdentity env (write.newPage env pageId slug title))
    (hslug : Stripped slug) (hscope : write.scopeType ≠ "") :
    Adds env (write.newPage env pageId slug title) db db' := by
  have hcanonical : Canonical env (write.newPage env pageId slug title) :=
    ⟨hslug, normalizePageLanguage_idem hlower write.language, hscope⟩
  refine ⟨h.idFree, hfree, rfl, hcanonical, rfl, h.pages_eq, ?_, ?_⟩
  · intro id
    rw [history_append h.revisions_eq]
    rfl
  · intro link hlink
    rw [h.links_eq] at hlink
    exact mem_refreshLinks hlink

/-- A write to a free identity that returns a page has created it. -/
theorem insertIfMissing_of_page (h : writePage env db pageId write = .ok (outcome, db'))
    (hlock : lockPageByIdentity env db.pages (strip write.slug) write.scopeType write.scopeId
      write.language = none) (hpage : outcome.page.isSome) : write.insertIfMissing = true := by
  by_contra hno
  simp only [writePage, bind_ok, hlock, hno, if_false, pure_ok, Prod.mk.injEq] at h
  obtain ⟨-, -, -, -, rfl, -⟩ := h
  cases hpage

theorem writePage_effect (hlower : LawfulLower env) (hwf : WellFormed env db)
    (hscope : write.insertIfMissing → write.scopeType ≠ "")
    (h : writePage env db pageId write = .ok (outcome, db')) : Effect env db db' := by
  rcases writePage_ok h with ⟨page, hlock, ⟨-, -, rfl⟩ | hupdate⟩ | ⟨hlock, ⟨-, -, rfl⟩ | hinsert⟩
  · exact .refl db'
  · exact .revises _ _ (hupdate.revises (lockPageByIdentity_some hwf hlock).1)
  · exact .refl db'
  · have hmissing := insertIfMissing_of_page h hlock (by rw [hinsert.page_eq]; rfl)
    refine .adds _ (hinsert.adds hlower ?_ (stripped_strip (writePage_slug h)) (hscope hmissing))
    intro other hother
    rw [newPage_identity]
    exact lockPageByIdentity_none hwf hlock other hother

/-- A write that may not create a page. -/
theorem writePage_effect_existing (hwf : WellFormed env db) (hexisting : write.insertIfMissing = false)
    (h : writePage env db pageId write = .ok (outcome, db')) : Effect env db db' := by
  rcases writePage_ok h with ⟨page, hlock, ⟨-, -, rfl⟩ | hupdate⟩ | ⟨hlock, ⟨-, -, rfl⟩ | hinsert⟩
  · exact .refl db'
  · exact .revises _ _ (hupdate.revises (lockPageByIdentity_some hwf hlock).1)
  · exact .refl db'
  · have hmissing := insertIfMissing_of_page h hlock (by rw [hinsert.page_eq]; rfl)
    rw [hexisting] at hmissing
    cases hmissing

theorem applyCreate_effect {slug title contentMd summary scopeType : String} {ktSlugs : List String}
    {sourceIds : List Uuid} {scopeId : Option Uuid} {language : Option String}
    (hlower : LawfulLower env) (hwf : WellFormed env db) (hscope : scopeType ≠ "")
    (h : applyCreate env db pageId slug title contentMd summary ktSlugs sourceIds scopeType scopeId
      language = .ok (page, db')) : Effect env db db' := by
  obtain ⟨outcome, -, hwrite⟩ := applyCreate_ok h
  exact writePage_effect hlower hwf (fun _ => hscope) hwrite

theorem upsertPage_effect {slug title contentMd summary scopeType : String} {ktSlugs : List String}
    {sourceIds : List Uuid} {scopeId : Option Uuid} {status language : Option String}
    (hlower : LawfulLower env) (hwf : WellFormed env db) (hscope : scopeType ≠ "")
    (h : upsertPage env db pageId slug title contentMd summary ktSlugs sourceIds scopeType scopeId
      status language = .ok (page, db')) : Effect env db db' := by
  simp only [upsertPage, bind_ok] at h
  obtain ⟨⟨outcome, after⟩, hwrite, h⟩ := h
  dsimp only at h
  split at h
  · simp only [pure_ok, Prod.mk.injEq] at h
    obtain ⟨-, rfl⟩ := h
    exact writePage_effect hlower hwf (fun _ => hscope) hwrite
  · simp at h

theorem regenerateIndex_effect {orderBy : List WikiPage → List WikiPage} {scopeType : String}
    {scopeId : Option Uuid} (hlower : LawfulLower env) (hwf : WellFormed env db)
    (hscope : scopeType ≠ "")
    (h : regenerateIndex env db pageId orderBy scopeType scopeId = .ok (page, db')) :
    Effect env db db' := by
  simp only [regenerateIndex, bind_ok] at h
  obtain ⟨⟨outcome, after⟩, hwrite, h⟩ := h
  dsimp only at h
  split at h
  · simp only [pure_ok, Prod.mk.injEq] at h
    obtain ⟨-, rfl⟩ := h
    exact writePage_effect hlower hwf (fun _ => hscope) hwrite
  · simp at h

theorem applyUpdate_ok {update : PageUpdate} {found : Option WikiPage}
    (h : applyUpdate env db update = .ok (found, db')) :
    ∃ outcome, writePage env db 0 (update.write (update.read env db.pages)) = .ok (outcome, db') ∧
      outcome.page = found := by
  simp only [applyUpdate, bind_ok, pure_ok, Prod.mk.injEq] at h
  obtain ⟨⟨outcome, after⟩, hwrite, rfl, rfl⟩ := h
  exact ⟨outcome, hwrite, rfl⟩

theorem directEditPage_ok {editorId : Uuid} {contentMd : String} {changeNote : Option String}
    (h : directEditPage env db pageId editorId contentMd changeNote = .ok db') :
    ∃ page outcome, db.pages.get pageId = some page ∧ writePage env db pageId
      (rewritePage page contentMd "editor_edit" editorId changeNote) = .ok (outcome, db') := by
  simp only [directEditPage, bind_ok, fetch_ok, require_ok, pure_ok] at h
  obtain ⟨page, hpage, ⟨outcome, after⟩, hwrite, -, -, rfl⟩ := h
  exact ⟨page, outcome, hpage, hwrite⟩

theorem rollbackToRevision_ok {targetVersion : Nat} {actorId : Uuid}
    (h : rollbackToRevision env db pageId targetVersion actorId = .ok db') :
    ∃ page revision outcome, db.pages.get pageId = some page ∧ revision ∈ db.revisions ∧
      revision.pageId = pageId ∧ revision.version = targetVersion ∧ writePage env db pageId
        (rewritePage page revision.contentMd "rollback" actorId
          (some s!"rollback to v{targetVersion}")) = .ok (outcome, db') := by
  simp only [rollbackToRevision, bind_ok, fetch_ok] at h
  obtain ⟨page, hpage, h⟩ := h
  split at h
  · simp at h
  · rename_i revision hfind
    simp only [bind_ok, require_ok, pure_ok] at h
    obtain ⟨⟨outcome, after⟩, hwrite, -, -, rfl⟩ := h
    have hfound := List.find?_some hfind
    simp only [Bool.and_eq_true, decide_eq_true_eq] at hfound
    exact ⟨page, revision, outcome, hpage, List.mem_of_find?_eq_some hfind, hfound.1, hfound.2,
      hwrite⟩

/-- A write keeps every page, at least under its identity. -/
theorem writePage_keeps (hwf : WellFormed env db)
    (h : writePage env db pageId write = .ok (outcome, db')) {id : Uuid}
    (hpage : db.pages.get id = some page) :
    ∃ page', db'.pages.get id = some page' ∧ SamePage page page' := by
  rcases writePage_ok h with ⟨locked, hlock, ⟨-, -, rfl⟩ | hupdate⟩ | ⟨-, ⟨-, -, rfl⟩ | hinsert⟩
  · exact ⟨page, hpage, .refl page⟩
  · have hlocked := hwf.keyed.get_of_mem (lockPageByIdentity_some hwf hlock).1
    rw [hupdate.pages_eq, Table.get_put]
    split
    · rename_i hid
      rw [show Row.key locked = id from hid, hpage] at hlocked
      cases hlocked
      exact ⟨write.applyTo page, by rw [hpage]; rfl, applyTo_samePage write page⟩
    · exact ⟨page, hpage, .refl page⟩
  · exact ⟨page, hpage, .refl page⟩
  · rw [hinsert.pages_eq]
    exact ⟨page, Table.get_append_of_some hpage, .refl page⟩

/-- A write changes no page of another identity. -/
theorem writePage_others (hwf : WellFormed env db)
    (h : writePage env db pageId write = .ok (outcome, db')) {id : Uuid}
    (hpage : db.pages.get id = some page) (hother : pageIdentity env page ≠ write.identity env) :
    db'.pages.get id = some page := by
  rcases writePage_ok h with ⟨locked, hlock, ⟨-, -, rfl⟩ | hupdate⟩ | ⟨-, ⟨-, -, rfl⟩ | hinsert⟩
  · exact hpage
  · obtain ⟨hlocked, hidentity⟩ := lockPageByIdentity_some hwf hlock
    rw [hupdate.pages_eq, Table.get_put, if_neg]
    · exact hpage
    · intro hid
      have hget := hwf.keyed.get_of_mem hlocked
      rw [show Row.key locked = id from hid, hpage] at hget
      cases hget
      exact hother hidentity
  · exact hpage
  · rw [hinsert.pages_eq]
    exact Table.get_append_of_some hpage

end Writes

/-- A write under the columns of a canonical row has the identity of that row. -/
theorem identity_of_columns (hpage : Canonical env page) (hslug : write.slug = page.slug)
    (hscope : write.scopeType = if page.scopeType = "" then "global" else page.scopeType)
    (hid : write.scopeId = page.scopeId) (hlanguage : write.language = some page.language) :
    write.identity env = pageIdentity env page := by
  rw [PageWrite.identity, pageIdentity, hslug, hscope, if_neg hpage.scopeType, hid, hlanguage,
    hpage.language]

section Totality

/-- The write path finds a stored page under its own columns. -/
theorem lockPageByIdentity_self (hs : Stored env db) (hpage : page ∈ db.pages) :
    lockPageByIdentity env db.pages (strip page.slug) page.scopeType page.scopeId
      (some page.language) = some page := by
  let write : PageWrite :=
    { slug := page.slug, title := none, contentMd := "", scopeType := page.scopeType,
      scopeId := page.scopeId, language := some page.language }
  have hidentity : write.identity env = pageIdentity env page := by
    rw [PageWrite.identity, pageIdentity, (hs.canonical page hpage).language]
  cases hlock : lockPageByIdentity env db.pages (strip write.slug) write.scopeType write.scopeId
      write.language with
  | none => exact absurd hidentity.symm (lockPageByIdentity_none hs.wellFormed hlock page hpage)
  | some found =>
    obtain ⟨hfound, heq⟩ := lockPageByIdentity_some hs.wellFormed hlock
    rw [hs.wellFormed.unique found hfound page hpage (heq.trans hidentity)]

theorem addRevision_next (hs : Stored env db) (hpage : page ∈ db.pages) {revision : WikiPageRevision}
    (hid : revision.pageId = page.id) (hversion : revision.version = page.version + 1) :
    addRevision db.revisions revision = .ok (db.revisions ++ [revision]) := by
  simp only [addRevision, bind_ok, require_ok, pure_ok]
  refine ⟨(), ?_, trivial⟩
  rintro old hold ⟨hsame, hnext⟩
  have hentry : (old.version, old.contentMd) ∈ history db page.id :=
    mem_history.mpr ⟨old, hold, hsame.trans hid, rfl⟩
  have hversion' := List.mem_map_of_mem (f := Prod.fst) hentry
  rw [hs.versions page hpage, List.mem_range'_1] at hversion'
  dsimp only at hversion'
  omega

theorem writePage_existing (fresh : Uuid) (hslug : strip write.slug ≠ "")
    (htitle : write.insertIfMissing → write.title.isSome)
    (hlock : lockPageByIdentity env db.pages (strip write.slug) write.scopeType write.scopeId
      write.language = some page) :
    writePage env db fresh write = updatePage db page write (strip write.slug) := by
  rw [writePage, require, if_pos hslug, require, if_pos htitle, hlock]
  rfl

/-- Without a version guard the write to a stored page succeeds and leaves its content there. -/
theorem updatePage_total (hs : Stored env db) (hpage : page ∈ db.pages)
    (hguard : write.expectedVersion = none) (slug : String) :
    ∃ outcome db', updatePage db page write slug = .ok (outcome, db') ∧ outcome.page.isSome ∧
      (db'.pages.get page.id).map WikiPage.contentMd = some write.contentMd := by
  have hget : db.pages.get page.id = some page := hs.wellFormed.keyed.get_of_mem hpage
  by_cases hretry : isExactRetry page write
  · refine ⟨⟨some page, false, false⟩, db, ?_, rfl, ?_⟩
    · simp only [updatePage, bind_ok, require_ok]
      exact ⟨(), by rw [hguard]; rfl, if_pos hretry⟩
    · rw [hget, Option.map_some]
      simp only [isExactRetry, Bool.and_eq_true, decide_eq_true_eq] at hretry
      exact congrArg some hretry.1.1.1.1.1
  · refine ⟨⟨some (write.applyTo page), false, true⟩, { db with
      pages := db.pages.put (write.applyTo page),
      revisions := db.revisions ++ [write.revision page.id (page.version + 1)],
      links := refreshLinks db.links page.id slug write.contentMd }, ?_, rfl, ?_⟩
    · simp only [updatePage, bind_ok, require_ok]
      refine ⟨(), by rw [hguard]; rfl, ?_⟩
      rw [if_neg hretry]
      simp only [bind_ok, pure_ok]
      exact ⟨_, addRevision_next hs hpage rfl rfl, rfl⟩
    · have hput := Table.get_put (write.applyTo page) db.pages page.id
      rw [hget, show Row.key (write.applyTo page) = page.id from rfl, if_pos rfl] at hput
      exact congrArg (Option.map WikiPage.contentMd) hput

/-- Rewriting a stored page succeeds and leaves it with the new content. -/
theorem rewritePage_total (hs : Stored env db) (hpage : page ∈ db.pages) (fresh : Uuid)
    (contentMd changeType : String) (changedById : Uuid) (changeNote : Option String) :
    ∃ outcome db', writePage env db fresh
        (rewritePage page contentMd changeType changedById changeNote) = .ok (outcome, db') ∧
      outcome.page.isSome ∧ (db'.pages.get page.id).map WikiPage.contentMd = some contentMd := by
  have hcanonical := hs.canonical page hpage
  have hslug : strip page.slug ≠ "" := by
    rw [hcanonical.slug.1]
    exact hcanonical.slug.2
  have hscope : (rewritePage page contentMd changeType changedById changeNote).scopeType =
      page.scopeType := if_neg hcanonical.scopeType
  have hlock := lockPageByIdentity_self hs hpage
  rw [← hscope] at hlock
  obtain ⟨outcome, after, hupdate, hsome, hcontent⟩ := @updatePage_total env db page
    (rewritePage page contentMd changeType changedById changeNote) hs hpage rfl (strip page.slug)
  refine ⟨outcome, after, ?_, hsome, hcontent⟩
  refine Eq.trans (writePage_existing fresh hslug ?_ hlock) hupdate
  intro hinsert
  cases hinsert

end Totality

section Log

/-- The append as a write of the log page. -/
def logWrite (contentMd scopeType : String) (scopeId : Option Uuid) : PageWrite :=
  { slug := logSlug, title := none, contentMd := contentMd, scopeType := scopeType,
    scopeId := scopeId }

/-- The first append of a scope as an insert. -/
def newLogWrite (contentMd scopeType : String) (scopeId : Option Uuid) : PageWrite :=
  { slug := logSlug, title := some "Wiki Log", contentMd := contentMd,
    summary := some "Chronological activity log", scopeType := scopeType, scopeId := scopeId,
    status := some "seed" }

/-- The log with one more entry. -/
def appendEntry (contentMd ts entry : String) : String :=
  if Like.contains contentMd "_(empty" then
    "# Wiki Log\n\n" ++ ("## [" ++ ts ++ "] " ++ strip entry) ++ "\n"
  else contentMd ++ "\n\n" ++ ("## [" ++ ts ++ "] " ++ strip entry) ++ "\n"

theorem appendLog_ok {ts entry scopeType : String} {scopeId : Option Uuid}
    (h : appendLog env db pageId ts entry scopeType scopeId = .ok (page, db')) :
    (∃ contentMd, lockPageByIdentity env db.pages logSlug scopeType scopeId none = none ∧
      Inserts env db pageId (newLogWrite contentMd scopeType scopeId) logSlug "Wiki Log"
        ⟨some page, true, true⟩ db') ∨
    ∃ old, lockPageByIdentity env db.pages logSlug scopeType scopeId none = some old ∧
      Updates db old (logWrite (appendEntry old.contentMd ts entry) scopeType scopeId) logSlug
        ⟨some page, false, true⟩ db' := by
  simp only [appendLog, bind_ok, pure_ok, Prod.mk.injEq] at h
  obtain ⟨⟨written, pages⟩, hupsert, revisions, hrevisions, rfl, rfl⟩ := h
  obtain ⟨-, rfl⟩ := addRevision_ok hrevisions
  unfold upsertLog at hupsert
  dsimp only at hupsert
  split at hupsert
  · rename_i hlock
    simp only [bind_ok, pure_ok, Prod.mk.injEq] at hupsert
    obtain ⟨inserted, hinsert, rfl, rfl⟩ := hupsert
    obtain ⟨hfree, rfl⟩ := Table.insert_ok hinsert
    exact .inl ⟨_, hlock, ⟨hfree, rfl, rfl, rfl, rfl, ⟨rfl, rfl, rfl, rfl, rfl, rfl, rfl⟩⟩⟩
  · rename_i old hlock
    simp only [pure_ok, Prod.mk.injEq] at hupsert
    obtain ⟨rfl, rfl⟩ := hupsert
    exact .inr ⟨old, hlock, ⟨rfl, rfl, rfl, rfl, ⟨rfl, rfl, rfl, rfl, rfl, rfl, rfl⟩⟩⟩

theorem strip_logSlug : strip logSlug = logSlug := by decide

theorem appendLog_effect {ts entry scopeType : String} {scopeId : Option Uuid}
    (hlower : LawfulLower env) (hwf : WellFormed env db) (hscope : scopeType ≠ "")
    (h : appendLog env db pageId ts entry scopeType scopeId = .ok (page, db')) :
    Effect env db db' := by
  rcases appendLog_ok h with ⟨contentMd, hlock, hinsert⟩ | ⟨old, hlock, hupdate⟩
  · refine .adds _ (hinsert.adds hlower ?_ ⟨strip_logSlug, by decide⟩ hscope)
    have hidentity := @newPage_identity env pageId
      (newLogWrite contentMd scopeType scopeId) "Wiki Log"
    rw [show strip (newLogWrite contentMd scopeType scopeId).slug = logSlug from strip_logSlug]
      at hidentity
    intro other hother
    rw [hidentity]
    refine lockPageByIdentity_none hwf ?_ other hother
    exact (congrArg (fun slug => lockPageByIdentity env db.pages slug scopeType scopeId none)
      strip_logSlug).trans hlock
  · refine .revises _ _ (hupdate.revises ?_)
    exact List.mem_of_find?_eq_some hlock

end Log

section Deletion

variable {held : Uuid → Bool}

theorem deletePage_ok (h : deletePage held db pageId = .ok db') :
    Retains (fun id => id ≠ pageId) id db db' ∧ db'.pages = db.pages.filter (·.id ≠ pageId) ∧
      db'.links = db.links.filter (·.fromPageId ≠ pageId) := by
  simp only [deletePage, bind_ok, pure_ok] at h
  obtain ⟨-, -, rfl⟩ := h
  refine ⟨⟨by simp, fun page _ => .refl page, fun _ _ => rfl, fun _ _ => rfl, ?_, ?_⟩, rfl, rfl⟩
  · intro id
    let kept : Database := { db with revisions := db.revisions.filter (·.pageId ≠ pageId) }
    have hkept : history kept id = if decide (id ≠ pageId) then history db id else [] :=
      history_filter (fun id => id ≠ pageId) rfl id
    rw [← hkept]
    refine @history_map kept _ _ rfl ?_ ?_ ?_ id <;> intro revision <;> split <;> rfl
  · intro link hlink
    obtain ⟨hmem, hne⟩ := List.mem_filter.mp hlink
    exact ⟨hmem, hne⟩

/-- The content has a `[[slug]]` or a `[[slug|display]]` that the cleanup would rewrite. -/
def mentions (slug contentMd : String) : Bool :=
  contentMd.toList.tails.any fun cs =>
    ("[[" ++ slug ++ "]]").toList.isPrefixOf cs ||
      (matchDisplay ("[[".toList ++ slug.toList ++ ['|']) cs).isSome

theorem keepDisplay_of_forall {opening cs : List Char}
    (h : ∀ tail, tail <:+ cs → matchDisplay opening tail = none) : keepDisplay opening 0 cs = cs := by
  induction cs with
  | nil => rfl
  | cons c cs ih =>
    rw [keepDisplay, if_neg (Nat.lt_irrefl 0), h _ List.suffix_rfl]
    dsimp only
    rw [ih fun tail htail => h tail (htail.trans (List.suffix_cons c cs))]

theorem scrub_of_not_mentions {slug contentMd : String} (h : mentions slug contentMd = false) :
    scrub slug contentMd = contentMd := by
  rw [mentions, List.any_eq_false] at h
  have hkeep : keepDisplay ("[[".toList ++ slug.toList ++ ['|']) 0 contentMd.toList =
      contentMd.toList := by
    apply keepDisplay_of_forall
    intro tail htail
    have hno := h tail ((List.mem_tails _ _).mpr htail)
    rw [Bool.or_eq_true, not_or] at hno
    simpa using hno.2
  rw [scrub, hkeep, String.ofList_toList, replace, replaceChars_of_forall, String.ofList_toList]
  intro tail htail
  have hno := h tail ((List.mem_tails _ _).mpr htail)
  rw [Bool.or_eq_true, not_or] at hno
  exact hno.1

/-- No page that the deletion would rewrite mentions the deleted one. -/
def Unmentioned (db : Database) (deleted : WikiPage) : Prop :=
  ∀ page ∈ db.pages, page.id ≠ deleted.id → refersTo deleted page →
    mentions deleted.slug page.contentMd = false

theorem scrubPage_of_unmentioned {deleted : WikiPage} (h : Unmentioned db deleted)
    (hpage : page ∈ db.pages) : scrubPage deleted page = page := by
  unfold scrubPage
  split
  · rename_i hrefers
    rw [scrub_of_not_mentions (h page hpage hrefers.2 hrefers.1)]
  · rfl

theorem deletePageCascade_ok (h : deletePageCascade held db pageId = .ok db') :
    ∃ deleted, db.pages.get pageId = some deleted ∧ deletePage held { db with
      pages := db.pages.map (scrubPage deleted),
      links := dropIncoming db.pages deleted db.links } pageId = .ok db' := by
  simp only [deletePageCascade, bind_ok, fetch_ok] at h
  exact h

theorem deletePageCascade_effect
    (hplain : ∀ deleted, db.pages.get pageId = some deleted → Unmentioned db deleted)
    (h : deletePageCascade held db pageId = .ok db') : Effect env db db' := by
  obtain ⟨deleted, hdeleted, hdelete⟩ := deletePageCascade_ok h
  have hscrub : db.pages.map (scrubPage deleted) = db.pages := by
    conv_rhs => rw [← List.map_id db.pages]
    apply List.map_congr_left
    intro page hpage
    exact scrubPage_of_unmentioned (hplain deleted hdeleted) hpage
  rw [hscrub] at hdelete
  obtain ⟨hretains, -, -⟩ := deletePage_ok hdelete
  refine .retains _ _ ⟨hretains.pages, hretains.same, hretains.version, hretains.content,
    hretains.history_eq, ?_⟩
  intro link hlink
  obtain ⟨hmem, hkeep⟩ := hretains.links link hlink
  exact ⟨List.mem_of_mem_filter hmem, hkeep⟩

theorem detachSource_ok {sourceId : Uuid} (hkeyed : db.pages.Keyed)
    (h : detachSource held sourceId db pageId = .ok db') : ∃ keep f, Retains keep f db db' := by
  simp only [detachSource, bind_ok, fetch_ok] at h
  obtain ⟨page, hpage, h⟩ := h
  split at h
  · exact ⟨_, _, (deletePage_ok h).1⟩
  · simp only [pure_ok] at h
    subst h
    have hid : page.id = pageId := Table.get_key hpage
    have hmine : ∀ other ∈ db.pages, other.id = page.id → other = page := by
      intro other hother heq
      exact hkeyed.eq_of_key hother (Table.get_mem hpage) heq
    refine ⟨fun _ => true, fun other => if other.id = page.id then
      { page with sourceIds := page.sourceIds.filter (· ≠ sourceId) } else other, ?_, ?_, ?_, ?_, ?_, ?_⟩
    · simp only [List.filter_true]
      rfl
    · intro other hother
      split
      · rename_i heq
        rw [hmine other hother heq]
        exact ⟨rfl, rfl, rfl, rfl, rfl, rfl⟩
      · exact .refl other
    · intro other hother
      split
      · rename_i heq
        rw [hmine other hother heq]
      · rfl
    · intro other hother
      split
      · rename_i heq
        rw [hmine other hother heq]
      · rfl
    · intro id
      rw [if_pos rfl]
      rfl
    · intro link hlink
      exact ⟨hlink, rfl⟩

theorem detachSourceFromWiki_effect {sourceId : Uuid} (hkeyed : db.pages.Keyed)
    (h : detachSourceFromWiki held db sourceId = .ok db') : Effect env db db' := by
  have hretains : ∃ keep f, Retains keep f db db' := by
    refine foldlM_induction (P := fun s => ∃ keep f, Retains keep f db s) ?_ ?_ h
    · rintro s s' pageId - ⟨keep, f, hs⟩ hstep
      obtain ⟨keep', g, hs'⟩ := detachSource_ok (hs.keyed hkeyed) hstep
      exact ⟨_, _, hs.trans hs'⟩
    · exact ⟨_, _, .of_pages rfl (fun _ => rfl) rfl⟩
  obtain ⟨keep, f, hretains⟩ := hretains
  exact .retains keep f hretains

end Deletion

end Cygnus.Wiki
