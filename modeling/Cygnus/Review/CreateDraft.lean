import Cygnus.Review.Conflicts
import Cygnus.Wiki.Store

/-! Approving a create draft: the duplicate check compares slugs as they are spelled, the write path
compares canonical identities. -/

namespace Cygnus.Review

open Wiki Governance Text Result

/-- The identity of the page a create draft asks for, when its metadata name one. -/
def draftIdentity (env : Platform) (draft : WikiPageDraft) (overrides : Option JsonObject) :
    Option PageIdentity :=
  match createMetadata draft overrides with
  | .error _ => none
  | .ok metadata => metadata.scopeType.asStr.map fun scopeType =>
    ⟨scopeType, metadata.scopeId, normalizePageLanguage env (some metadata.language),
      normalizePagePath env metadata.slug⟩

/-- One page is added with its first revision and its links, and nothing else changes. -/
structure AddsPage (db db' : Database) (page : WikiPage) (revision : WikiPageRevision)
    (links : List WikiLink) : Prop where
  fresh : db.pages.get page.id = none
  pages_eq : db'.pages = db.pages ++ [page]
  page_version : page.version = 1
  revisions_eq : db'.revisions = db.revisions ++ [revision]
  revision_page : revision.pageId = page.id
  revision_version : revision.version = 1
  links_eq : db'.links = db.links ++ links
  links_from : ∀ link ∈ links, link.fromPageId = page.id

/-- The approval adds one page or is refused, and it is refused as a slug conflict when the page
exists already. -/
structure CreatesOrRefuses (env : Platform) (db : Database) (draft : WikiPageDraft)
    (approval : Approval) (pageId eventId : Uuid) (now : Timestamp) : Prop where
  adds : ∀ db', approveWikiDraft env db draft.id approval pageId eventId now = .ok db' →
    ∃ page revision links, AddsPage db db' page revision links
  refuses : ∀ page ∈ db.pages,
    draftIdentity env draft approval.metadataOverrides = some (pageIdentity env page) →
    ∃ slug scopeType scopeId, approveWikiDraft env db draft.id approval pageId eventId now =
      .error (.createDraftSlugConflict slug scopeType scopeId)

/-- Any page with the identity the draft asks for is found by the duplicate check: the draft gets
that far, and the two slugs are spelled alike. -/
def SpelledAlike (env : Platform) (db : Database) (draft : WikiPageDraft)
    (overrides : Option JsonObject) : Prop :=
  ∀ page ∈ db.pages, draftIdentity env draft overrides = some (pageIdentity env page) →
    ∃ metadata scopeType, checkCreate env db draft overrides = .ok (metadata, scopeType) ∧
      page.slug = metadata.slug

variable {env : Platform} {db db' : Database} {draft : WikiPageDraft} {approval : Approval}
  {pageId eventId : Uuid} {now : Timestamp}

theorem checkCreate_identity {overrides : Option JsonObject} {metadata : CreateMetadata}
    {scopeType : String} (h : checkCreate env db draft overrides = .ok (metadata, scopeType)) :
    draftIdentity env draft overrides = some ⟨scopeType, metadata.scopeId,
      normalizePageLanguage env (some metadata.language), normalizePagePath env metadata.slug⟩ := by
  simp only [checkCreate, bind_ok, pure_ok, Prod.mk.injEq] at h
  obtain ⟨-, -, metadata, hmetadata, -, -, -, -, -, -, scopeType, hscope, rfl, rfl⟩ := h
  have hstr : metadata.scopeType = .str scopeType := by
    unfold queryText at hscope
    split at hscope
    · rename_i text htext
      cases hscope
      exact htext
    · cases hscope
  simp only [draftIdentity, hmetadata, hstr, Json.asStr, Option.map_some]

/-- The duplicate check finds a page by its spelling and the rest of its identity. -/
theorem getPageBySlug_some {slug scopeType : String} {scopeId : Option Uuid}
    {language : Option String} {found : WikiPage}
    (h : getPageBySlug env db.pages slug none scopeType scopeId language = some found) :
    found ∈ db.pages ∧ found.slug = slug ∧ pageIdentity env found =
      ⟨scopeType, scopeId, normalizePageLanguage env language, normalizePagePath env slug⟩ := by
  simp only [getPageBySlug, Option.bind_eq_bind, Option.bind_fun_some] at h
  have hmem := List.mem_of_find?_eq_some h
  have hfound := List.find?_some h
  simp only [Bool.and_eq_true, decide_eq_true_eq] at hfound
  obtain ⟨⟨⟨hslug, hlanguage⟩, hscope⟩, hid⟩ := hfound
  exact ⟨hmem, hslug, by rw [pageIdentity, hscope, hid, hlanguage, hslug]⟩

theorem getPageBySlug_ne_none {slug scopeType : String} {scopeId : Option Uuid}
    {language : Option String} {page : WikiPage} (hpage : page ∈ db.pages) (hslug : page.slug = slug)
    (hidentity : pageIdentity env page =
      ⟨scopeType, scopeId, normalizePageLanguage env language, normalizePagePath env slug⟩) :
    getPageBySlug env db.pages slug none scopeType scopeId language ≠ none := by
  intro h
  simp only [getPageBySlug, Option.bind_eq_bind, Option.bind_fun_some, List.find?_eq_none] at h
  apply h page hpage
  rw [pageIdentity, PageIdentity.mk.injEq] at hidentity
  obtain ⟨hscope, hid, hlanguage, -⟩ := hidentity
  simp [hslug, hscope, hid, hlanguage]

/-- Approval of a create draft is refused as a slug conflict only when the duplicate check finds a
page. -/
theorem approveWikiDraft_conflict {slug scopeType : String} {scopeId : Option Uuid}
    (hget : db.drafts.get draft.id = some draft) (hkind : draft.draftKind = "create")
    (h : approveWikiDraft env db draft.id approval pageId eventId now =
      .error (.createDraftSlugConflict slug scopeType scopeId)) :
    ∃ metadata scopeType found, checkCreate env db draft approval.metadataOverrides =
        .ok (metadata, scopeType) ∧
      getPageBySlug env db.pages metadata.slug none scopeType metadata.scopeId
        (some metadata.language) = some found := by
  have hmaterialise := (approveWikiDraft_error hget h rfl).2
  rw [materialise, if_pos hkind] at hmaterialise
  obtain ⟨metadata, scopeType, found, hcheck, hfound, -⟩ := approveCreate_conflict hmaterialise rfl
  exact ⟨metadata, scopeType, found, hcheck, hfound⟩

theorem approveCreate_found {finalContent scopeType : String} {reviewerId : Uuid}
    {reviewerNote : Option String} {overrides : Option JsonObject} {metadata : CreateMetadata}
    (hcheck : checkCreate env db draft overrides = .ok (metadata, scopeType))
    (hfound : getPageBySlug env db.pages metadata.slug none scopeType metadata.scopeId
      (some metadata.language) ≠ none) :
    approveCreate env db draft finalContent reviewerId reviewerNote overrides pageId =
      .error (.createDraftSlugConflict metadata.slug scopeType metadata.scopeId) := by
  obtain ⟨found, hfound⟩ := Option.ne_none_iff_exists'.mp hfound
  rw [approveCreate, bind_error]
  right
  refine ⟨_, hcheck, ?_⟩
  dsimp only
  rw [hfound]
  rfl

theorem refreshLinks_fresh {links : List WikiLink} {slug content : String}
    (h : ∀ link ∈ links, link.fromPageId ≠ pageId) :
    ∃ new, refreshLinks links pageId slug content = links ++ new ∧
      ∀ link ∈ new, link.fromPageId = pageId := by
  have hkept : links.filter (·.fromPageId ≠ pageId) = links := by
    rw [List.filter_eq_self]
    simpa using h
  refine ⟨_, by rw [refreshLinks, hkept], ?_⟩
  intro link hlink
  obtain ⟨target, -, rfl⟩ := List.mem_map.mp hlink
  rfl

theorem enrichRevision_append {revisions revisions' : List WikiPageRevision}
    {revision : WikiPageRevision} {page : WikiPage} {draftId reviewerId : Uuid}
    {reviewerNote : Option String} (hfree : ∀ r ∈ revisions, r.pageId ≠ page.id)
    (h : enrichRevision (revisions ++ [revision]) page draftId reviewerId reviewerNote =
      .ok revisions') :
    ∃ enriched, revisions' = revisions ++ [enriched] ∧ enriched.pageId = revision.pageId ∧
      enriched.version = revision.version := by
  simp only [enrichRevision, bind_ok, require_ok, pure_ok] at h
  obtain ⟨-, -, rfl⟩ := h
  have hkept : ∀ r ∈ revisions, ¬ (r.pageId = page.id ∧ r.version = page.version) :=
    fun r hr hsame => hfree r hr hsame.1
  rw [List.map_append, List.map_congr_left fun r hr => if_neg (hkept r hr), List.map_id',
    List.map_singleton]
  refine ⟨_, rfl, ?_⟩
  split <;> exact ⟨rfl, rfl⟩

/-- The write path inserts when no page has the identity the draft asks for. -/
theorem approveCreate_adds (hwf : WellFormed env db) {finalContent : String} {reviewerId : Uuid}
    {reviewerNote : Option String} {overrides : Option JsonObject} {page : WikiPage}
    (hnone : ∀ other ∈ db.pages,
      draftIdentity env draft overrides ≠ some (pageIdentity env other))
    (h : approveCreate env db draft finalContent reviewerId reviewerNote overrides pageId =
      .ok (page, db')) :
    ∃ revision links, AddsPage db db' page revision links := by
  obtain ⟨metadata, scopeType, sourceIds, created, revisions, hcheck, -, -, hcreate, henrich, rfl⟩ :=
    approveCreate_ok h
  have hidentity := checkCreate_identity hcheck
  obtain ⟨outcome, hpage, hwrite⟩ := applyCreate_ok hcreate
  rcases writePage_ok hwrite with ⟨other, hlock, -⟩ | ⟨-, ⟨hmissing, -⟩ | hinsert⟩
  · obtain ⟨hmem, hother⟩ := lockPageByIdentity_some hwf hlock
    exact absurd (by rw [hidentity, hother]; rfl) (hnone other hmem)
  · cases hmissing
  · rw [hinsert.page_eq, Option.some.injEq] at hpage
    obtain ⟨hrevisions, hlinks⟩ := hwf.get_none hinsert.idFree
    have hid : page.id = pageId := by rw [← hpage]; rfl
    rw [hinsert.revisions_eq] at henrich
    obtain ⟨revision, rfl, hrevision, hversion⟩ :=
      enrichRevision_append (fun r hr => hid ▸ hrevisions r hr) henrich
    obtain ⟨links, hnew, hfrom⟩ := refreshLinks_fresh hlinks
    refine ⟨revision, links, ?_, ?_, ?_, rfl, ?_, hversion, ?_, ?_⟩
    · rw [hid]
      exact hinsert.idFree
    · rw [← hpage]
      exact hinsert.pages_eq
    · rw [← hpage]
      rfl
    · rw [hid]
      exact hrevision
    · exact hinsert.links_eq.trans hnew
    · rw [hid]
      exact hfrom

theorem createsOrRefuses_iff (hwf : WellFormed env db) (hget : db.drafts.get draft.id = some draft)
    (hpending : draft.status = .pending) (hkind : draft.draftKind = "create") :
    CreatesOrRefuses env db draft approval pageId eventId now ↔
      SpelledAlike env db draft approval.metadataOverrides := by
  constructor
  · intro h page hpage hidentity
    obtain ⟨slug, scopeType, scopeId, hconflict⟩ := h.refuses page hpage hidentity
    obtain ⟨metadata, scopeType, found, hcheck, hfound⟩ :=
      approveWikiDraft_conflict hget hkind hconflict
    obtain ⟨hmem, hslug, hsame⟩ := getPageBySlug_some hfound
    rw [checkCreate_identity hcheck, Option.some.injEq, ← hsame] at hidentity
    have hequal := hwf.unique found hmem page hpage hidentity
    exact ⟨metadata, scopeType, hcheck, hequal ▸ hslug⟩
  · intro halike
    have hfound : ∀ page ∈ db.pages,
        draftIdentity env draft approval.metadataOverrides = some (pageIdentity env page) →
        ∃ slug scopeType scopeId, materialise env db draft approval pageId =
          .error (.createDraftSlugConflict slug scopeType scopeId) := by
      intro page hpage hidentity
      obtain ⟨metadata, scopeType, hcheck, hslug⟩ := halike page hpage hidentity
      rw [checkCreate_identity hcheck, Option.some.injEq] at hidentity
      refine ⟨metadata.slug, scopeType, metadata.scopeId, ?_⟩
      rw [materialise, if_pos hkind]
      exact approveCreate_found hcheck (getPageBySlug_ne_none hpage hslug hidentity.symm)
    constructor
    · intro db' h
      obtain ⟨draft', page, written, row, ledger, hget', -, hpage, -, rfl⟩ := approveWikiDraft_ok h
      obtain rfl : draft = draft' := Option.some.inj (hget.symm.trans hget')
      have hnone : ∀ other ∈ db.pages,
          draftIdentity env draft approval.metadataOverrides ≠ some (pageIdentity env other) := by
        intro other hother hidentity
        obtain ⟨_, _, _, hconflict⟩ := hfound other hother hidentity
        rw [hconflict] at hpage
        cases hpage
      rw [materialise, if_pos hkind] at hpage
      obtain ⟨revision, links, hadds⟩ := approveCreate_adds hwf hnone hpage
      exact ⟨page, revision, links, hadds.fresh, hadds.pages_eq, hadds.page_version,
        hadds.revisions_eq, hadds.revision_page, hadds.revision_version, hadds.links_eq,
        hadds.links_from⟩
    · intro page hpage hidentity
      obtain ⟨slug, scopeType, scopeId, hconflict⟩ := hfound page hpage hidentity
      refine ⟨slug, scopeType, scopeId, ?_⟩
      rw [approveWikiDraft, bind_error]
      right
      refine ⟨draft, fetch_ok.mpr hget, ?_⟩
      rw [bind_error]
      right
      refine ⟨(), require_ok.mpr hpending, ?_⟩
      rw [bind_error]
      exact .inl hconflict

/-- `str.lower` on ASCII texts. -/
def asciiLower (s : String) : String := String.ofList (s.toList.map Char.toLower)

def refundsPage : WikiPage :=
  { id := 1, slug := "refunds", title := "Refunds", contentMd := "# Refunds",
    normalizedPath := "refunds" }

/-- A pending draft of a new page with this slug. -/
def refundsDraft (slug : String) : WikiPageDraft :=
  { id := 2, draftKind := "create", contentMd := "# Other refunds",
    suggestedMetadata := some [("slug", .str slug), ("title", .str "Refunds")] }

/-- The page, and the draft in review. -/
def refundsDatabase (slug : String) : Database :=
  { pages := [refundsPage]
    revisions := [
      { pageId := 1, version := 1, contentMd := "# Refunds", changeType := "agent_compile" }]
    drafts := [refundsDraft slug]
    ledger := [
      { id := 3, draftId := 2, sequence := 1, eventType := .reviewRequested,
        fromState := some .draft, toState := .inReview, actorId := none,
        idempotencyKey := transitionKey 2 .reviewRequested, reason := none, payload := [] }] }

theorem refundsDatabase_wellFormed (env : Platform) (hlower : env.lower "refunds" = "refunds")
    (slug : String) : WellFormed env (refundsDatabase slug) := by
  constructor
  · exact List.nodup_singleton _
  · intro page hpage
    obtain rfl := List.mem_singleton.mp hpage
    have hstrip : strip "refunds" = "refunds" := by decide +kernel
    simp [refundsPage, normalizePagePath, hstrip, hlower]
  · intro page hpage other hother _
    rw [List.mem_singleton.mp hpage, List.mem_singleton.mp hother]
  · intro revision hrevision
    obtain rfl := List.mem_singleton.mp hrevision
    exact ⟨refundsPage, List.mem_singleton_self _, rfl⟩
  · intro link hlink
    cases hlink

theorem refunds_refused :
    asciiLower "refunds" = "refunds" ∧ ∀ sha256 dumps isoformat,
      CreatesOrRefuses ⟨asciiLower, sha256, dumps, isoformat⟩ (refundsDatabase "refunds")
        (refundsDraft "refunds") { reviewerId := 11 } 4 5 0 := by
  have hlower : asciiLower "refunds" = "refunds" := by decide +kernel
  refine ⟨hlower, ?_⟩
  intro sha256 dumps isoformat
  apply (createsOrRefuses_iff (refundsDatabase_wellFormed _ hlower _) rfl rfl rfl).mpr
  intro page hpage _
  obtain rfl := List.mem_singleton.mp hpage
  exact ⟨_, _, rfl, rfl⟩

theorem capitalised_slug_overwrites_page :
    ¬ ∀ sha256 dumps isoformat,
      CreatesOrRefuses ⟨asciiLower, sha256, dumps, isoformat⟩ (refundsDatabase "Refunds")
        (refundsDraft "Refunds") { reviewerId := 11 } 4 5 0 := by
  intro h
  have hrun : (approveWikiDraft ⟨asciiLower, id, fun _ => "", fun _ => ""⟩
      (refundsDatabase "Refunds") 2 { reviewerId := 11 } 4 5 0).toOption.map
      (fun db => db.pages.map WikiPage.contentMd) = some ["# Other refunds"] := by
    decide +kernel
  obtain ⟨db', hrun, hpages⟩ := Option.map_eq_some_iff.mp hrun
  obtain ⟨page, revision, links, hadds⟩ :=
    (h id (fun _ => "") (fun _ => "")).adds db' (toOption_some.mp hrun)
  rw [hadds.pages_eq] at hpages
  simp [refundsDatabase] at hpages

end Cygnus.Review
