import Cygnus.Mrp.Commit
import Cygnus.Review.CreateDraft

namespace Cygnus.Mrp

open Wiki Review Text Result Sequence

variable {env : Platform} {py : Python} {stage : Stage} {merge : Option Generate}
  {describe : StagingError → String} {source : Source} {ktSlug : Option String} {language : String}
  {plan : JsonObject} {results : List PageWriteResult} {result : PageWriteResult} {fullText : String}

section Gate

def Planned (py : Python) (plan page : JsonObject) : Prop :=
  ∃ pages, plannedPages py plan = .ok pages ∧ page ∈ pages

/-- The entry has claims of the source behind it. -/
def Evident (env : Platform) (py : Python) (plan : JsonObject) (fullText : String)
    (page : JsonObject) : Prop :=
  ∃ evidence, assembleEvidence env py page (claimsOf plan) fullText = .ok evidence ∧ evidence ≠ []

theorem resultBySlug_some {slug : String} (h : resultBySlug results slug = some result) :
    result ∈ results ∧ result.slug = slug := by
  have hmem := List.mem_of_getLast? h
  rw [List.mem_filter, decide_eq_true_eq] at hmem
  exact hmem

/-- A result that is not the one the gate looks at is followed by another of its slug. -/
theorem resultBySlug_shadowed {before after : List PageWriteResult}
    (h : ¬ ∃ later ∈ after, later.slug = result.slug) :
    resultBySlug (before ++ result :: after) result.slug = some result := by
  have hafter : after.filter (·.slug = result.slug) = [] := by
    rw [List.filter_eq_nil_iff]
    intro later hlater hslug
    exact h ⟨later, hlater, of_decide_eq_true hslug⟩
  rw [resultBySlug, List.filter_append, List.filter_cons_of_pos (by simp), hafter,
    List.getLast?_concat]

theorem pageFailures_nil {claims : Json} {page : JsonObject}
    (h : pageFailures env py results claims fullText page = .ok []) :
    ∃ result evidence, resultBySlug results (pageSlug py page) = some result ∧
      result.failure = none ∧ isPlaceholderContent result.contentMd = false ∧
      assembleEvidence env py page claims fullText = .ok evidence ∧ evidence ≠ [] := by
  unfold pageFailures at h
  dsimp only at h
  split at h
  · simp at h
  · split at h
    · simp at h
    · rename_i result hresult
      split at h
      · simp at h
      · rename_i hfailure
        split at h
        · simp at h
        · rename_i hplaceholder
          simp only [bind_ok] at h
          obtain ⟨evidence, hevidence, h⟩ := h
          split at h
          · simp at h
          · rename_i hempty
            refine ⟨result, evidence, hresult, hfailure, by simpa using hplaceholder, hevidence, ?_⟩
            rintro rfl
            exact hempty rfl

/-- The gate is passed only if every planned page has passed. -/
theorem validate_nil (h : validateCompileCompleteness env py plan results fullText = .ok [])
    {page : JsonObject} (hpage : Planned py plan page) :
    ∃ result, resultBySlug results (pageSlug py page) = some result ∧ result.failure = none ∧
      isPlaceholderContent result.contentMd = false ∧ Evident env py plan fullText page := by
  obtain ⟨pages, hpages, hmem⟩ := hpage
  simp only [validateCompileCompleteness, bind_ok, pure_ok, List.nil_append] at h
  obtain ⟨pages', hpages', failures, hfailures, hsorted⟩ := h
  obtain rfl : pages' = pages := Except.ok.inj (hpages'.symm.trans hpages)
  have hflatten : failures.flatten = [] := by
    have hlength := length_sortedBy (failureKey py) failures.flatten
    rw [hsorted] at hlength
    exact List.length_eq_zero_iff.mp hlength.symm
  obtain ⟨failure, hfailure, hpageFailures⟩ := exists_of_mapM_ok hfailures hmem
  obtain rfl : failure = [] := List.flatten_eq_nil_iff.mp hflatten failure hfailure
  obtain ⟨result, evidence, hresult, hnone, hplaceholder, hevidence, hne⟩ :=
    pageFailures_nil hpageFailures
  exact ⟨result, hresult, hnone, hplaceholder, evidence, hevidence, hne⟩

end Gate

section Staging

variable {db db' : Database} {page : Option WikiPage} {unit : Compilation}

/-- Staging leaves the draft behind and loses none. -/
theorem stageCompilationWikiDraft_ok {draftId : Uuid} {isNew : Bool}
    (h : stageCompilationWikiDraft env stage db source page unit = .ok (draftId, isNew, db')) :
    (db'.drafts.get draftId).isSome ∧
      ∀ id, (db.drafts.get id).isSome → (db'.drafts.get id).isSome := by
  simp only [stageCompilationWikiDraft, bind_ok, require_ok] at h
  obtain ⟨-, -, -, -, -, -, h⟩ := h
  split at h
  · rename_i existing hexisting
    simp only [bind_ok, pure_ok, Prod.mk.injEq] at h
    obtain ⟨-, -, rfl, -, rfl⟩ := h
    exact ⟨by rw [hexisting]; rfl, fun _ hid => hid⟩
  · simp only [bind_ok, pure_ok, Prod.mk.injEq, mapError_ok] at h
    obtain ⟨after, hcreate, rfl, -, rfl⟩ := h
    simp only [createWikiDraft, bind_ok] at hcreate
    obtain ⟨-, -, -, -, drafts, hinsert, hcreate⟩ := hcreate
    have hdrafts : after.drafts = drafts := by
      split at hcreate
      · simp only [bind_ok, pure_ok] at hcreate
        obtain ⟨-, -, -, -, rfl⟩ := hcreate
        rfl
      · simp only [bind_ok, pure_ok] at hcreate
        obtain ⟨-, -, rfl⟩ := hcreate
        rfl
    obtain ⟨hfree, rfl⟩ := Table.insert_ok hinsert
    rw [hdrafts]
    refine ⟨?_, ?_⟩
    · have hself := Table.get_append_self hfree
      exact Option.isSome_iff_exists.mpr ⟨_, hself⟩
    · intro id hid
      obtain ⟨draft, hget⟩ := Option.isSome_iff_exists.mp hid
      exact Option.isSome_iff_exists.mpr ⟨draft, Table.get_append_of_some hget⟩

/-- Every staged draft is a row. -/
def Progress.Kept (progress : Progress) : Prop :=
  ∀ entry ∈ progress.staged, (progress.db.drafts.get entry.draftId).isSome

/-- `after` has staged `results` on top of `before`. -/
structure Stages (results : List PageWriteResult) (before after : Progress) : Prop where
  clean : before.failures = []
  staged : ∃ added, after.staged = before.staged ++ added ∧ added.map StagedDraft.result = results
  kept : before.Kept → after.Kept

theorem Stages.trans {first second : List PageWriteResult} {before middle after : Progress}
    (h : Stages first before middle) (h' : Stages second middle after) :
    Stages (first ++ second) before after := by
  obtain ⟨added, hadded, hfirst⟩ := h.staged
  obtain ⟨added', hadded', hsecond⟩ := h'.staged
  refine ⟨h.clean, ⟨added ++ added', ?_, ?_⟩, fun hkept => h'.kept (h.kept hkept)⟩
  · rw [hadded', hadded, List.append_assoc]
  · rw [List.map_append, hfirst, hsecond]

/-- A step that notes no failure has staged its result. -/
theorem stageResult_stages {scope : String × Option Uuid} {progress : Progress}
    (h : (stageResult env stage merge describe source ktSlug language scope progress
      result).failures = []) :
    Stages [result] progress
      (stageResult env stage merge describe source ktSlug language scope progress result) := by
  unfold stageResult at h ⊢
  dsimp only at h ⊢
  split
  · rename_i draftId isNew db hstaged
    obtain ⟨hdraft, hkept⟩ := stageCompilationWikiDraft_ok hstaged
    rw [hstaged] at h
    refine ⟨h, ⟨[⟨result, draftId⟩], rfl, rfl⟩, ?_⟩
    intro hbefore entry hentry
    rcases List.mem_append.mp hentry with hentry | hentry
    · exact hkept _ (hbefore entry hentry)
    · obtain rfl := List.mem_singleton.mp hentry
      exact hdraft
  · rename_i error hstaged
    rw [hstaged] at h
    simp at h

theorem foldl_stages {ι : Type} {step : Progress → ι → Progress}
    {resultsOf : ι → List PageWriteResult}
    (hstep : ∀ progress i, (step progress i).failures = [] →
      Stages (resultsOf i) progress (step progress i))
    {items : List ι} {progress : Progress} (h : (items.foldl step progress).failures = []) :
    Stages (items.flatMap resultsOf) progress (items.foldl step progress) := by
  induction items generalizing progress with
  | nil => exact ⟨h, ⟨[], (List.append_nil _).symm, rfl⟩, id⟩
  | cons i items ih =>
    rw [List.foldl_cons] at h ⊢
    have hrest := ih h
    exact (hstep progress i hrest.clean).trans hrest

/-- The loop stages every result once in each scope. -/
theorem stageAll_stages {scopes : List (String × Option Uuid)}
    (h : (stageAll env stage merge describe db source ktSlug language scopes results).failures = []) :
    Stages (scopes.flatMap fun _ => results) { db := db }
      (stageAll env stage merge describe db source ktSlug language scopes results) := by
  refine foldl_stages ?_ h
  intro progress scope hscope
  have hresults := @foldl_stages PageWriteResult _ (fun result => [result])
    (fun _ _ hresult => stageResult_stages hresult) _ _ hscope
  rwa [List.flatMap_singleton'] at hresults

theorem wikiScopes_ne_nil {departmentIds : List Uuid} {scopes : List (String × Option Uuid)}
    (h : wikiScopes departmentIds source = .ok scopes) : scopes ≠ [] := by
  unfold wikiScopes at h
  split at h
  · split at h
    · simp at h
    · simp only [bind_ok, pure_ok] at h
      obtain ⟨-, -, rfl⟩ := h
      exact List.cons_ne_nil _ _
  · split at h
    · split at h
      · simp at h
      · obtain rfl := pure_ok.mp h
        exact List.cons_ne_nil _ _
    · simp only [bind_ok] at h
      obtain ⟨-, -, h⟩ := h
      split at h
      · obtain rfl := pure_ok.mp h
        exact List.cons_ne_nil _ _
      · rename_i hdepartments
        obtain rfl := pure_ok.mp h
        simpa using hdepartments

theorem resolveWikiScopes_ne_nil {sourceId : Uuid} {scopes : List (String × Option Uuid)}
    (h : resolveWikiScopes db sourceId = .ok scopes) : scopes ≠ [] := by
  unfold resolveWikiScopes at h
  split at h
  · cases h
  · exact wikiScopes_ne_nil h

end Staging

section Soundness

variable {state state' : CommitState} {report : CommitReport}

def CommitState.planJson (state : CommitState) : JsonObject :=
  state.plan.elim [] SourceCompilationPlan.planJson

/-- The result neither failed nor is a placeholder. -/
def PageWriteResult.Written (result : PageWriteResult) : Prop :=
  result.failure = none ∧ isPlaceholderContent result.contentMd = false

/-- What the gate is there for: drafts are made of written, evidence-backed results of planned pages,
and every planned page has its draft. -/
structure SoundCommit (env : Platform) (py : Python) (plan : JsonObject) (fullText : String)
    (db : Database) (report : CommitReport) : Prop where
  written : ∀ entry ∈ report.staged, entry.result.Written
  evident : ∀ entry ∈ report.staged, ∃ page, Planned py plan page ∧
    pageSlug py page = entry.result.slug ∧ Evident env py plan fullText page
  complete : ∀ page, Planned py plan page → ∃ entry ∈ report.staged,
    entry.result.slug = pageSlug py page ∧ (db.drafts.get entry.draftId).isSome

/-- Every result is of a planned page, and one that a later result of its slug shadows is written. -/
def Covered (py : Python) (plan : JsonObject) (results : List PageWriteResult) : Prop :=
  (∀ result ∈ results, ∃ page, Planned py plan page ∧ pageSlug py page = result.slug) ∧
    ∀ before result after, results = before ++ result :: after →
      (∃ later ∈ after, later.slug = result.slug) → result.Written

/-- A commit that succeeds passed the gate and staged every result. -/
theorem runCommitPhase_ok
    (h : runCommitPhase env py stage merge describe state source results ktSlug fullText =
      (state', .ok report)) :
    validateCompileCompleteness env py state.planJson results fullText = .ok [] ∧
      (∀ result, result ∈ results ↔ ∃ entry ∈ report.staged, entry.result = result) ∧
      ∀ entry ∈ report.staged, (state'.db.drafts.get entry.draftId).isSome := by
  unfold runCommitPhase at h
  dsimp only at h
  split at h
  · cases h
  · cases h
  · rename_i hvalid
    split at h
    · cases h
    · cases h
    · rename_i language scopes hlanguage hscopes
      split at h
      · rename_i hclean
        have hstages := stageAll_stages hclean
        obtain ⟨added, hadded, hresults⟩ := hstages.staged
        obtain ⟨rfl, hreport⟩ := Prod.mk.inj h
        obtain rfl := Except.ok.inj hreport
        refine ⟨hvalid, ?_, hstages.kept fun entry hentry => by cases hentry⟩
        intro result
        obtain ⟨scope, scopes, rfl⟩ := List.exists_cons_of_ne_nil (resolveWikiScopes_ne_nil hscopes)
        have hmem : result ∈ results ↔ result ∈ added.map StagedDraft.result := by
          rw [hresults, List.mem_flatMap]
          exact ⟨fun hresult => ⟨scope, List.mem_cons_self, hresult⟩, fun ⟨_, _, hresult⟩ => hresult⟩
        rw [hmem, List.mem_map, show added = _ from (List.nil_append added ▸ hadded).symm]
      · cases h

/-- Nothing is staged by a commit that fails. -/
theorem runCommitPhase_error {error : CompileError}
    (h : runCommitPhase env py stage merge describe state source results ktSlug fullText =
      (state', .error error)) : state'.db = state.db := by
  unfold runCommitPhase at h
  dsimp only at h
  split at h
  · cases h
    rfl
  · cases h
    rfl
  · split at h
    · cases h
      rfl
    · cases h
      rfl
    · split at h
      · cases h
      · cases h
        rfl

end Soundness

section Cases

def asciiPython : Python :=
  { isWord := fun c => c.isAlphanum || c = '_', sameLetter := fun a b => a.toLower = b.toLower,
    str := fun _ => "None" }

def alphaPage : JsonObject :=
  [("slug", .str "alpha"), ("title", .str "Alpha"), ("entity_names", .list [.str "alpha"])]

/-- A plan for one page with one claim, whose source is global. -/
def alphaState : CommitState :=
  { db := { sources := [{ id := 1 }] },
    plan := some
      { status := "in_progress",
        planJson := [("pages", .list [.object alphaPage]),
          ("_claims", .list [.object [("subject", .str "Alpha"),
            ("statement", .str "Alpha governs evidence.")]])] } }

def writtenPage (slug contentMd : String) : PageWriteResult :=
  { slug := slug, title := slug, pageType := "concept", action := "CREATE", contentMd := contentMd,
    summary := "" }

def asciiText : Platform := ⟨asciiLower, id, fun _ => "", fun _ => ""⟩

def commitAlpha (results : List PageWriteResult) : CommitState × Except CompileError CommitReport :=
  runCommitPhase asciiText asciiPython ⟨fun name => Fin.ofNat _ name.length, id, none⟩ none
    (fun _ => "") alphaState { id := 1 } results none "Alpha governs evidence."

theorem isOk_exists {ε α : Type} {outcome : Except ε α} (h : outcome.isOk = true) :
    ∃ a, outcome = .ok a := by
  cases outcome with
  | error e => cases h
  | ok a => exact ⟨a, rfl⟩

end Cases

end Cygnus.Mrp
