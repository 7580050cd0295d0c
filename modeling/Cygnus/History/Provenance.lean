import Cygnus.Data.Machine
import Cygnus.History.Revisions

/-! Concurrent `apply_update` calls on one page. A call reads the page without a lock, and writes
under the row lock what it made of that read. -/

namespace Cygnus.Provenance

open Wiki Text Result Machine

/-- A call between its read and its write. -/
structure Pending where
  update : PageUpdate
  existing : Option WikiPage

structure World where
  db : Database
  pending : List Pending := []
  /-- The calls that have returned. -/
  done : List PageUpdate := []

inductive Step
  | read (update : PageUpdate)
  /-- The write of the pending call at this place. -/
  | write (place : Nat)

variable (env : Platform)

def perform : Step → World → Transaction World
  | .read update, w => .ok { w with
      pending := w.pending ++ [⟨update, update.read env w.db.pages⟩] }
  | .write place, w =>
    match w.pending[place]? with
    | none => .error (.valueError "no such call")
    | some call => do
      let (_, db) ← writePage env w.db 0 (call.update.write call.existing)
      return ⟨db, w.pending.eraseIdx place, call.update :: w.done⟩

/-- The page has what the call was to add. -/
structure Carries (update : PageUpdate) (page : WikiPage) : Prop where
  source : ∀ id, update.addSourceId = some id → id ∈ page.sourceIds
  knowledgeType : ∀ slug, update.addKnowledgeTypeSlug = some slug → slug ∈ page.knowledgeTypeSlugs

/-- `page'` has all that `page` had. -/
structure Includes (page page' : WikiPage) : Prop where
  sources : ∀ id ∈ page.sourceIds, id ∈ page'.sourceIds
  knowledgeTypes : ∀ slug ∈ page.knowledgeTypeSlugs, slug ∈ page'.knowledgeTypeSlugs

/-- The call is about this page: it names its identity. -/
def Targets (page : WikiPage) (update : PageUpdate) : Prop :=
  (update.write none).identity env = pageIdentity env page

/-- When all calls have returned, the page has what it had and what each of them was to add. -/
def LosesNothing (db : Database) (page : WikiPage) (steps : List Step) : Prop :=
  (run (perform env) ⟨db, [], []⟩ steps).pending = [] →
    ∃ page', (run (perform env) ⟨db, [], []⟩ steps).db.pages.get page.id = some page' ∧
      Includes page page' ∧ ∀ update, Step.read update ∈ steps → Carries update page'

/-- Whatever the page has now, it had when the call read it, or the call adds it itself. -/
structure Unmissed (update : PageUpdate) (old now : WikiPage) : Prop where
  sources : ∀ id ∈ now.sourceIds, id ∈ old.sourceIds ∨ update.addSourceId = some id
  knowledgeTypes : ∀ slug ∈ now.knowledgeTypeSlugs, slug ∈ old.knowledgeTypeSlugs ∨
    update.addKnowledgeTypeSlug = some slug

/-- A call spells the slug as the page does and adds no empty knowledge type, and writes before
another call has brought something that it has not read. -/
def Current (page : WikiPage) (w : World) : Step → Prop
  | .read update => update.slug = page.slug ∧ update.addKnowledgeTypeSlug ≠ some ""
  | .write place => ∀ call ∈ w.pending[place]?, ∀ old ∈ call.existing,
      ∀ now ∈ w.db.pages.get page.id, Unmissed call.update old now

instance (update : PageUpdate) (old now : WikiPage) : Decidable (Unmissed update old now) :=
  have := List.decidableBAll (fun id => id ∈ old.sourceIds ∨ update.addSourceId = some id) now.sourceIds
  decidable_of_iff ((∀ id ∈ now.sourceIds, id ∈ old.sourceIds ∨ update.addSourceId = some id) ∧
    ∀ slug ∈ now.knowledgeTypeSlugs, slug ∈ old.knowledgeTypeSlugs ∨
      update.addKnowledgeTypeSlug = some slug) ⟨fun h => ⟨h.1, h.2⟩, fun h => ⟨h.1, h.2⟩⟩

instance (page : WikiPage) (w : World) : (step : Step) → Decidable (Current page w step)
  | .read update =>
    inferInstanceAs (Decidable (update.slug = page.slug ∧ update.addKnowledgeTypeSlug ≠ some ""))
  | .write place => inferInstanceAs (Decidable (∀ call ∈ w.pending[place]?, ∀ old ∈ call.existing,
      ∀ now ∈ w.db.pages.get page.id, Unmissed call.update old now))

variable {env} {page page' : WikiPage} {update : PageUpdate} {w w' : World}

theorem Includes.refl (page : WikiPage) : Includes page page := ⟨fun _ h => h, fun _ h => h⟩

theorem Includes.trans {page'' : WikiPage} (h : Includes page page') (h' : Includes page' page'') :
    Includes page page'' :=
  ⟨fun id hid => h'.sources id (h.sources id hid),
    fun slug hslug => h'.knowledgeTypes slug (h.knowledgeTypes slug hslug)⟩

theorem Carries.includes (h : Carries update page) (h' : Includes page page') :
    Carries update page' :=
  ⟨fun id hid => h'.sources id (h.source id hid),
    fun slug hslug => h'.knowledgeTypes slug (h.knowledgeType slug hslug)⟩

section Lists

variable {α : Type} [DecidableEq α] {items : List α} {added : Option α} {a : α}

theorem mem_appendMissing : a ∈ appendMissing items added ↔ a ∈ items ∨ added = some a := by
  unfold appendMissing
  split
  · simp
  · rename_i b
    split
    · rename_i hmem
      constructor
      · exact .inl
      · rintro (h | h)
        · exact h
        · cases h
          exact hmem
    · simp [eq_comm]

end Lists

/-- The states in which the page still has everything, and pending calls have read it. -/
structure Sound (env : Platform) (page : WikiPage) (w : World) : Prop where
  stored : Stored env w.db
  kept : ∃ now, w.db.pages.get page.id = some now ∧ SamePage page now ∧ Includes page now ∧
    ∀ update ∈ w.done, Carries update now
  read : ∀ call ∈ w.pending, Targets env page call.update ∧
    call.update.addKnowledgeTypeSlug ≠ some "" ∧ call.existing.isSome

/-- A call that names the identity and the slug of a stored page reads it. -/
theorem read_some {db : Database} (htarget : Targets env page update)
    (hslug : update.slug = page.slug) {now : WikiPage} (hnow : now ∈ db.pages)
    (hsame : SamePage page now) : (update.read env db.pages).isSome := by
  have hidentity : (update.write none).identity env = pageIdentity env now :=
    htarget.trans hsame.identity.symm
  rw [PageWrite.identity, pageIdentity, PageIdentity.mk.injEq] at hidentity
  obtain ⟨hscope, hid, hlanguage, -⟩ := hidentity
  have hfound : (db.pages.find? fun other => other.slug = update.slug &&
      other.language = normalizePageLanguage env update.language &&
      other.scopeType = update.scopeType && other.scopeId = update.scopeId).isSome := by
    rw [List.find?_isSome]
    refine ⟨now, hnow, ?_⟩
    have hslug' : now.slug = update.slug := hsame.slug.trans hslug.symm
    have hlanguage' : now.language = normalizePageLanguage env update.language := hlanguage.symm
    have hscope' : now.scopeType = update.scopeType := hscope.symm
    have hid' : now.scopeId = update.scopeId := hid.symm
    simp [hslug', hlanguage', hscope', hid']
  obtain ⟨found, hfound⟩ := Option.isSome_iff_exists.mp hfound
  rw [PageUpdate.read, getPageBySlug, hfound]
  rfl

/-- A write of a call that has missed nothing keeps the page's lists and brings its own. -/
theorem applyTo_includes {old now : WikiPage}
    (hempty : update.addKnowledgeTypeSlug ≠ some "") (hunmissed : Unmissed update old now) :
    Includes now ((update.write (some old)).applyTo now) ∧
      Carries update ((update.write (some old)).applyTo now) := by
  have hfilter : update.addKnowledgeTypeSlug.filter (· ≠ "") = update.addKnowledgeTypeSlug := by
    cases hadd : update.addKnowledgeTypeSlug with
    | none => rfl
    | some slug =>
      rw [hadd] at hempty
      have : slug ≠ "" := fun h => hempty (congrArg some h)
      simp [this]
  have hids : ((update.write (some old)).applyTo now).sourceIds =
      appendMissing old.sourceIds update.addSourceId := rfl
  have hslugs : ((update.write (some old)).applyTo now).knowledgeTypeSlugs =
      appendMissing old.knowledgeTypeSlugs update.addKnowledgeTypeSlug := by
    show appendMissing old.knowledgeTypeSlugs (update.addKnowledgeTypeSlug.filter (· ≠ "")) = _
    rw [hfilter]
  refine ⟨⟨?_, ?_⟩, ⟨?_, ?_⟩⟩
  · intro id hid
    rw [hids, mem_appendMissing]
    exact hunmissed.sources id hid
  · intro slug hslug
    rw [hslugs, mem_appendMissing]
    exact hunmissed.knowledgeTypes slug hslug
  · intro id hid
    rw [hids, mem_appendMissing]
    exact .inr hid
  · intro slug hslug
    rw [hslugs, mem_appendMissing]
    exact .inr hslug

/-- An exact retry writes the lists the page already has. -/
theorem retry_lists {write : PageWrite} {now : WikiPage} (h : isExactRetry now write) :
    (write.applyTo now).sourceIds = now.sourceIds ∧
      (write.applyTo now).knowledgeTypeSlugs = now.knowledgeTypeSlugs := by
  simp only [isExactRetry, Bool.and_eq_true] at h
  obtain ⟨⟨-, htypes⟩, hsources⟩ := h
  constructor
  · cases hlist : write.sourceIds with
    | none => simp [PageWrite.applyTo, hlist]
    | some ids =>
      rw [hlist] at hsources
      simpa [PageWrite.applyTo, hlist, eq_comm] using hsources
  · cases hlist : write.knowledgeTypeSlugs with
    | none => simp [PageWrite.applyTo, hlist]
    | some slugs =>
      rw [hlist] at htypes
      simpa [PageWrite.applyTo, hlist, eq_comm] using htypes

/-- A call's write under the row lock: the page is the stored one, and afterwards it has the lists of
the write. -/
theorem write_ok {db db' : Database} {existing : Option WikiPage} {outcome : PageWriteOutcome}
    {now : WikiPage} (hs : Stored env db) (htarget : Targets env page update)
    (hnow : db.pages.get page.id = some now) (hsame : SamePage page now)
    (h : writePage env db 0 (update.write existing) = .ok (outcome, db')) :
    ∃ now', db'.pages.get page.id = some now' ∧ SamePage page now' ∧
      now'.sourceIds = ((update.write existing).applyTo now).sourceIds ∧
      now'.knowledgeTypeSlugs = ((update.write existing).applyTo now).knowledgeTypeSlugs := by
  have hmem := Table.get_mem hnow
  have hidentity : pageIdentity env now = (update.write existing).identity env :=
    hsame.identity.trans htarget.symm
  have hmine : ∀ {locked}, lockPageByIdentity env db.pages (strip (update.write existing).slug)
      (update.write existing).scopeType (update.write existing).scopeId
      (update.write existing).language = some locked → locked = now := by
    intro locked hlock
    obtain ⟨hlocked, heq⟩ := lockPageByIdentity_some hs.wellFormed hlock
    exact hs.wellFormed.unique locked hlocked now hmem (heq.trans hidentity.symm)
  rcases writePage_ok h with ⟨locked, hlock, ⟨hretry, -, rfl⟩ | hupdates⟩ | ⟨hlock, -⟩
  · obtain rfl := hmine hlock
    obtain ⟨hsources, htypes⟩ := retry_lists hretry
    exact ⟨locked, hnow, hsame, hsources.symm, htypes.symm⟩
  · obtain rfl := hmine hlock
    refine ⟨(update.write existing).applyTo locked, ?_, hsame.trans (applyTo_samePage _ _), rfl, rfl⟩
    have hid : Row.key ((update.write existing).applyTo locked) = page.id := hsame.id
    rw [hupdates.pages_eq, Table.get_put, if_pos hid, hnow, Option.map_some]
  · exact absurd hidentity (lockPageByIdentity_none hs.wellFormed hlock now hmem)

theorem perform_sound : Preserves (perform env)
    (fun w step => Current page w step ∧ ∀ update, step = .read update → Targets env page update)
    (Sound env page) := by
  intro w w' step hw hcondition h
  obtain ⟨hcurrent, htargets⟩ := hcondition
  obtain ⟨now, hnow, hsame, hincludes, hdone⟩ := hw.kept
  cases step with
  | read update =>
    cases h
    refine ⟨hw.stored, ⟨now, hnow, hsame, hincludes, hdone⟩, ?_⟩
    intro call hcall
    rcases List.mem_append.mp hcall with hcall | hcall
    · exact hw.read call hcall
    · obtain rfl := List.mem_singleton.mp hcall
      have htarget := htargets update rfl
      exact ⟨htarget, hcurrent.2, read_some htarget hcurrent.1 (Table.get_mem hnow) hsame⟩
  | write place =>
    rw [perform] at h
    split at h
    · cases h
    · rename_i call hcall
      simp only [bind_ok, pure_ok] at h
      obtain ⟨⟨outcome, db⟩, hwrite, rfl⟩ := h
      obtain ⟨htarget, hempty, hread⟩ := hw.read call (List.mem_of_getElem? hcall)
      obtain ⟨old, hold⟩ := Option.isSome_iff_exists.mp hread
      rw [hold] at hwrite
      obtain ⟨now', hnow', hsame', hids, hslugs⟩ := write_ok hw.stored htarget hnow hsame hwrite
      obtain ⟨hgrows, hcarries⟩ := applyTo_includes hempty
        (hcurrent call hcall old hold now hnow)
      have hgrows' : Includes now now' := by
        refine ⟨fun id hid => ?_, fun slug hslug => ?_⟩
        · rw [hids]
          exact hgrows.sources id hid
        · rw [hslugs]
          exact hgrows.knowledgeTypes slug hslug
      have hcarries' : Carries call.update now' := by
        refine ⟨fun id hid => ?_, fun slug hslug => ?_⟩
        · rw [hids]
          exact hcarries.source id hid
        · rw [hslugs]
          exact hcarries.knowledgeType slug hslug
      refine ⟨?_, ⟨now', hnow', hsame', hincludes.trans hgrows', ?_⟩, ?_⟩
      · exact (writePage_effect_existing hw.stored.wellFormed rfl hwrite).stored hw.stored
      · intro update hupdate
        rcases List.mem_cons.mp hupdate with rfl | hupdate
        · exact hcarries'
        · exact (hdone update hupdate).includes hgrows'
      · intro other hother
        exact hw.read other (List.mem_of_mem_eraseIdx hother)

/-- The call has returned, or is pending. -/
def Started (update : PageUpdate) (w : World) : Prop :=
  update ∈ w.done ∨ ∃ call ∈ w.pending, call.update = update

theorem step_started {s : Step} (h : Started update w ∨ s = .read update) :
    Started update (step (perform env) w s) := by
  cases s with
  | read other =>
    rcases h with (hdone | ⟨call, hcall, heq⟩) | heq
    · exact .inl hdone
    · exact .inr ⟨call, List.mem_append_left _ hcall, heq⟩
    · cases heq
      exact .inr ⟨_, List.mem_append_right _ List.mem_cons_self, rfl⟩
  | write place =>
    rcases h with h | h
    · rcases step_cases (perform env) w (.write place) with heq | hok
      · rw [heq]
        exact h
      · generalize step (perform env) w (.write place) = w' at hok ⊢
        rw [perform] at hok
        split at hok
        · cases hok
        · rename_i call hcall
          simp only [bind_ok, pure_ok] at hok
          obtain ⟨⟨outcome, db⟩, -, rfl⟩ := hok
          rcases h with hdone | ⟨other, hother, heq⟩
          · exact .inl (List.mem_cons_of_mem _ hdone)
          · obtain ⟨i, hi⟩ := List.mem_iff_getElem?.mp hother
            by_cases hplace : i = place
            · rw [hplace, hcall] at hi
              cases hi
              exact .inl (heq ▸ List.mem_cons_self)
            · exact .inr ⟨other, List.mem_eraseIdx_iff_getElem?.mpr ⟨i, hplace, hi⟩, heq⟩
    · cases h

theorem run_started {steps : List Step} (h : Started update w ∨ Step.read update ∈ steps) :
    Started update (run (perform env) w steps) := by
  induction steps generalizing w with
  | nil =>
    rcases h with h | h
    · exact h
    · cases h
  | cons s steps ih =>
    apply ih
    rcases h with h | h
    · exact .inl (step_started (.inl h))
    · rcases List.mem_cons.mp h with heq | h
      · exact .inl (step_started (.inr heq.symm))
      · exact .inr h

theorem run_losesNothing {db : Database} {steps : List Step} (hs : Stored env db)
    (hpage : db.pages.get page.id = some page)
    (htargets : ∀ update, Step.read update ∈ steps → Targets env page update)
    (hcurrent : Meets (perform env) (Current page) ⟨db, [], []⟩ steps) :
    LosesNothing env db page steps := by
  intro hreturned
  have hsound : Sound env page ⟨db, [], []⟩ := by
    refine ⟨hs, ⟨page, hpage, .refl page, .refl page, ?_⟩, ?_⟩ <;> intro x hx <;> cases hx
  have htarget : Meets (perform env)
      (fun _ s => ∀ update, s = .read update → Targets env page update) ⟨db, [], []⟩ steps := by
    apply meets_of_mem
    rintro - s hstep update rfl
    exact htargets update hstep
  have hfinal := Preserves.run perform_sound hsound (hcurrent.and htarget)
  obtain ⟨now, hnow, -, hincludes, hdone⟩ := hfinal.kept
  refine ⟨now, hnow, hincludes, ?_⟩
  intro update hread
  rcases run_started (w := ⟨db, [], []⟩) (.inr hread) with hmem | ⟨call, hcall, -⟩
  · exact hdone update hmem
  · rw [hreturned] at hcall
    cases hcall

section Sources

open History

/-- A wiki of one page. -/
def catalog : Database := run (History.perform asciiPlatform) {} [newPageCall 1 "refunds" "# Refunds"]

def refunds : WikiPage :=
  { id := 1, slug := "refunds", title := "refunds", contentMd := "# Refunds",
    normalizedPath := "refunds" }

theorem catalog_stored : Stored asciiPlatform catalog :=
  run_stored (asciiLower_lawful _ _ _) (by decide)

/-- A recompilation that brings a source. -/
def addSource (id : Uuid) : PageUpdate :=
  { slug := "refunds", newContentMd := "# Refunds", addSourceId := some id }

theorem addSource_targets (id : Uuid) : Targets asciiPlatform refunds (addSource id) := by
  have hlanguage : normalizePageLanguage asciiPlatform none = "en" := by decide +kernel
  show PageIdentity.mk "global" none (normalizePageLanguage asciiPlatform none)
    (normalizePagePath asciiPlatform "refunds") = _
  rw [hlanguage]
  rfl

theorem sources_in_turn :
    catalog.pages.get refunds.id = some refunds ∧ LosesNothing asciiPlatform catalog refunds
      [.read (addSource 7), .write 0, .read (addSource 8), .write 0] := by
  have hpage : catalog.pages.get refunds.id = some refunds := by decide +kernel
  refine ⟨hpage, run_losesNothing catalog_stored hpage ?_ (by decide +kernel)⟩
  intro update hread
  simp only [List.mem_cons, Step.read.injEq, List.not_mem_nil, reduceCtorEq, or_false, false_or]
    at hread
  rcases hread with rfl | rfl
  · exact addSource_targets 7
  · exact addSource_targets 8

/-- Two calls that read the page before either writes: the second write drops the source of the
first. -/
theorem sources_overwritten :
    ¬ ∀ steps, (∀ update, Step.read update ∈ steps → Targets asciiPlatform refunds update) →
      LosesNothing asciiPlatform catalog refunds steps := by
  intro h
  have hkept := h [.read (addSource 7), .read (addSource 8), .write 0, .write 0]
  have hlost : (run (perform asciiPlatform) ⟨catalog, [], []⟩
      [.read (addSource 7), .read (addSource 8), .write 0, .write 0]).pending = [] ∧
      ((run (perform asciiPlatform) ⟨catalog, [], []⟩
        [.read (addSource 7), .read (addSource 8), .write 0, .write 0]).db.pages.get 1).map
        WikiPage.sourceIds = some [8] := by
    refine ⟨?_, by decide +kernel⟩
    rw [← List.length_eq_zero_iff]
    decide +kernel
  obtain ⟨page', hpage', -, hcarries⟩ := hkept (by
    intro update hread
    simp only [List.mem_cons, Step.read.injEq, List.not_mem_nil, reduceCtorEq, or_false] at hread
    rcases hread with rfl | rfl
    · exact addSource_targets 7
    · exact addSource_targets 8) hlost.1
  have hsource := (hcarries (addSource 7) List.mem_cons_self).source 7 rfl
  have hlists := hlost.2
  rw [show (1 : Uuid) = refunds.id from rfl, hpage', Option.map_some, Option.some.injEq] at hlists
  rw [hlists] at hsource
  revert hsource
  decide

end Sources

end Cygnus.Provenance
