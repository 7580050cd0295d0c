import Cygnus.Retrieval.EmbeddingSwitch

/-! What the flip leaves: a current row for every page that the task did not miss. -/

namespace Cygnus.Retrieval.Embedding

open Result Machine Table
open Wiki (WikiPage)

variable {V : Type} {sha256 : String → String} {world world' : World V}

section Progress

def Listed (page : WikiPage) : Prop := page.slug ∉ reservedSlugs

instance : DecidablePred Listed := fun page => inferInstanceAs (Decidable (page.slug ∉ reservedSlugs))

/-- A page that the task has not missed: a batch that has read it has read this content, and it is in
such a batch, still to be read, or embedded. -/
structure Tracked (sha256 : String → String) (world : World V) (spec : EmbeddingModelSpec)
    (page : WikiPage) : Prop where
  unchanged : ∀ read ∈ world.task.read, read.id = page.id →
    computeContentHash sha256 read = computeContentHash sha256 page
  place : (∃ read ∈ world.task.read, read.id = page.id) ∨ page.id ∈ world.task.remaining ∨
    HasHash world.embeddings spec.id page.id (computeContentHash sha256 page)

structure Progress (sha256 : String → String) (world : World V) : Prop where
  keyed : world.pages.Keyed
  tracked : ∀ spec, world.task.spec = some spec → ∀ page ∈ world.pages, Listed page →
    page.id ∉ world.missed → Tracked sha256 world spec page

theorem Progress.idle (hkeyed : world.pages.Keyed) (hidle : world.task.spec = none) :
    Progress sha256 world := by
  refine ⟨hkeyed, fun spec hspec => ?_⟩
  rw [hidle] at hspec
  cases hspec

/-- A page is tracked on if the task stands where it stood and its row stays. -/
theorem Tracked.keep {spec : EmbeddingModelSpec} {page page' : WikiPage}
    (h : Tracked sha256 world spec page) (htask : world'.task = world.task)
    (hid : page'.id = page.id)
    (hhash : computeContentHash sha256 page' = computeContentHash sha256 page)
    (hrow : HasHash world.embeddings spec.id page.id (computeContentHash sha256 page) →
      HasHash world'.embeddings spec.id page.id (computeContentHash sha256 page)) :
    Tracked sha256 world' spec page' := by
  constructor
  · intro read hread hsame
    rw [htask] at hread
    rw [hhash]
    exact h.unchanged read hread (hsame.trans hid)
  · rw [htask, hid, hhash]
    exact h.place.imp_right fun hplace => hplace.imp_right hrow

theorem start_progress {providerInit : Except String Unit} (h : Progress sha256 world)
    (hok : start providerInit world = .ok world') : Progress sha256 world' := by
  simp only [start, bind_ok, require_ok] at hok
  obtain ⟨-, -, hok⟩ := hok
  split at hok
  · rw [pure_ok] at hok
    exact hok ▸ h
  · split at hok
    · rw [pure_ok] at hok
      exact hok ▸ .idle h.keyed rfl
    · rw [pure_ok] at hok
      exact hok ▸ .idle h.keyed rfl
    · rename_i spec _
      rw [pure_ok] at hok
      subst hok
      refine ⟨h.keyed, fun spec' _ page hpage hlisted _ => ⟨?_, .inr (.inl ?_)⟩⟩
      · intro read hread
        cases hread
      · show page.id ∈ List.drop 0 _
        rw [List.drop_zero]
        exact List.mem_map_of_mem (List.mem_filter.mpr ⟨hpage, decide_eq_true hlisted⟩)

theorem readBatch_progress (h : Progress sha256 world) (hok : readBatch world = .ok world') :
    Progress sha256 world' := by
  unfold readBatch at hok
  split at hok
  · rename_i spec total offset htask
    simp only [bind_ok] at hok
    obtain ⟨-, -, hok⟩ := hok
    split at hok
    · rw [pure_ok] at hok
      exact hok ▸ .idle h.keyed rfl
    · rw [pure_ok] at hok
      subst hok
      refine ⟨h.keyed, fun spec' hspec page hpage hlisted hmissed => ?_⟩
      obtain rfl : spec = spec' := Option.some.inj hspec
      have hread : ∀ read ∈ world.pages.filter (fun page =>
          page.id ∈ (total.drop offset).take batchSize), read.id = page.id → read = page :=
        fun read hread hid => h.keyed.eq_of_key (List.mem_of_mem_filter hread) hpage hid
      refine ⟨fun read hmem hid => congrArg _ (hread read hmem hid), ?_⟩
      by_cases hbatch : page.id ∈ (total.drop offset).take batchSize
      · exact .inl ⟨page, List.mem_filter.mpr ⟨hpage, by simpa using hbatch⟩, rfl⟩
      · have hold : page.id ∉ world.missed := by
          intro hmem
          exact hmissed (List.mem_filter.mpr ⟨hmem, by simpa using hbatch⟩)
        have htracked := h.tracked spec (by rw [htask]; rfl) page hpage hlisted hold
        rcases htracked.place with ⟨read, hmem, -⟩ | hplace
        · rw [htask] at hmem
          cases hmem
        · refine .inr (hplace.imp_left fun hremaining => ?_)
          rw [htask] at hremaining
          have hsplit : page.id ∈ (total.drop offset).take batchSize ++
              (total.drop offset).drop batchSize := by
            rw [List.take_append_drop]
            exact hremaining
          rw [List.drop_drop] at hsplit
          exact (List.mem_append.mp hsplit).resolve_left hbatch
  · cases hok

/-- A batch writes the hash of what it read, and leaves the rows of the pages it did not read. -/
theorem upsertBatch_hasHash {pages : Table WikiPage} {spec : EmbeddingModelSpec}
    {batch : List (WikiPage × V)} {rows rows' : List (PageEmbedding V)} {pageId : Uuid} {hash : String}
    (h : upsertBatch sha256 pages spec batch rows = .ok rows')
    (hhash : ∀ item ∈ batch, item.1.id = pageId → computeContentHash sha256 item.1 = hash)
    (hplace : (∃ item ∈ batch, item.1.id = pageId) ∨ HasHash rows spec.id pageId hash) :
    HasHash rows' spec.id pageId hash := by
  induction batch generalizing rows with
  | nil =>
    obtain rfl := Except.ok.inj h
    exact hplace.resolve_left fun ⟨item, hitem, _⟩ => List.not_mem_nil hitem
  | cons item batch ih =>
    obtain ⟨page, vector⟩ := item
    simp only [upsertBatch, bind_ok] at h
    obtain ⟨next, hnext, h⟩ := h
    refine ih h (fun item hitem => hhash item (List.mem_cons_of_mem _ hitem)) ?_
    by_cases hsame : page.id = pageId
    · have hself := upsert_self hnext
      rw [hsame, hhash (page, vector) List.mem_cons_self hsame] at hself
      exact .inr hself
    · rcases hplace with ⟨item, hitem, hid⟩ | hrow
      · rcases List.mem_cons.mp hitem with rfl | hitem
        · exact absurd hid hsame
        · exact .inl ⟨item, hitem, hid⟩
      · exact .inr (upsert_other hnext (.inl (Ne.symm hsame)) hrow)

theorem commitBatch_progress {provider : EmbeddingProvider V} (h : Progress sha256 world)
    (hok : commitBatch sha256 provider world = .ok world') : Progress sha256 world' := by
  unfold commitBatch at hok
  split at hok
  · rename_i spec total offset pages htask
    split at hok
    · rw [pure_ok] at hok
      exact hok ▸ .idle h.keyed rfl
    · rename_i vectors hvectors
      simp only [bind_ok, pure_ok] at hok
      obtain ⟨rows, hrows, rfl⟩ := hok
      have hlength : vectors.length = pages.length := by
        rw [provider.one_each _ _ hvectors, List.length_map]
      have hzip : (pages.zip vectors).map Prod.fst = pages :=
        List.map_fst_zip (Nat.le_of_eq hlength.symm)
      refine ⟨h.keyed, fun spec' hspec page hpage hlisted hmissed => ?_⟩
      obtain rfl : spec = spec' := Option.some.inj hspec
      have htracked := h.tracked spec (by rw [htask]; rfl) page hpage hlisted hmissed
      obtain ⟨hunchanged, hplace⟩ := htracked
      rw [htask] at hunchanged hplace
      have hwritten : (∃ read ∈ pages, read.id = page.id) ∨
          HasHash world.embeddings spec.id page.id (computeContentHash sha256 page) →
          HasHash rows spec.id page.id (computeContentHash sha256 page) := by
        intro hplace
        refine upsertBatch_hasHash hrows ?_ (hplace.imp_left ?_)
        · intro item hitem
          exact hunchanged item.1 (hzip ▸ List.mem_map_of_mem hitem)
        · rintro ⟨read, hread, hid⟩
          rw [← hzip] at hread
          obtain ⟨item, hitem, rfl⟩ := List.mem_map.mp hread
          exact ⟨item, hitem, hid⟩
      refine ⟨fun read hread => (List.not_mem_nil hread).elim, .inr ?_⟩
      rcases hplace with hread | hremaining | hrow
      · exact .inr (hwritten (.inl hread))
      · exact .inl hremaining
      · exact .inr (hwritten (.inr hrow))
  · cases hok

theorem flip_progress (h : Progress sha256 world) (hok : flip world = .ok world') :
    Progress sha256 world' := by
  unfold flip at hok
  split at hok
  · simp only [bind_ok] at hok
    obtain ⟨-, -, hok⟩ := hok
    split at hok <;> rw [pure_ok] at hok
    · exact hok ▸ .idle h.keyed rfl
    · exact hok ▸ .idle h.keyed rfl
  · cases hok

theorem createPage_progress {page : WikiPage} (h : Progress sha256 world)
    (hok : createPage page world = .ok world') : Progress sha256 world' := by
  simp only [createPage, bind_ok, pure_ok] at hok
  obtain ⟨pages, hinsert, rfl⟩ := hok
  obtain ⟨hfree, rfl⟩ := insert_ok hinsert
  refine ⟨h.keyed.append hfree, fun spec hspec other hother hlisted hmissed => ?_⟩
  rcases List.mem_append.mp hother with hold | hnew
  · have htracked := h.tracked spec hspec other hold hlisted
      fun hmem => hmissed (List.mem_cons_of_mem _ hmem)
    exact htracked.keep rfl rfl rfl id
  · rw [List.mem_singleton.mp hnew] at hmissed
    exact absurd List.mem_cons_self hmissed

theorem editPage_progress {page : WikiPage} (h : Progress sha256 world)
    (hok : editPage sha256 page world = .ok world') : Progress sha256 world' := by
  simp only [editPage, bind_ok, demand_ok, require_ok, pure_ok] at hok
  obtain ⟨old, hold, -, hslug, rfl⟩ := hok
  have hid : old.id = page.id := get_key hold
  refine ⟨h.keyed.put _, fun spec hspec other hother hlisted hmissed => ?_⟩
  rcases mem_put hother with rfl | ⟨hmem, hne⟩
  · split at hmissed
    · rename_i hhash
      have htracked := h.tracked spec hspec old (get_mem hold) (by rw [Listed, ← hslug]; exact hlisted)
        (by rw [hid]; exact hmissed)
      exact htracked.keep rfl hid.symm hhash id
    · exact absurd List.mem_cons_self hmissed
  · have hmissed' : other.id ∉ world.missed := by
      split at hmissed
      · exact hmissed
      · exact fun hin => hmissed (List.mem_cons_of_mem _ hin)
    exact (h.tracked spec hspec other hmem hlisted hmissed').keep rfl rfl rfl id

theorem deletePage_progress (id : Uuid) (h : Progress sha256 world) :
    Progress sha256 (deletePage id world) := by
  refine ⟨h.keyed.filter _, fun spec hspec page hpage hlisted hmissed => ?_⟩
  obtain ⟨hmem, hkept⟩ := List.mem_filter.mp hpage
  refine (h.tracked spec hspec page hmem hlisted hmissed).keep rfl rfl rfl ?_
  rintro ⟨row, hrow, hid, hspecId, hhash⟩
  refine ⟨row, List.mem_filter.mpr ⟨hrow, ?_⟩, hid, hspecId, hhash⟩
  rw [hid]
  exact hkept

theorem embedPage_progress {id : Uuid} {vector : V} (h : Progress sha256 world)
    (hok : embedPage sha256 id vector world = .ok world') : Progress sha256 world' := by
  simp only [embedPage, bind_ok, demand_ok, pure_ok] at hok
  obtain ⟨active, -, embedded, hembedded, page, hpage, rows, hrows, rfl⟩ := hok
  have hid : page.id = id := get_key hpage
  refine ⟨h.keyed, fun spec hspec other hother hlisted hmissed => ?_⟩
  by_cases hsame : other.id = id
  · obtain rfl : other = page := h.keyed.eq_of_key hother (get_mem hpage) (hsame.trans hid.symm)
    by_cases hspecId : embedded.id = spec.id
    · have hrow := upsert_self hrows
      rw [hspecId, ← hid] at hrow
      refine ⟨fun read hread hread' => ?_, .inr (.inr hrow)⟩
      split at hmissed
      · rename_i hsettled
        exact absurd (hread'.trans hid) (hsettled.2 read hread)
      · exact (h.tracked spec hspec other hother hlisted hmissed).unchanged read hread hread'
    · have hrunning : world.task.spec.map EmbeddingModelSpec.id ≠ some embedded.id := by
        rw [hspec, Option.map_some, Ne, Option.some.injEq]
        exact fun heq => hspecId heq.symm
      rw [if_neg fun hsettled => hrunning hsettled.1] at hmissed
      exact (h.tracked spec hspec other hother hlisted hmissed).keep rfl rfl rfl
        (upsert_other hrows (.inr (Ne.symm hspecId)))
  · have hmissed' : other.id ∉ world.missed := by
      split at hmissed
      · exact fun hin => hmissed (List.mem_filter.mpr ⟨hin, decide_eq_true hsame⟩)
      · exact hmissed
    exact (h.tracked spec hspec other hother hlisted hmissed').keep rfl rfl rfl
      (upsert_other hrows (.inl hsame))

theorem act_progress {action : Action V} (h : Progress sha256 world)
    (hok : act sha256 action world = .ok world') : Progress sha256 world' := by
  cases action with
  | start providerInit => exact start_progress h hok
  | readBatch => exact readBatch_progress h hok
  | commitBatch provider => exact commitBatch_progress h hok
  | flip => exact flip_progress h hok
  | crash => exact Except.ok.inj hok ▸ .idle h.keyed rfl
  | createPage page => exact createPage_progress h hok
  | editPage page => exact editPage_progress h hok
  | deletePage id => exact Except.ok.inj hok ▸ deletePage_progress id h
  | embedPage id vector => exact embedPage_progress h hok
  | cancel =>
    simp only [act, cancel, bind_ok, pure_ok] at hok
    obtain ⟨-, -, rfl⟩ := hok
    exact ⟨h.keyed, fun spec hspec page hpage hlisted hmissed =>
      (h.tracked spec hspec page hpage hlisted hmissed).keep rfl rfl rfl id⟩

end Progress

section Flips

/-- The call is a flip to this model that goes through. -/
def Flips (world : World V) (action : Action V) (spec : EmbeddingModelSpec) : Prop :=
  action = .flip ∧ world.job.status ≠ .cancelled ∧
    ∃ total offset, world.task = .running spec total offset none ∧ total.length ≤ offset

/-- The model is active, and every page has a row under it with the hash of its content. -/
structure Covered (sha256 : String → String) (world : World V) (spec : EmbeddingModelSpec) : Prop where
  active : world.activeModel = some spec.id
  rows : ∀ page ∈ world.pages, Listed page →
    HasHash world.embeddings spec.id page.id (computeContentHash sha256 page)

/-- Every flip leaves all pages covered. -/
def FlipCovers (sha256 : String → String) (world : World V) (action : Action V) : Prop :=
  ∀ spec, Flips world action spec → Covered sha256 (step (act sha256) world action) spec

/-- At a flip no listed page is missed: none was added after the task listed the pages, or changed after
its batch was read, unless it was embedded again under the new model. -/
def NoneMissed (world : World V) (action : Action V) : Prop :=
  ∀ spec, Flips world action spec → ∀ page ∈ world.pages, Listed page → page.id ∉ world.missed

theorem Progress.flipCovers {action : Action V} (h : Progress sha256 world)
    (hnone : NoneMissed world action) : FlipCovers sha256 world action := by
  intro spec hflips
  have hmissed := hnone spec hflips
  obtain ⟨rfl, hstatus, total, offset, htask, hend⟩ := hflips
  have hflip : act sha256 .flip world = .ok { world with
      activeModel := some spec.id
      embeddings := cleanupStaleEmbeddings spec.id world.embeddings
      job := { world.job with status := .completed }
      task := .idle } := by
    rw [act, flip, htask]
    simp only [require_of hend, ok_bind, if_neg hstatus]
    rfl
  rw [step, hflip]
  refine ⟨rfl, fun page hpage hlisted => ?_⟩
  have htracked := h.tracked spec (by rw [htask]; rfl) page hpage hlisted (hmissed page hpage hlisted)
  have hplace := htracked.place
  rw [htask] at hplace
  rcases hplace with ⟨read, hread, -⟩ | hremaining | hrow
  · cases hread
  · rw [Task.remaining, List.drop_eq_nil_of_le hend] at hremaining
    cases hremaining
  · exact hrow.cleanup

/-- In a run whose flips find no page missed, every flip leaves all pages covered. -/
theorem flips_cover {pages : Table WikiPage} (hkeyed : pages.Keyed)
    (embeddings : List (PageEmbedding V)) (activeModel : Option String) (job : EmbeddingJob)
    {actions : List (Action V)}
    (h : Meets (act sha256) NoneMissed ⟨pages, embeddings, activeModel, job, .idle, []⟩ actions) :
    Meets (act sha256) (FlipCovers sha256) ⟨pages, embeddings, activeModel, job, .idle, []⟩
      actions := by
  have hpreserves : Preserves (act sha256) NoneMissed (Progress (V := V) sha256) :=
    fun hprogress _ hok => act_progress hprogress hok
  exact hpreserves.meets (fun hprogress hnone => hprogress.flipCovers hnone) (.idle hkeyed rfl) h

end Flips

section Scenario

def refunds (content : String) : WikiPage :=
  { id := 7, slug := "refunds", title := "Refunds", contentMd := content, normalizedPath := "refunds" }

def unitProvider : EmbeddingProvider Unit where
  embedBatch := fun texts => .ok (texts.map fun _ => ())
  one_each := by
    intro texts vectors h
    rw [← Except.ok.inj h, List.length_map]

def switchJob : EmbeddingJob := { modelSpecId := "openai/text-embedding-3-small" }

def small : EmbeddingModelSpec :=
  ⟨"openai/text-embedding-3-small", "openai", "text-embedding-3-small", 1536⟩

/-- An edit before the batch is read is not missed. -/
theorem edited_page_covered :
    Meets (act id) (FlipCovers id)
      (⟨[refunds "30 days"], [], none, switchJob, .idle, []⟩ : World Unit)
      [.start (.ok ()), .editPage (refunds "14 days"), .readBatch, .commitBatch unitProvider,
        .flip] := by
  refine flips_cover (by simp [Table.Keyed]) [] none switchJob ⟨?_, ?_, ?_, ?_, ?_, trivial⟩
  · exact fun spec hflips => absurd hflips.1 (by simp)
  · exact fun spec hflips => absurd hflips.1 (by simp)
  · exact fun spec hflips => absurd hflips.1 (by simp)
  · exact fun spec hflips => absurd hflips.1 (by simp)
  · exact fun spec _ page _ _ => List.not_mem_nil

/-- A page created while the task runs has no row when its model becomes the active one. -/
theorem created_page_lost :
    ¬ Meets (act id) (FlipCovers id) (⟨[], [], none, switchJob, .idle, []⟩ : World Unit)
      [.start (.ok ()), .createPage (refunds "30 days"), .flip] := by
  intro h
  have hflips : Flips (run (act id) (⟨[], [], none, switchJob, .idle, []⟩ : World Unit)
      [.start (.ok ()), .createPage (refunds "30 days")]) .flip small :=
    ⟨rfl, nofun, [], 0, rfl, Nat.le_refl _⟩
  obtain ⟨row, hrow, -⟩ := (h.2.2.1 small hflips).rows (refunds "30 days") List.mem_cons_self
    (by decide)
  exact List.not_mem_nil hrow

end Scenario

end Cygnus.Retrieval.Embedding
