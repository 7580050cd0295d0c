import Cygnus.Mrp.ApprovalFence

/-! Runs of approvals, stagings and changes of sources. A change that starts a new generation and
withdraws the earlier drafts is ordered against every approval by the ledger; a change that does not
is ordered against none. -/

namespace Cygnus.Mrp.Fence

open Wiki Review Governance Text Result Machine

section Keeps

variable {env : Platform} {db db' db'' : Database} {draftId eventId : Uuid}

/-- What the steps that change no source do to the drafts that have been submitted. -/
structure KeepsReviewed (db db' : Database) : Prop where
  sources : db'.sources = db.sources
  sourceDepartments : db'.sourceDepartments = db.sourceDepartments
  row : ∀ {id row}, db.drafts.get id = some row → row.status ≠ .draft →
    ∃ row', db'.drafts.get id = some row' ∧ row'.sourceMetadata = row.sourceMetadata ∧
      row'.status ≠ .draft ∧ (row.status = .withdrawn → row'.status = .withdrawn)

theorem KeepsReviewed.refl (db : Database) : KeepsReviewed db db :=
  ⟨rfl, rfl, fun {_ row} hget hstatus => ⟨row, hget, rfl, hstatus, id⟩⟩

theorem KeepsReviewed.trans (h : KeepsReviewed db db') (h' : KeepsReviewed db' db'') :
    KeepsReviewed db db'' := by
  refine ⟨h'.sources.trans h.sources, h'.sourceDepartments.trans h.sourceDepartments, ?_⟩
  intro id row hget hstatus
  obtain ⟨middle, hmiddle, hmetadata, hstatus, hwithdrawn⟩ := h.row hget hstatus
  obtain ⟨last, hlast, hmetadata', hstatus', hwithdrawn'⟩ := h'.row hmiddle hstatus
  exact ⟨last, hlast, hmetadata'.trans hmetadata, hstatus', hwithdrawn' ∘ hwithdrawn⟩

theorem KeepsReviewed.put {draft after : WikiPageDraft} (hget : db.drafts.get draft.id = some draft)
    (hid : after.id = draft.id) (hsources : db'.sources = db.sources)
    (hdepartments : db'.sourceDepartments = db.sourceDepartments)
    (hdrafts : db'.drafts = db.drafts.put after)
    (hkeeps : draft.status ≠ .draft → after.sourceMetadata = draft.sourceMetadata ∧
      after.status ≠ .draft ∧ (draft.status = .withdrawn → after.status = .withdrawn)) :
    KeepsReviewed db db' := by
  refine ⟨hsources, hdepartments, ?_⟩
  intro id row hrow hstatus
  rw [hdrafts, get_put_row hget hid]
  split
  · rename_i heq
    rw [← heq, hget, Option.some.injEq] at hrow
    subst hrow
    exact ⟨after, rfl, hkeeps hstatus⟩
  · exact ⟨row, hrow, rfl, hstatus, fun h => h⟩

theorem submitWikiDraft_keeps {author : Actor} {expectedVersion : Int} {reviewType : String}
    {notes : Option String}
    (h : submitWikiDraft db draftId author expectedVersion reviewType notes eventId = .ok db') :
    KeepsReviewed db db' := by
  simp only [submitWikiDraft, bind_ok] at h
  obtain ⟨-, -, draft, hfetch, -, -, -, -, h⟩ := h
  split at h
  · simp only [bind_ok, mapError_ok, pure_ok] at h
    obtain ⟨-, -, -, -, rfl⟩ := h
    exact ⟨rfl, rfl, (KeepsReviewed.refl db).row⟩
  · simp only [bind_ok, mapError_ok, pure_ok, assertStatus_ok, List.mem_singleton] at h
    obtain ⟨-, hstatus, -, -, -, -, rfl⟩ := h
    exact .put (fetch_draft hfetch) (by rfl) rfl rfl rfl fun hne => absurd hstatus hne

theorem withdraw_keeps {author : Actor} (h : withdraw db draftId author eventId = .ok db') :
    KeepsReviewed db db' := by
  simp only [withdraw, bind_ok, pure_ok] at h
  obtain ⟨draft, hfetch, -, -, -, -, -, -, rfl⟩ := h
  exact .put (fetch_draft hfetch) (by rfl) rfl rfl rfl fun _ => ⟨rfl, DraftStatus.noConfusion, fun _ => rfl⟩

theorem createWikiDraft_keeps {new : NewDraft} {proposalId reviewId : Uuid}
    (h : createWikiDraft env db new proposalId reviewId = .ok db') : KeepsReviewed db db' := by
  simp only [createWikiDraft, bind_ok] at h
  obtain ⟨-, -, -, -, drafts, hinsert, h⟩ := h
  obtain ⟨-, rfl⟩ := Table.insert_ok hinsert
  have hrows : ∀ {id row}, db.drafts.get id = some row → row.status ≠ .draft →
      ∃ row', Table.get (db.drafts ++ [new.row]) id = some row' ∧
        row'.sourceMetadata = row.sourceMetadata ∧ row'.status ≠ .draft ∧
        (row.status = .withdrawn → row'.status = .withdrawn) :=
    fun {_ row} hget hstatus => ⟨row, Table.get_append_of_some hget, rfl, hstatus, id⟩
  split at h
  · simp only [bind_ok, pure_ok] at h
    obtain ⟨ledger, -, preReviews, -, rfl⟩ := h
    exact ⟨rfl, rfl, hrows⟩
  · simp only [bind_ok, pure_ok] at h
    obtain ⟨ledger, -, rfl⟩ := h
    exact ⟨rfl, rfl, hrows⟩

theorem fenceDraft_keeps {sourceId : Uuid} {generation : Nat} {reason : String}
    {eventIds : Uuid → Uuid} (h : fenceDraft sourceId generation reason eventIds db draftId = .ok db') :
    KeepsReviewed db db' := by
  simp only [fenceDraft, bind_ok] at h
  obtain ⟨draft, hfetch, h⟩ := h
  split at h
  · rw [pure_ok] at h
    exact h ▸ .refl db
  · split at h
    · rw [pure_ok] at h
      exact h ▸ .refl db
    · simp only [bind_ok, pure_ok] at h
      obtain ⟨-, -, rfl⟩ := h
      exact .put (fetch_draft hfetch) (by rfl) rfl rfl rfl fun _ =>
        ⟨rfl, DraftStatus.noConfusion, fun _ => rfl⟩

theorem fenceDrafts_keeps {sourceId : Uuid} {generation : Nat} {reason : String}
    {eventIds : Uuid → Uuid} {ids : List Uuid}
    (h : ids.foldlM (fenceDraft sourceId generation reason eventIds) db = .ok db') :
    KeepsReviewed db db' :=
  foldlM_induction (P := KeepsReviewed db) (fun _ _ hs hstep => hs.trans (fenceDraft_keeps hstep))
    (.refl db) h

theorem Fenced.commit_keeps {fenced : Fenced} {pageId : Uuid} {now : Timestamp}
    (hagree : Agreement db.drafts db.ledger)
    (h : fenced.commit env db pageId eventId now = .ok db') : KeepsReviewed db db' := by
  obtain ⟨approval, page, row, hrow, hstatus, hdrafts, -⟩ := commit_advances hagree h
  obtain ⟨-, -, -, -, -, -, -, hsources, hdepartments⟩ := commit_ok h
  have hid : row.id = fenced.draft.id := Table.get_key hrow
  refine @KeepsReviewed.put _ _ row _ (hid ▸ hrow) ?_ hsources hdepartments hdrafts ?_
  · rfl
  · refine fun _ => ⟨rfl, DraftStatus.noConfusion, ?_⟩
    intro hwithdrawn
    rw [hwithdrawn] at hstatus
    simp at hstatus

/-- The invalidation withdraws every draft it lists whose recorded generation is an earlier one. -/
theorem fenceDrafts_withdrawn {sourceId : Uuid} {current : Nat} {reason : String}
    {eventIds : Uuid → Uuid} {ids : List Uuid} {draft : WikiPageDraft} {generation : Int}
    (hmem : draft.id ∈ ids) (hget : db.drafts.get draft.id = some draft)
    (hgeneration : (Json.lookup (draft.sourceMetadata.getD []) "compiler_dispatch_generation").asInt =
      some generation) (hearlier : generation < current)
    (h : ids.foldlM (fenceDraft sourceId current reason eventIds) db = .ok db') :
    ∃ row, db'.drafts.get draft.id = some row ∧ row.status = .withdrawn := by
  induction ids generalizing db with
  | nil => cases hmem
  | cons id ids ih =>
    rw [List.foldlM_cons, bind_ok] at h
    obtain ⟨next, hnext, h⟩ := h
    by_cases hid : draft.id = id
    · simp only [fenceDraft, bind_ok] at hnext
      obtain ⟨found, hfetch, hnext⟩ := hnext
      rw [fetch_ok, ← hid, hget, Option.some.injEq] at hfetch
      subst hfetch
      rw [hgeneration] at hnext
      dsimp only at hnext
      rw [if_neg (not_le.mpr hearlier)] at hnext
      simp only [bind_ok, pure_ok] at hnext
      obtain ⟨event, _, rfl⟩ := hnext
      let after := { draft with
        status := .withdrawn, reviewerNote := some (clip (strip reason)) }
      have hrow : (db.drafts.put after).get draft.id = some after := by
        have hplace := get_put_row hget (show after.id = draft.id from rfl) draft.id
        rwa [if_pos rfl] at hplace
      obtain ⟨row, hrow, -, -, hwithdrawn⟩ :=
        (fenceDrafts_keeps h).row hrow DraftStatus.noConfusion
      exact ⟨row, hrow, hwithdrawn rfl⟩
    · apply ih ((List.mem_cons.mp hmem).resolve_left hid) _ h
      rw [fenceDraft_others hnext hid]
      exact hget

/-- A change that fences a draft that is up to date withdraws it. -/
theorem SourceChange.Fences.withdrawn {change : SourceChange} {draft row : WikiPageDraft}
    {source : Source} {eventIds : Uuid → Uuid} (h : change.Fences db draft)
    (hkeyed : db.drafts.Keyed) (hget : db.drafts.get draft.id = some row)
    (hmetadata : row.sourceMetadata = draft.sourceMetadata) (hcurrent : UpToDate db draft)
    (hsource : db.sources.get change.sourceId = some source)
    (hop : change.invalidate source eventIds db = .ok db') :
    ∃ row, db'.drafts.get draft.id = some row ∧ row.status = .withdrawn := by
  obtain ⟨hdispatch, hinvalidation, listed, hlisted, hid⟩ := h
  obtain ⟨reason, hreason⟩ := Option.isSome_iff_exists.mp hinvalidation
  have hsourceId : source.id = change.sourceId := Table.get_key hsource
  simp only [SourceChange.invalidate, hreason, invalidateStaleCompilerDrafts, bind_ok] at hop
  obtain ⟨-, -, hop⟩ := hop
  rw [hsourceId, Int.toNat_natCast] at hop
  have hmem : listed.id ∈ (staleCompilerDrafts db.drafts change.sourceId).map WikiPageDraft.id :=
    List.mem_map_of_mem hlisted
  simp only [staleCompilerDrafts, Sequence.mem_sortedBy, List.mem_filter, Bool.and_eq_true,
    decide_eq_true_eq] at hlisted
  obtain ⟨hstored, ⟨-, hrecordedId⟩, -⟩ := hlisted
  have hlistedRow : db.drafts.get listed.id = some listed := hkeyed.get_of_mem hstored
  have hsame := hlistedRow
  rw [hid, hget, Option.some.injEq] at hsame
  subst hsame
  -- the draft names this source, so the generation it records is the one before
  rw [hmetadata] at hrecordedId
  obtain ⟨-, htruth⟩ := hcurrent
  rw [sourceTruth, compilerSource_of_text hrecordedId, hsource, Option.map_some] at htruth
  have hgeneration := recorded_generation htruth
  rw [← hmetadata] at hgeneration
  rw [← hid]
  apply fenceDrafts_withdrawn hmem hlistedRow hgeneration _ hop
  simp [SourceChange.generation, hdispatch]

end Keeps

section Machine

/-- An approval between its fence read and its commit. -/
structure InFlight where
  fenced : Fenced
  /-- a change has moved the source since, and left the draft open to approval -/
  overtaken : Bool := false

structure World where
  db : Database
  inFlight : List InFlight := []

inductive Step
  /-- A worker stages with the copy of the source that it has loaded. -/
  | stage (source : Source) (page : Option WikiPage) (unit : Compilation)
  | submit (draftId : Uuid) (author : Actor) (expectedVersion : Int) (reviewType : String)
      (notes : Option String) (eventId : Uuid)
  | withdraw (draftId : Uuid) (author : Actor) (eventId : Uuid)
  | change (change : SourceChange) (eventId : Uuid → Uuid)
  | fence (draftId : Uuid) (approval : Approval)
  /-- The rest of the approval at this place; an error rolls it back. -/
  | commit (place : Nat) (pageId eventId : Uuid) (now : Timestamp)
  | abort (place : Nat)

variable (env : Platform) (stage : Stage)

def InFlight.after (approval : InFlight) (change : SourceChange) (db : Database) : InFlight :=
  { approval with
    overtaken := approval.overtaken || decide (change.Overtakes db approval.fenced.draft) }

def act (action : Step) (world : World) : Except StagingError World :=
  match action with
  | .stage source page unit => do
    let outcome ← stageCompilationWikiDraft env stage world.db source page unit
    return { world with db := outcome.2.2 }
  | .submit draftId author expectedVersion reviewType notes eventId => do
    let db ← (submitWikiDraft world.db draftId author expectedVersion reviewType notes
      eventId).mapError StagingError.review
    return { world with db }
  | .withdraw draftId author eventId => do
    let db ← (Review.withdraw world.db draftId author eventId).mapError StagingError.review
    return { world with db }
  | .change change eventId => do
    let db ← (change.perform eventId world.db).mapError StagingError.review
    return { db, inFlight := world.inFlight.map fun approval => approval.after change world.db }
  | .fence draftId approval => do
    let fenced ← (fenceRead env world.db draftId approval).mapError StagingError.review
    return { world with inFlight := world.inFlight ++ [{ fenced }] }
  | .commit place pageId eventId now =>
    match world.inFlight[place]? with
    | none => .error (.review (.runtimeError "no such approval"))
    | some approval => .ok {
        db := (approval.fenced.commit env world.db pageId eventId now).toOption.getD world.db,
        inFlight := world.inFlight.eraseIdx place }
  | .abort place => .ok { world with inFlight := world.inFlight.eraseIdx place }

/-- When the approval of a compiler draft commits, the draft records the generation and the scope
targets of its source. -/
def CommitsCurrent (world : World) : Step → Prop
  | .commit place pageId eventId now =>
    ∀ approval ∈ world.inFlight[place]?, IsCompiler approval.fenced.draft →
      (approval.fenced.commit env world.db pageId eventId now).isOk →
        UpToDate world.db approval.fenced.draft
  | _ => True

/-- No change has overtaken the approval that commits. -/
def NotOvertaken (world : World) : Step → Prop
  | .commit place _ _ _ => ∀ approval ∈ world.inFlight[place]?, approval.overtaken = false
  | _ => True

instance (world : World) (action : Step) : Decidable (CommitsCurrent env world action) := by
  cases action <;> unfold CommitsCurrent <;> infer_instance

instance (world : World) (action : Step) : Decidable (NotOvertaken world action) := by
  cases action <;> unfold NotOvertaken <;> infer_instance

end Machine

section Invariant

variable {env : Platform} {stage : Stage} {world world' : World}

/-- What the row of a draft whose approval is in flight still says. -/
structure Tracked (db : Database) (approval : InFlight) (row : WikiPageDraft) : Prop where
  sourceMetadata : row.sourceMetadata = approval.fenced.draft.sourceMetadata
  submitted : row.status ≠ .draft
  upToDate : IsCompiler approval.fenced.draft → approval.overtaken = false →
    row.status ≠ .withdrawn → UpToDate db approval.fenced.draft

structure Sound (world : World) : Prop where
  agreement : Agreement world.db.drafts world.db.ledger
  tracked : ∀ approval ∈ world.inFlight, ∃ row,
    world.db.drafts.get approval.fenced.draft.id = some row ∧ Tracked world.db approval row

theorem sourceTruth_congr {db db' : Database} (hsources : db'.sources = db.sources)
    (hdepartments : db'.sourceDepartments = db.sourceDepartments) (draft : WikiPageDraft) :
    sourceTruth db' draft = sourceTruth db draft := by
  rw [sourceTruth, sourceTruth, compilerSource, compilerSource, hsources, hdepartments]

/-- A step that changes no source keeps every approval in flight as it is. -/
theorem Sound.keeps (h : Sound world) {db : Database} (hagree : Agreement db.drafts db.ledger)
    (hkeeps : KeepsReviewed world.db db) : Sound { world with db } := by
  refine ⟨hagree, ?_⟩
  intro approval hmem
  obtain ⟨row, hget, htracked⟩ := h.tracked approval hmem
  obtain ⟨row', hget', hmetadata, hstatus, hwithdrawn⟩ := hkeeps.row hget htracked.submitted
  refine ⟨row', hget', hmetadata.trans htracked.sourceMetadata, hstatus, ?_⟩
  intro horigin hovertaken hopen
  obtain ⟨hrecorded, hcurrent⟩ :=
    htracked.upToDate horigin hovertaken fun hs => hopen (hwithdrawn hs)
  refine ⟨hrecorded, hcurrent.trans ?_⟩
  exact (sourceTruth_congr hkeeps.sources hkeeps.sourceDepartments _).symm

theorem Sound.erase (h : Sound world) (place : Nat) :
    Sound { world with inFlight := world.inFlight.eraseIdx place } :=
  ⟨h.agreement, fun approval hmem => h.tracked approval (List.mem_of_mem_eraseIdx hmem)⟩

/-- A change moves no approval in flight that it does not overtake: it leaves what the draft is bound
to, or withdraws the draft. -/
theorem Sound.change (h : Sound world) {change : SourceChange} {eventId : Uuid → Uuid}
    {db : Database} (hop : change.perform eventId world.db = .ok db) :
    Sound { db, inFlight := world.inFlight.map fun approval => approval.after change world.db } := by
  simp only [SourceChange.perform, bind_ok, pure_ok, fetch_ok] at hop
  obtain ⟨source, hsource, middle, hinvalidate, rfl⟩ := hop
  have hid : source.id = change.sourceId := Table.get_key hsource
  have hsteps : Advances world.db.drafts middle.drafts middle.ledger ∧
      KeepsReviewed world.db middle := by
    unfold SourceChange.invalidate at hinvalidate
    split at hinvalidate
    · cases hinvalidate
      exact ⟨.refl h.agreement, .refl _⟩
    · refine ⟨invalidateStaleCompilerDrafts_advances h.agreement hinvalidate, ?_⟩
      simp only [invalidateStaleCompilerDrafts, bind_ok] at hinvalidate
      obtain ⟨-, -, hfold⟩ := hinvalidate
      exact fenceDrafts_keeps hfold
  obtain ⟨hadvances, hkeeps⟩ := hsteps
  refine ⟨hadvances.agreement, ?_⟩
  intro approval hmem
  obtain ⟨before, hbefore, rfl⟩ := List.mem_map.mp hmem
  obtain ⟨row, hget, htracked⟩ := h.tracked before hbefore
  obtain ⟨row', hget', hmetadata, hstatus, hwithdrawn⟩ := hkeeps.row hget htracked.submitted
  refine ⟨row', hget', hmetadata.trans htracked.sourceMetadata, hstatus, ?_⟩
  intro horigin hovertaken hopen
  obtain ⟨hbeforeFlag, hnot⟩ : before.overtaken = false ∧
      ¬ change.Overtakes world.db before.fenced.draft := by
    simpa [InFlight.after] using hovertaken
  have hcurrent : UpToDate world.db before.fenced.draft :=
    htracked.upToDate horigin hbeforeFlag fun hs => hopen (hwithdrawn hs)
  by_cases hmoves : change.Moves world.db before.fenced.draft
  · -- the invalidation has withdrawn the draft
    have hfences : change.Fences world.db before.fenced.draft := by
      by_contra hnone
      exact hnot ⟨hmoves, hnone⟩
    obtain ⟨last, hlast, hdone⟩ := hfences.withdrawn h.agreement.keyed hget
      htracked.sourceMetadata hcurrent hsource hinvalidate
    rw [hlast, Option.some.injEq] at hget'
    subst hget'
    exact absurd hdone hopen
  · have hsame : sourceTruth (change.write source world.db) before.fenced.draft =
        sourceTruth world.db before.fenced.draft := by
      by_contra hne
      exact hmoves ⟨source, hsource, hne⟩
    refine ⟨hcurrent.1, hcurrent.2.trans ?_⟩
    rw [← hsame]
    apply sourceTruth_congr
    · rw [SourceChange.write, SourceChange.write, hkeeps.sources]
    · rw [SourceChange.write, SourceChange.write, hkeeps.sourceDepartments]

theorem act_sound : Preserves (act env stage) (fun _ _ => True) Sound := by
  intro world world' action h _ hop
  cases action with
  | stage source page unit =>
    simp only [act, bind_ok, pure_ok] at hop
    obtain ⟨⟨draftId, isNew, db⟩, hstage, rfl⟩ := hop
    simp only [stageCompilationWikiDraft, bind_ok] at hstage
    obtain ⟨-, -, -, -, -, -, hstage⟩ := hstage
    split at hstage
    · simp only [bind_ok, pure_ok, Prod.mk.injEq] at hstage
      obtain ⟨-, -, -, -, rfl⟩ := hstage
      exact h
    · simp only [bind_ok, pure_ok, mapError_ok, Prod.mk.injEq] at hstage
      obtain ⟨after, hcreate, -, -, rfl⟩ := hstage
      exact h.keeps (createWikiDraft_advances h.agreement hcreate).agreement
        (createWikiDraft_keeps hcreate)
  | submit =>
    simp only [act, bind_ok, mapError_ok, pure_ok] at hop
    obtain ⟨db, hsubmit, rfl⟩ := hop
    exact h.keeps (submitWikiDraft_advances h.agreement hsubmit).agreement
      (submitWikiDraft_keeps hsubmit)
  | withdraw =>
    simp only [act, bind_ok, mapError_ok, pure_ok] at hop
    obtain ⟨db, hwithdraw, rfl⟩ := hop
    exact h.keeps (withdraw_advances h.agreement hwithdraw).agreement (withdraw_keeps hwithdraw)
  | change change eventId =>
    simp only [act, bind_ok, mapError_ok, pure_ok] at hop
    obtain ⟨db, hchange, rfl⟩ := hop
    exact h.change hchange
  | fence draftId approval =>
    simp only [act, bind_ok, mapError_ok, pure_ok] at hop
    obtain ⟨fenced, hfence, rfl⟩ := hop
    obtain ⟨hget, hpending, hcurrent⟩ := fenceRead_ok hfence
    refine ⟨h.agreement, ?_⟩
    intro other hmem
    rcases List.mem_append.mp hmem with hold | hnew
    · exact h.tracked other hold
    · obtain rfl := List.mem_singleton.mp hnew
      refine ⟨fenced.draft, hget, rfl, ?_, fun horigin _ _ => hcurrent horigin⟩
      rw [hpending]
      exact DraftStatus.noConfusion
  | commit place pageId eventId now =>
    rw [act] at hop
    split at hop
    · cases hop
    · rename_i approval hplace
      cases hop
      cases hcommit : approval.fenced.commit env world.db pageId eventId now with
      | error e => exact h.erase place
      | ok db =>
        obtain ⟨-, -, -, -, -, -, hadvances⟩ := Fenced.commit_advances h.agreement hcommit
        exact (h.erase place).keeps hadvances.agreement (Fenced.commit_keeps h.agreement hcommit)
  | abort place =>
    cases hop
    exact h.erase place

/-- An approval that no change has overtaken is up to date or has its draft withdrawn, and the ledger
refuses the approval of a withdrawn draft. -/
theorem Sound.commitsCurrent {action : Step} (h : Sound world)
    (hcondition : NotOvertaken world action) : CommitsCurrent env world action := by
  cases action with
  | commit place pageId eventId now =>
    intro approval hplace horigin hok
    obtain ⟨row, hget, htracked⟩ := h.tracked approval (List.mem_of_getElem? hplace)
    obtain ⟨db, hcommit⟩ := isOk_exists hok
    obtain ⟨-, -, found, hfound, hstatus, -⟩ := Fenced.commit_advances h.agreement hcommit
    rw [hget, Option.some.injEq] at hfound
    subst hfound
    apply htracked.upToDate horigin (hcondition approval hplace)
    intro hwithdrawn
    rw [hwithdrawn] at hstatus
    simp at hstatus
  | _ => trivial

theorem approvals_current {db : Database} {actions : List Step}
    (hagree : Agreement db.drafts db.ledger)
    (h : Meets (act env stage) NotOvertaken { db } actions) :
    Meets (act env stage) (CommitsCurrent env) { db } actions := by
  have hstart : Sound { db } := ⟨hagree, fun approval hmem => by cases hmem⟩
  have hpreserves : Preserves (act env stage) NotOvertaken Sound := by
    intro world world' action hsound _ hop
    exact act_sound hsound trivial hop
  exact hpreserves.meets (fun hsound hcondition => hsound.commitsCurrent hcondition) hstart h

end Invariant

section Scenario

open Staging (refundsUnit lengthStage)

def refunds : Database := { sources := [Staging.refundsSource] }

def refundsDraft : Uuid :=
  Staging.refundsStaging.draftId asciiText lengthStage

/-- A retry of the source starts a new generation. -/
def retry : SourceChange := { sourceId := 1, dispatch := some true }

def reingest : SourceChange := { retry with invalidation := some "Source re-ingest required" }

/-- The draft is staged and submitted, and its approval has read the source. -/
def reviewing : List Step := [
  .stage Staging.refundsSource none (refundsUnit "# Refunds"),
  .submit refundsDraft Staging.admin 1 "single" none 5,
  .fence refundsDraft { reviewerId := 11 }]

/-- An approval that commits before the retry, and one whose draft a re-ingest has withdrawn. -/
theorem reviewing_current :
    Meets (act asciiText lengthStage) (CommitsCurrent asciiText) { db := refunds }
        (reviewing ++ [.commit 0 40 6 0, .change retry fun _ => 7]) ∧
      Meets (act asciiText lengthStage) (CommitsCurrent asciiText) { db := refunds }
        (reviewing ++ [.change reingest fun _ => 7, .commit 0 40 6 0]) :=
  ⟨approvals_current .empty (by decide +kernel), approvals_current .empty (by decide +kernel)⟩

/-- A retry between the fence read and the commit: the page takes the earlier generation. -/
theorem retried_approval_commits :
    ¬ Meets (act asciiText lengthStage) (CommitsCurrent asciiText) { db := refunds }
      (reviewing ++ [.change retry fun _ => 7, .commit 0 40 6 0]) := by
  decide +kernel

end Scenario

end Cygnus.Mrp.Fence
