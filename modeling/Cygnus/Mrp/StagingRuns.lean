import Cygnus.Data.Machine
import Cygnus.Mrp.CommitLaws
import Cygnus.Mrp.Staging

namespace Cygnus.Mrp

open Wiki Review Governance Text Result Machine

section Reviewed

def Submitted (draft : WikiPageDraft) : Prop :=
  "review_type" ∈ Dict.keys (draft.sourceMetadata.getD [])

instance (draft : WikiPageDraft) : Decidable (Submitted draft) :=
  inferInstanceAs (Decidable (_ ∈ _))

/-- What a review leaves of a draft. Only a submission writes to its documents, and only the
approval of a submitted draft names another page. -/
structure Reviewed (draft after : WikiPageDraft) : Prop where
  id : after.id = draft.id
  kind : after.draftKind = draft.draftKind
  base : after.baseVersion = draft.baseVersion
  content : after.contentMd = draft.contentMd
  suggested : after.suggestedMetadata = draft.suggestedMetadata
  source : after.sourceMetadata = draft.sourceMetadata ∨ ∃ reviewType,
    after.sourceMetadata =
      some (Dict.set "review_type" (.str reviewType) (draft.sourceMetadata.getD []))
  page : after.pageId = draft.pageId ∨ draft.status = .pending
  pending : after.status = .pending → Submitted after ∨ draft.status = .pending

theorem Reviewed.submitted {draft after : WikiPageDraft} (hr : Reviewed draft after)
    (hs : Submitted draft) : Submitted after := by
  unfold Submitted
  rcases hr.source with hsource | ⟨reviewType, hsource⟩
  · rw [hsource]
    exact hs
  · rw [hsource]
    exact (Dict.mem_keys_set _ _ _ _).mpr (.inl rfl)

/-- One draft is rewritten by a review, or none is. -/
def Rewrites (drafts drafts' : Table WikiPageDraft) : Prop :=
  drafts' = drafts ∨ ∃ draft after, drafts.get draft.id = some draft ∧ Reviewed draft after ∧
    drafts' = drafts.put after

variable {env : Platform} {db db' : Database} {draftId eventId : Uuid} {now : Timestamp}

theorem submitWikiDraft_rewrites {author : Actor} {expectedVersion : Int} {reviewType : String}
    {notes : Option String}
    (h : submitWikiDraft db draftId author expectedVersion reviewType notes eventId = .ok db') :
    Rewrites db.drafts db'.drafts ∧ db'.sourceDepartments = db.sourceDepartments := by
  simp only [submitWikiDraft, bind_ok] at h
  obtain ⟨-, -, draft, hfetch, -, -, -, -, h⟩ := h
  split at h
  · simp only [bind_ok, mapError_ok, pure_ok] at h
    obtain ⟨-, -, -, -, rfl⟩ := h
    exact ⟨.inl rfl, rfl⟩
  · simp only [bind_ok, mapError_ok, pure_ok] at h
    obtain ⟨-, -, -, -, -, -, rfl⟩ := h
    refine ⟨.inr ⟨draft, submittedDraft draft reviewType notes, fetch_draft hfetch, ?_, rfl⟩, rfl⟩
    exact ⟨rfl, rfl, rfl, rfl, rfl, .inr ⟨reviewType, rfl⟩, .inl rfl,
      fun _ => .inl ((Dict.mem_keys_set _ _ _ _).mpr (.inl rfl))⟩

theorem requestChanges_rewrites {reviewer : Actor} {note : String}
    (h : requestChanges db draftId reviewer note eventId = .ok db') :
    Rewrites db.drafts db'.drafts ∧ db'.sourceDepartments = db.sourceDepartments := by
  simp only [requestChanges, bind_ok, pure_ok] at h
  obtain ⟨draft, hfetch, -, -, -, -, -, -, rfl⟩ := h
  refine ⟨.inr ⟨draft, _, fetch_draft hfetch, ?_, rfl⟩, rfl⟩
  exact ⟨rfl, rfl, rfl, rfl, rfl, .inl rfl, .inl rfl, fun hpending => by cases hpending⟩

theorem withdraw_rewrites {author : Actor} (h : withdraw db draftId author eventId = .ok db') :
    Rewrites db.drafts db'.drafts ∧ db'.sourceDepartments = db.sourceDepartments := by
  simp only [withdraw, bind_ok, pure_ok] at h
  obtain ⟨draft, hfetch, -, -, -, -, -, -, rfl⟩ := h
  refine ⟨.inr ⟨draft, _, fetch_draft hfetch, ?_, rfl⟩, rfl⟩
  exact ⟨rfl, rfl, rfl, rfl, rfl, .inl rfl, .inl rfl, fun hpending => by cases hpending⟩

theorem approveWikiDraft_rewrites {approval : Approval} {pageId : Uuid}
    (h : approveWikiDraft env db draftId approval pageId eventId now = .ok db') :
    Rewrites db.drafts db'.drafts ∧ db'.sourceDepartments = db.sourceDepartments := by
  obtain ⟨draft, page, written, row, ledger, hget, hpending, hpage, -, rfl⟩ :=
    approveWikiDraft_ok h
  refine ⟨.inr ⟨draft, _, fetch_draft (fetch_ok.mpr hget), ?_, rfl⟩,
    (materialise_frame hpage).sourceDepartments⟩
  exact ⟨rfl, rfl, rfl, rfl, rfl, .inl rfl, .inr hpending, fun hafter => by cases hafter⟩

end Reviewed

namespace Staging

structure World where
  db : Database
  /-- the calls that have made a draft -/
  stagings : List Staging := []

inductive Action
  | stage (source : Source) (page : Option WikiPage) (unit : Compilation)
  | submit (draftId : Uuid) (author : Actor) (expectedVersion : Int) (reviewType : String)
      (notes : Option String) (eventId : Uuid)
  | requestChanges (draftId : Uuid) (reviewer : Actor) (note : String) (eventId : Uuid)
  | withdraw (draftId : Uuid) (author : Actor) (eventId : Uuid)
  | approve (draftId : Uuid) (approval : Approval) (pageId eventId : Uuid) (now : Timestamp)

section Actions

variable (env : Platform) (stage : Stage)

/-- The call with the scope rows it finds. -/
def World.call (world : World) (source : Source) (page : Option WikiPage) (unit : Compilation) :
    Staging := ⟨source, page, unit, world.db.sourceDepartments⟩

def World.stageDraft (staging : Staging) (world : World) : Except StagingError World := do
  let outcome ← staging.perform env stage world.db
  return { db := outcome.2.2,
           stagings := if outcome.2.1 then world.stagings ++ [staging] else world.stagings }

def World.review (world : World) (outcome : Transaction Database) : Except StagingError World := do
  let db ← outcome.mapError StagingError.review
  return { world with db }

def act (action : Action) (world : World) : Except StagingError World :=
  match action with
  | .stage source page unit => world.stageDraft env stage (world.call source page unit)
  | .submit draftId author expectedVersion reviewType notes eventId =>
    world.review (submitWikiDraft world.db draftId author expectedVersion reviewType notes eventId)
  | .requestChanges draftId reviewer note eventId =>
    world.review (Review.requestChanges world.db draftId reviewer note eventId)
  | .withdraw draftId author eventId =>
    world.review (Review.withdraw world.db draftId author eventId)
  | .approve draftId approval pageId eventId now =>
    world.review (approveWikiDraft env world.db draftId approval pageId eventId now)

/-- No target has two drafts. -/
def OneDraftEach (drafts : Table WikiPageDraft) : Prop :=
  ∀ target : Target, ∀ draft ∈ drafts, ∀ other ∈ drafts,
    target.Of draft → target.Of other → draft.id = other.id

/-- What staging for a target that has its draft does: the same result is a replay, and other bytes
are a conflict. A call that raises is rolled back. -/
def Idempotent (world : World) : Action → Prop
  | .stage source page unit =>
    ∀ earlier ∈ world.stagings, (world.call source page unit).target env = earlier.target env →
      (page.map WikiPage.id = earlier.page.map WikiPage.id →
        (world.call source page unit).Repeats earlier →
          (world.call source page unit).perform env stage world.db =
            .ok (earlier.draftId env stage, false, world.db)) ∧
      (strip unit.contentMd ≠ "" → strip unit.contentMd ≠ strip earlier.unit.contentMd →
        ∃ message, (world.call source page unit).perform env stage world.db =
          .error (.compilationDraftConflict message))
  | _ => True

/-- Every draft of the target was staged for the page of this call, and one that was staged from
the same result has not been submitted and would be staged with the same context. -/
def Stageable (world : World) : Action → Prop
  | .stage source page unit =>
    ∀ earlier ∈ world.stagings, (world.call source page unit).target env = earlier.target env →
      page.map WikiPage.id = earlier.page.map WikiPage.id ∧
      ((world.call source page unit).Repeats earlier →
        (∀ draft ∈ world.db.drafts.get (earlier.draftId env stage), ¬ Submitted draft) ∧
          (world.call source page unit).SameContext earlier)
  | _ => True

instance (world : World) (action : Action) : Decidable (Stageable env stage world action) := by
  cases action <;> unfold Stageable <;> infer_instance

end Actions

section Invariant

variable {env : Platform} {stage : Stage}

/-- What a draft keeps of the staging that made it. -/
structure Tracks (env : Platform) (stage : Stage) (staging : Staging) (draft : WikiPageDraft) :
    Prop where
  target : (staging.target env).Of draft
  kind : draft.draftKind = (staging.row env stage).draftKind
  base : draft.baseVersion = (staging.row env stage).baseVersion
  content : draft.contentMd = strip staging.unit.contentMd
  suggested : draft.suggestedMetadata = (staging.row env stage).suggestedMetadata
  unsubmitted : ¬ Submitted draft → draft.sourceMetadata = (staging.row env stage).sourceMetadata ∧
    draft.pageId = (staging.row env stage).pageId
  pending : draft.status = .pending → Submitted draft

theorem lookup_set_of_ne {key k : String} (value : Json) {fields : JsonObject} (h : k ≠ key) :
    Json.lookup (Dict.set key value fields) k = Json.lookup fields k := by
  have hbeq : (k == key) = false := beq_eq_false_iff_ne.mpr h
  unfold Json.lookup
  congr 1
  induction fields with
  | nil => simp [Dict.set, h]
  | cons field fields ih =>
    obtain ⟨name, old⟩ := field
    unfold Dict.set
    split
    · rename_i hname
      rw [List.lookup_cons, List.lookup_cons, hname, hbeq]
    · rw [List.lookup_cons, List.lookup_cons, ih]

/-- The draft keeps tracking its staging through a review. -/
theorem Tracks.reviewed {staging : Staging} {draft after : WikiPageDraft}
    (h : staging.Tracks env stage draft) (hr : Reviewed draft after) :
    staging.Tracks env stage after where
  target := by
    obtain ⟨horigin, hsource, hgeneration, hscopeType, hscopeId, hlanguage, hslug⟩ := h.target
    rcases hr.source with hsame | ⟨reviewType, hset⟩
    · unfold Target.Of
      rw [hsame, hr.suggested]
      exact h.target
    · unfold Target.Of
      rw [hset, hr.suggested]
      simp only [Option.getD_some]
      rw [lookup_set_of_ne _ (by decide), lookup_set_of_ne _ (by decide),
        lookup_set_of_ne _ (by decide), lookup_set_of_ne _ (by decide),
        lookup_set_of_ne _ (by decide), lookup_set_of_ne _ (by decide)]
      exact h.target
  kind := hr.kind.trans h.kind
  base := hr.base.trans h.base
  content := hr.content.trans h.content
  suggested := hr.suggested.trans h.suggested
  unsubmitted hafter := by
    have hdraft : ¬ Submitted draft := fun hs => hafter (hr.submitted hs)
    obtain ⟨hsource, hpage⟩ := h.unsubmitted hdraft
    refine ⟨?_, ?_⟩
    · rcases hr.source with hsame | ⟨reviewType, hset⟩
      · rw [hsame, hsource]
      · refine absurd ?_ hafter
        rw [Submitted, hset]
        exact (Dict.mem_keys_set _ _ _ _).mpr (.inl rfl)
    · rcases hr.page with hsame | hpending
      · rw [hsame, hpage]
      · exact absurd (h.pending hpending) hdraft
  pending hafter := by
    rcases hr.pending hafter with hs | hpending
    · exact hs
    · exact hr.submitted (h.pending hpending)

structure Sound (env : Platform) (stage : Stage) (world : World) : Prop where
  keyed : world.db.drafts.Keyed
  tracked : ∀ staging ∈ world.stagings, ∃ draft,
    world.db.drafts.get (staging.draftId env stage) = some draft ∧
      staging.Tracks env stage draft
  staged : ∀ draft ∈ world.db.drafts, ∃ staging ∈ world.stagings,
    staging.draftId env stage = draft.id
  distinct : (world.stagings.map fun staging => staging.target env).Nodup
  valid : ∀ staging ∈ world.stagings, staging.Valid env

variable {world world' : World}

theorem Sound.oneDraftEach (h : Sound env stage world) : OneDraftEach world.db.drafts := by
  intro target draft hdraft other hother htarget htarget'
  have hof : ∀ draft ∈ world.db.drafts, target.Of draft → ∃ staging ∈ world.stagings,
      staging.draftId env stage = draft.id ∧ staging.target env = target := by
    intro draft hdraft htarget
    obtain ⟨staging, hstaging, hid⟩ := h.staged draft hdraft
    obtain ⟨found, hget, htracks⟩ := h.tracked staging hstaging
    have hfound : world.db.drafts.get draft.id = some draft := h.keyed.get_of_mem hdraft
    rw [hid, hfound, Option.some.injEq] at hget
    subst hget
    exact ⟨staging, hstaging, hid, htracks.target.unique htarget⟩
  obtain ⟨staging, hstaging, hid, heq⟩ := hof draft hdraft htarget
  obtain ⟨staging', hstaging', hid', heq'⟩ := hof other hother htarget'
  have hsame := List.inj_on_of_nodup_map h.distinct hstaging hstaging' (heq.trans heq'.symm)
  rw [← hid, ← hid', hsame]

/-- A review keeps every draft with its staging. -/
theorem Sound.rewrites (h : Sound env stage world) {db : Database}
    (hr : Rewrites world.db.drafts db.drafts) : Sound env stage { world with db } := by
  rcases hr with hsame | ⟨draft, after, hget, hreviewed, hput⟩
  · exact ⟨hsame ▸ h.keyed, hsame ▸ h.tracked, hsame ▸ h.staged, h.distinct, h.valid⟩
  refine ⟨?_, ?_, ?_, h.distinct, h.valid⟩
  · rw [hput]
    exact h.keyed.put after
  · intro staging hstaging
    obtain ⟨found, hfound, htracks⟩ := h.tracked staging hstaging
    rw [hput, Table.get_put, hfound, Option.map_some]
    split
    · rename_i hkey
      have hid : draft.id = staging.draftId env stage := hreviewed.id.symm.trans hkey
      rw [hid, hfound, Option.some.injEq] at hget
      subst hget
      exact ⟨after, rfl, htracks.reviewed hreviewed⟩
    · exact ⟨found, rfl, htracks⟩
  · intro other hother
    rw [hput] at hother
    rcases Table.mem_put hother with rfl | ⟨hold, -⟩
    · obtain ⟨staging, hstaging, hid⟩ := h.staged draft (Table.get_mem hget)
      exact ⟨staging, hstaging, hid.trans hreviewed.id.symm⟩
    · exact h.staged other hold

theorem stageDraft_ok {staging : Staging} (hdepartments : staging.departments =
    world.db.sourceDepartments) (h : world.stageDraft env stage staging = .ok world') :
    world' = world ∨ staging.Valid env ∧ world.db.drafts.get (staging.draftId env stage) = none ∧
      world'.db.drafts = world.db.drafts ++ [(staging.row env stage).row] ∧
      world'.stagings = world.stagings ++ [staging] := by
  simp only [World.stageDraft, bind_ok, pure_ok] at h
  obtain ⟨⟨draftId, isNew, db⟩, hperform, rfl⟩ := h
  obtain ⟨hvalid, rfl, ⟨rfl, rfl⟩ | ⟨rfl, hnone, hdrafts, -⟩⟩ :=
    perform_ok hperform hdepartments
  · exact .inl rfl
  · exact .inr ⟨hvalid, hnone, hdrafts, rfl⟩

/-- A new draft is the first of its target: an earlier one would have its identifier. -/
theorem Sound.stageDraft (h : Sound env stage world) {staging : Staging}
    (hdepartments : staging.departments = world.db.sourceDepartments)
    (hpages : ∀ earlier ∈ world.stagings, staging.target env = earlier.target env →
      staging.page.map WikiPage.id = earlier.page.map WikiPage.id)
    (hok : world.stageDraft env stage staging = .ok world') : Sound env stage world' := by
  rcases stageDraft_ok hdepartments hok with rfl | ⟨hvalid, hnone, hdrafts, hstagings⟩
  · exact h
  have hnew : world.db.drafts.get (Row.key (staging.row env stage).row) = none := hnone
  have htracks : staging.Tracks env stage (staging.row env stage).row :=
    ⟨target_row staging, rfl, rfl, rfl, rfl, fun _ => ⟨rfl, rfl⟩, fun hpending => by cases hpending⟩
  refine ⟨?_, ?_, ?_, ?_, ?_⟩
  · rw [hdrafts]
    exact h.keyed.append hnew
  · intro earlier hearlier
    rw [hstagings, List.mem_append, List.mem_singleton] at hearlier
    rw [hdrafts]
    rcases hearlier with hold | rfl
    · obtain ⟨draft, hget, hdraft⟩ := h.tracked earlier hold
      exact ⟨draft, Table.get_append_of_some hget, hdraft⟩
    · exact ⟨_, Table.get_append_self hnew, htracks⟩
  · intro draft hdraft
    rw [hdrafts, List.mem_append, List.mem_singleton] at hdraft
    rw [hstagings]
    rcases hdraft with hold | rfl
    · obtain ⟨earlier, hearlier, hid⟩ := h.staged draft hold
      exact ⟨earlier, List.mem_append_left _ hearlier, hid⟩
    · exact ⟨staging, List.mem_append_right _ List.mem_cons_self, rfl⟩
  · rw [hstagings, List.map_append, List.nodup_append]
    refine ⟨h.distinct, List.nodup_singleton _, ?_⟩
    intro target htarget other hother heq
    obtain ⟨earlier, hearlier, rfl⟩ := List.mem_map.mp htarget
    rw [List.map_singleton, List.mem_singleton] at hother
    have hsame : staging.target env = earlier.target env := (heq.trans hother).symm
    obtain ⟨draft, hget, -⟩ := h.tracked earlier hearlier
    rw [← draftId_eq hsame (hpages earlier hearlier hsame), hnone] at hget
    cases hget
  · intro earlier hearlier
    rw [hstagings, List.mem_append, List.mem_singleton] at hearlier
    rcases hearlier with hold | rfl
    · exact h.valid earlier hold
    · exact hvalid

theorem act_sound : Preserves (act env stage) (Stageable env stage) (Sound env stage) := by
  intro world world' action h hstageable hok
  have hreview : ∀ outcome : Transaction Database, world.review outcome = .ok world' →
      (∀ db, outcome = .ok db → Rewrites world.db.drafts db.drafts) → Sound env stage world' := by
    intro outcome hreview hrewrites
    simp only [World.review, bind_ok, mapError_ok, pure_ok] at hreview
    obtain ⟨db, hdb, rfl⟩ := hreview
    exact h.rewrites (hrewrites db hdb)
  cases action with
  | stage source page unit =>
    exact h.stageDraft rfl (fun earlier hearlier htarget => (hstageable earlier hearlier htarget).1)
      hok
  | submit => exact hreview _ hok fun db hdb => (submitWikiDraft_rewrites hdb).1
  | requestChanges => exact hreview _ hok fun db hdb => (requestChanges_rewrites hdb).1
  | withdraw => exact hreview _ hok fun db hdb => (withdraw_rewrites hdb).1
  | approve => exact hreview _ hok fun db hdb => (approveWikiDraft_rewrites hdb).1

section Again

variable {staging earlier : Staging}

/-- A call for a target that has its draft, and for its page, finds the draft. -/
theorem Sound.found (h : Sound env stage world) (hearlier : earlier ∈ world.stagings)
    (htarget : staging.target env = earlier.target env)
    (hpage : staging.page.map WikiPage.id = earlier.page.map WikiPage.id) :
    ∃ draft, world.db.drafts.get (earlier.draftId env stage) = some draft ∧
      world.db.drafts.get (staging.draftId env stage) = some draft ∧
        earlier.Tracks env stage draft := by
  obtain ⟨draft, hget, htracks⟩ := h.tracked earlier hearlier
  refine ⟨draft, hget, ?_, htracks⟩
  rw [draftId_eq htarget hpage]
  exact hget

theorem Valid.of_target (h : earlier.Valid env) (htarget : staging.target env = earlier.target env)
    (hcontent : strip staging.unit.contentMd ≠ "") : staging.Valid env where
  slug := by
    have hslug : staging.slug env = earlier.slug env := congrArg Target.slug htarget
    rw [hslug]
    exact h.slug
  language := by
    have hlanguage : staging.language env = earlier.language env :=
      congrArg Target.language htarget
    rw [hlanguage]
    exact h.language
  content := hcontent

theorem Sound.replay (h : Sound env stage world) (hearlier : earlier ∈ world.stagings)
    (hdepartments : staging.departments = world.db.sourceDepartments)
    (htarget : staging.target env = earlier.target env)
    (hpage : staging.page.map WikiPage.id = earlier.page.map WikiPage.id)
    (hrepeats : staging.Repeats earlier)
    (hunsubmitted : ∀ draft ∈ world.db.drafts.get (earlier.draftId env stage), ¬ Submitted draft)
    (hcontext : staging.SameContext earlier) :
    staging.perform env stage world.db = .ok (earlier.draftId env stage, false, world.db) := by
  obtain ⟨draft, hget, hfound, htracks⟩ := h.found hearlier htarget hpage
  obtain ⟨hsource, hdraftPage⟩ := htracks.unsubmitted (hunsubmitted draft hget)
  have hvalid := h.valid earlier hearlier
  have hcontent : strip staging.unit.contentMd ≠ "" := by
    rw [hrepeats.unit]
    exact hvalid.content
  rw [← draftId_eq htarget hpage]
  apply perform_replay (hvalid.of_target htarget hcontent) hdepartments hfound
  rw [row_eq htarget hpage hrepeats hcontext]
  exact isExactReplay_row earlier hdraftPage htracks.kind htracks.base htracks.content hsource
    htracks.suggested

theorem Sound.conflict (h : Sound env stage world) (hearlier : earlier ∈ world.stagings)
    (hdepartments : staging.departments = world.db.sourceDepartments)
    (htarget : staging.target env = earlier.target env)
    (hpage : staging.page.map WikiPage.id = earlier.page.map WikiPage.id)
    (hcontent : strip staging.unit.contentMd ≠ "")
    (hother : strip staging.unit.contentMd ≠ strip earlier.unit.contentMd) :
    ∃ message, staging.perform env stage world.db =
      .error (.compilationDraftConflict message) := by
  obtain ⟨draft, -, hfound, htracks⟩ := h.found hearlier htarget hpage
  have hvalid := (h.valid earlier hearlier).of_target htarget hcontent
  refine ⟨_, perform_conflict hvalid hdepartments hfound ?_⟩
  have hdiffers : draft.contentMd ≠ (staging.row env stage).contentMd := by
    rw [htracks.content]
    exact hother.symm
  simp [isExactReplay, hdiffers]

end Again

theorem act_idempotent {action : Action} (h : Sound env stage world)
    (hstageable : Stageable env stage world action) : Idempotent env stage world action := by
  cases action with
  | stage source page unit =>
    intro earlier hearlier htarget
    obtain ⟨hpage, hsame⟩ := hstageable earlier hearlier htarget
    refine ⟨fun _ hrepeats => ?_, fun hcontent hother => ?_⟩
    · obtain ⟨hunsubmitted, hcontext⟩ := hsame hrepeats
      exact h.replay hearlier rfl htarget hpage hrepeats hunsubmitted hcontext
    · exact h.conflict hearlier rfl htarget hpage hcontent hother
  | submit | requestChanges | withdraw | approve => trivial

/-- The world before anything is staged. -/
def unstaged (db : Database) : World := { db := { db with drafts := [] } }

theorem unstaged_sound (db : Database) : Sound env stage (unstaged db) where
  keyed := List.nodup_nil
  tracked staging h := by cases h
  staged draft h := by cases h
  distinct := List.nodup_nil
  valid staging h := by cases h

theorem staging_idempotent {db : Database} {actions : List Action}
    (h : Meets (act env stage) (Stageable env stage) (unstaged db) actions) :
    OneDraftEach (run (act env stage) (unstaged db) actions).db.drafts ∧
      Meets (act env stage) (Idempotent env stage) (unstaged db) actions :=
  ⟨(Preserves.run act_sound (unstaged_sound db) h).oneDraftEach,
    Preserves.meets act_sound act_idempotent (unstaged_sound db) h⟩

end Invariant

section Scenario

def refundsSource : Source := { id := 1, dispatchGeneration := 1 }

def refundsUnit (contentMd : String) : Compilation :=
  { slug := "Refunds", title := "Refunds", pageType := "concept", contentMd, summary := "",
    knowledgeTypeSlug := none, scopeType := "global", scopeId := none, language := "en",
    compiler := "mrp" }

def refundsDatabase : Database := { sources := [refundsSource] }

/-- Identifiers told apart by the length of the name. -/
def lengthStage : Stage := ⟨fun name => Fin.ofNat _ name.length, id, none⟩

def stageRefunds (page : Option WikiPage) (contentMd : String) : Action :=
  .stage refundsSource page (refundsUnit contentMd)

def refundsStaging : Staging := ⟨refundsSource, none, refundsUnit "# Refunds", []⟩

def refundsDraft : Uuid := refundsStaging.draftId asciiText lengthStage

def admin : Actor := ⟨9, "admin"⟩

/-- The first two calls replay each other, and the last finds other bytes under review. -/
def replayed : List Action :=
  [stageRefunds none "# Refunds", stageRefunds none "# Refunds",
   .submit refundsDraft admin 1 "content" none 101, stageRefunds none "# Refunds again"]

theorem replayed_idempotent :
    OneDraftEach (run (act asciiText lengthStage) (unstaged refundsDatabase) replayed).db.drafts ∧
      Meets (act asciiText lengthStage) (Idempotent asciiText lengthStage)
        (unstaged refundsDatabase) replayed :=
  staging_idempotent (by decide +kernel)

def submitted : List Action :=
  [stageRefunds none "# Refunds", .submit refundsDraft admin 1 "content" none 101]

def submittedWorld : World := run (act asciiText lengthStage) (unstaged refundsDatabase) submitted

/-- The world in which the draft has become page 40. -/
def approvedWorld : World :=
  run (act asciiText lengthStage) (unstaged refundsDatabase)
    (submitted ++ [.approve refundsDraft { reviewerId := 9 } 40 102 0])

/-- The same result conflicts with its submitted draft, and makes a second draft of its target once
the first has become a page. -/
theorem submitted_draft_conflicts :
    ¬ Idempotent asciiText lengthStage submittedWorld (stageRefunds none "# Refunds") ∧
      ¬ OneDraftEach (step (act asciiText lengthStage) approvedWorld
        (stageRefunds (approvedWorld.db.pages.get 40) "# Refunds")).db.drafts := by
  constructor
  · intro h
    obtain ⟨⟨earlier, hearlier, htarget, hpage, hrepeats⟩, hraises⟩ :
        (∃ earlier ∈ submittedWorld.stagings,
          (submittedWorld.call refundsSource none (refundsUnit "# Refunds")).target asciiText =
              earlier.target asciiText ∧
            none = earlier.page.map WikiPage.id ∧
              (submittedWorld.call refundsSource none (refundsUnit "# Refunds")).Repeats earlier) ∧
        ((submittedWorld.call refundsSource none (refundsUnit "# Refunds")).perform asciiText
          lengthStage submittedWorld.db).isOk = false := by
      decide +kernel
    have hreplay := (h earlier hearlier htarget).1 hpage hrepeats
    rw [hreplay] at hraises
    cases hraises
  · intro h
    obtain ⟨draft, hdraft, other, hother, htarget, htarget', hne⟩ :
        ∃ draft ∈ (step (act asciiText lengthStage) approvedWorld
            (stageRefunds (approvedWorld.db.pages.get 40) "# Refunds")).db.drafts,
          ∃ other ∈ (step (act asciiText lengthStage) approvedWorld
              (stageRefunds (approvedWorld.db.pages.get 40) "# Refunds")).db.drafts,
            (refundsStaging.target asciiText).Of draft ∧
              (refundsStaging.target asciiText).Of other ∧ draft.id ≠ other.id := by
      decide +kernel
    exact hne (h _ draft hdraft other hother htarget htarget')

end Scenario

end Staging

end Cygnus.Mrp
