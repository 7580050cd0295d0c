import Cygnus.Dispatch.OutboxRuns

/-! What a worker meets when it starts a job of the outbox. -/

namespace Cygnus.Dispatch

open Wiki Text Result Sequence Machine

/-- The task ends before it writes to its source. -/
def Entry.Aborts : Entry → Prop
  | refused => True
  | skipped => True
  | fenced _ => True
  | unfenced => False
  | claimed _ _ => False

/-- The claim is on the one row that carries the id of the job. -/
structure ClaimsOwnRow (world : World) (job : Job) (leaseToken : String)
    (claim : SourceDispatchClaim) (row : SourceDispatchExecution) : Prop where
  mem : row ∈ world.executions
  jobId_eq : row.jobId = job.jobId
  unique : ∀ other ∈ world.executions, other.jobId = job.jobId → other = row
  live : row.dispatchStatus.isTerminal = false
  claim_eq : claim = buildClaim row leaseToken

/-- The task runs under a claim on the row of its job, or not at all. -/
def RunsFenced (world : World) (source : Source) (job : Job) (leaseToken : String)
    (now : Timestamp) : Prop :=
  (enterTask world.executions source job leaseToken now).Aborts ∨
    ∃ claim executions row,
      enterTask world.executions source job leaseToken now = .claimed claim executions ∧
      ClaimsOwnRow world job leaseToken claim row

/-- A claim is on the row of the job. A row that the worker can see keeps the job from running
unfenced until it is terminal, and a row of an older generation keeps it from running at all. -/
structure FencedByRow (world : World) (source : Source) (job : Job) (stage : DispatchStage)
    (leaseToken : String) (now : Timestamp) : Prop where
  claims_own : ∀ claim executions,
    enterTask world.executions source job leaseToken now = .claimed claim executions →
    ∃ row, ClaimsOwnRow world job leaseToken claim row
  visible : ∀ row ∈ world.executions, row.jobId = job.jobId →
    row.generation ≤ source.dispatchGeneration →
    ¬ (stage = .postExtraction ∧ job.taskName = .ingestMapReduceTask) →
    RunsFenced world source job leaseToken now ∨
      row.generation = source.dispatchGeneration ∧ row.dispatchStatus.isTerminal
  older : ∀ row ∈ world.executions, row.jobId = job.jobId →
    row.generation < source.dispatchGeneration →
    ¬ (stage = .postExtraction ∧ job.taskName = .ingestMapReduceTask) →
    (enterTask world.executions source job leaseToken now).Aborts

variable {world : World} {source : Source} {job : Job} {leaseToken : String} {now : Timestamp}
  {row : SourceDispatchExecution} {claim : SourceDispatchClaim}
  {executions : Table SourceDispatchExecution} {stage : DispatchStage} {generation : Nat}

theorem sourceStageJobId_ne_empty (sourceId : Uuid) :
    sourceStageJobId sourceId stage generation ≠ "" := by
  intro h
  have hlist := congrArg String.toList h
  rw [toList_sourceStageJobId] at hlist
  simp at hlist

/-- The row with a job id of the outbox is the row of its source, stage and generation. -/
theorem Sound.row_of_jobId (h : Sound world) (hrow : row ∈ world.executions) {sourceId : Uuid}
    (hjob : row.jobId = sourceStageJobId sourceId stage generation) :
    row.sourceId = sourceId ∧ row.stage = stage ∧ row.generation = generation :=
  sourceStageJobId_inj ((h.rows.mem hrow).jobId_eq.symm.trans hjob)

theorem Sound.eq_of_jobId (h : Sound world) (hrow : row ∈ world.executions)
    {other : SourceDispatchExecution} (hother : other ∈ world.executions)
    (hjob : other.jobId = row.jobId) : other = row := by
  obtain ⟨hsource, hstage, hgeneration⟩ :=
    h.row_of_jobId hother (hjob.trans (h.rows.mem hrow).jobId_eq)
  have hkeys := h.rows.keys
  rw [List.map_map] at hkeys
  apply List.inj_on_of_nodup_map hkeys hother hrow
  simp only [Function.comp_apply, SourceDispatchExecution.target, Target.key, Prod.mk.injEq]
  exact ⟨hsource, hgeneration, hstage⟩

/-- The row that `claim_source_dispatch` looks for is found when it is there. -/
theorem Sound.findExecution_eq (h : Sound world) (hrow : row ∈ world.executions) :
    findExecution world.executions row.sourceId row.generation row.stage = some row := by
  cases hfind : findExecution world.executions row.sourceId row.generation row.stage with
  | none => exact absurd rfl (findExecution_none hfind row hrow)
  | some found =>
    obtain ⟨hmem, hkey⟩ := findExecution_some hfind
    have hkeys := h.rows.keys
    rw [List.map_map] at hkeys
    rw [List.inj_on_of_nodup_map hkeys hmem hrow hkey]

theorem claimCurrent_claimed {jobId : String} (hne : jobId ≠ "")
    (hclaim : claimCurrent world.executions source stage jobId leaseToken now =
      .claimed claim executions) :
    ∃ row ∈ world.executions, row.jobId = jobId ∧ row.stage = stage ∧
      row.dispatchStatus.isTerminal = false ∧ claim = buildClaim row leaseToken := by
  unfold claimCurrent at hclaim
  split at hclaim
  · cases hclaim
  · rename_i row hfind
    split at hclaim
    · cases hclaim
    · rename_i hlive
      split at hclaim
      · cases hclaim
      · rename_i hmatch
        cases hclaim
        obtain ⟨hmem, hkey⟩ := findExecution_some hfind
        have hstage : row.stage = stage := congrArg (·.2.2) hkey
        refine ⟨row, hmem, ?_, hstage, by simpa using hlive, rfl⟩
        by_contra hother
        exact hmatch ⟨hne, hother⟩

theorem enterTask_claimed
    (h : enterTask world.executions source job leaseToken now = .claimed claim executions) :
    claimCurrent world.executions source job.taskName.claimStage job.jobId leaseToken now =
      .claimed claim executions := by
  unfold enterTask at h
  split at h
  · cases h
  · split at h
    · cases h
    · split at h
      · cases h
      · cases h
      · rename_i hclaim
        cases h
        unfold claimSourceDispatch at hclaim
        split at hclaim
        · cases hclaim
        · split at hclaim
          · exact hclaim
          · split at hclaim
            · cases hclaim
            · exact hclaim

/-- A job of the outbox that starts on the source and the stage it was recorded for. -/
theorem enterTask_cases {sourceId : Uuid}
    (hjob : job.jobId = sourceStageJobId sourceId job.taskName.claimStage generation)
    (hsource : source.id = sourceId) (hstarted : 1 ≤ source.dispatchGeneration) :
    (enterTask world.executions source job leaseToken now).Aborts ∨
      source.dispatchGeneration ≤ generation ∧
        (claimCurrent world.executions source job.taskName.claimStage job.jobId leaseToken now =
            .nothing ∧ enterTask world.executions source job leaseToken now = .unfenced ∨
          ∃ claim executions, enterTask world.executions source job leaseToken now =
            .claimed claim executions) := by
  unfold enterTask
  split
  · exact .inl trivial
  · split
    · exact .inl trivial
    · have hparse : parseDispatchJobId job.jobId =
          some (sourceId, job.taskName.claimStage.value, (generation : Int)) := by
        rw [hjob, parseDispatchJobId_sourceStageJobId]
      simp only [claimSourceDispatch, hparse, if_neg (Nat.not_lt.mpr hstarted), hsource, true_and]
      by_cases holder : (generation : Int) < source.dispatchGeneration
      · rw [if_pos holder]
        exact .inl trivial
      · rw [if_neg holder]
        cases hcurrent : claimCurrent world.executions source job.taskName.claimStage job.jobId
            leaseToken now with
        | nothing => exact .inr ⟨by omega, .inl ⟨rfl, rfl⟩⟩
        | claimed claim executions => exact .inr ⟨by omega, .inr ⟨claim, executions, rfl⟩⟩
        | superseded message executions => exact .inl trivial

/-- Whatever happened before, a worker that starts a queued job of the outbox claims the row of that
job or, once the row is visible, runs unfenced only past a terminal row. -/
theorem queued_job_fencedByRow (actions : List Action) {source : Source} {job : Job}
    (hjob : job ∈ (run perform {} actions).queue) (hloads : job.loads source) {sourceId : Uuid}
    {stage : DispatchStage} {generation : Nat}
    (hid : job.jobId = sourceStageJobId sourceId stage generation) (leaseToken : String)
    (now : Timestamp) :
    FencedByRow (run perform {} actions) source job stage leaseToken now := by
  have h := run_sound actions
  obtain ⟨hpaired, hargs⟩ := h.queue job hjob sourceId stage generation hid
  have hsource : source.id = sourceId := by
    rw [Job.loads, hargs, Option.bind_some, Uuid.parse_text] at hloads
    exact (Option.some.inj hloads).symm
  have hown : ∀ claim executions,
      enterTask (run perform {} actions).executions source job leaseToken now =
        .claimed claim executions →
      ∃ row, ClaimsOwnRow (run perform {} actions) job leaseToken claim row := by
    intro claim executions hentry
    have hne : job.jobId ≠ "" := by
      rw [hid]
      exact sourceStageJobId_ne_empty sourceId
    obtain ⟨row, hrow, hjobId, -, hlive, hclaim⟩ :=
      claimCurrent_claimed hne (enterTask_claimed hentry)
    exact ⟨row, hrow, hjobId, fun other hother heq => h.eq_of_jobId hrow hother (heq.trans hjobId.symm),
      hlive, hclaim⟩
  have hentry : ∀ row ∈ (run perform {} actions).executions, row.jobId = job.jobId →
      ¬ (stage = .postExtraction ∧ job.taskName = .ingestMapReduceTask) →
      row.generation ≤ source.dispatchGeneration →
      (enterTask (run perform {} actions).executions source job leaseToken now).Aborts ∨
        row.generation = source.dispatchGeneration ∧
        (row.dispatchStatus.isTerminal ∨ ∃ claim executions,
          enterTask (run perform {} actions).executions source job leaseToken now =
            .claimed claim executions) := by
    intro row hrow hjobId hexception hreached
    obtain ⟨hrowSource, hrowStage, hrowGeneration⟩ := h.row_of_jobId hrow (hjobId.trans hid)
    have hclaimStage : job.taskName.claimStage = stage := by
      rcases hpaired with hpaired | hpaired
      · exact hpaired
      · exact absurd hpaired hexception
    have hstarted := (h.rows.mem hrow).started.trans hreached
    rcases @enterTask_cases (run perform {} actions) source job leaseToken now generation sourceId
        (by rw [hclaimStage]; exact hid) hsource hstarted with habort | ⟨hge, hcases⟩
    · exact .inl habort
    · have hcurrent : row.generation = source.dispatchGeneration := by omega
      right
      refine ⟨hcurrent, ?_⟩
      rcases hcases with ⟨hnothing, -⟩ | hclaimed
      · left
        have hfind := h.findExecution_eq hrow
        rw [hrowSource, hrowStage, hcurrent, ← hsource, ← hclaimStage] at hfind
        simp only [claimCurrent, hfind] at hnothing
        by_contra hlive
        simp [hlive, hjobId] at hnothing
      · exact .inr hclaimed
  constructor
  · exact hown
  · intro row hrow hjobId hreached hexception
    rcases hentry row hrow hjobId hexception hreached with habort | ⟨hcurrent, hterminal | hclaimed⟩
    · exact .inl (.inl habort)
    · exact .inr ⟨hcurrent, hterminal⟩
    · obtain ⟨claim, executions, hclaimed⟩ := hclaimed
      obtain ⟨own, hclaimsOwn⟩ := hown claim executions hclaimed
      exact .inl (.inr ⟨claim, executions, own, hclaimed, hclaimsOwn⟩)
  · intro row hrow hjobId holder hexception
    rcases hentry row hrow hjobId hexception holder.le with habort | ⟨hcurrent, -⟩
    · exact habort
    · exact absurd hcurrent holder.ne

/-- The handoff of a source without images is recorded under `post_extraction`, and the task that
takes it looks for a row of `map_reduce`: it never holds a claim. -/
theorem imageFree_handoff_not_claimed (actions : List Action) {source : Source} {job : Job}
    {sourceId : Uuid} {generation : Nat} {leaseToken : String} {now : Timestamp}
    (hid : job.jobId = sourceStageJobId sourceId .postExtraction generation)
    (htask : job.taskName = .ingestMapReduceTask) (claim : SourceDispatchClaim)
    (executions : Table SourceDispatchExecution) :
    enterTask (run perform {} actions).executions source job leaseToken now ≠
      .claimed claim executions := by
  intro hentry
  have hne : job.jobId ≠ "" := by
    rw [hid]
    exact sourceStageJobId_ne_empty sourceId
  obtain ⟨row, hrow, hjobId, hstage, -, -⟩ := claimCurrent_claimed hne (enterTask_claimed hentry)
  obtain ⟨-, hrecorded, -⟩ := (run_sound actions).row_of_jobId hrow (hjobId.trans hid)
  rw [hstage, htask] at hrecorded
  cases hrecorded

section Upload

/-- A file is uploaded and handed to a worker. -/
def upload : List Action := [
  .addSource { id := 1, minioKey := some "sources/1/original/refunds.pdf" },
  .load 2 1, .record 2 .ingestFile 3 0, .enqueue 2 .accepted 0, .commit 2]

def uploaded : Source :=
  { id := 1, minioKey := some "sources/1/original/refunds.pdf", dispatchGeneration := 1 }

def ingestJob : Job := ⟨sourceStageJobId 1 .ingest 1, .ingestFileTask, [Uuid.text 1]⟩

theorem uploaded_job_fenced :
    ingestJob ∈ (run perform {} upload).queue ∧ ingestJob.loads uploaded ∧
      FencedByRow (run perform {} upload) uploaded ingestJob .ingest "lease" 1 := by
  have hqueue : ingestJob ∈ (run perform {} upload).queue := by decide +kernel
  have hloads : ingestJob.loads uploaded := by decide +kernel
  exact ⟨hqueue, hloads, queued_job_fencedByRow upload hqueue hloads rfl "lease" 1⟩

/-- The worker completes the execution and dies before the queue has taken note. -/
def ingestTwice : List Action := upload ++ [
  .load 4 1, .start 4 ingestJob "first" 1,
  .mark (buildClaim ((Handoff.mk .ingest .ingestFileTask [Uuid.text 1] true).newRow 3 1 1 0) "first")
    (.complete "awaiting_approval") 2]

theorem redelivered_job_unfenced :
    ¬ ∀ (actions : List Action) (source : Source) (job : Job) (sourceId : Uuid)
      (stage : DispatchStage) (generation : Nat) (leaseToken : String) (now : Timestamp),
      job ∈ (run perform {} actions).queue → job.loads source →
      job.jobId = sourceStageJobId sourceId stage generation →
      RunsFenced (run perform {} actions) source job leaseToken now := by
  intro h
  have hentry : enterTask (run perform {} ingestTwice).executions uploaded ingestJob "second" 3 =
      .unfenced := by
    decide +kernel
  rcases h ingestTwice uploaded ingestJob 1 .ingest 1 "second" 3 (by decide +kernel)
    (by decide +kernel) rfl with habort | ⟨claim, executions, row, hclaimed, -⟩
  · rw [hentry] at habort
    exact habort
  · rw [hentry] at hclaimed
    cases hclaimed

end Upload

end Cygnus.Dispatch
