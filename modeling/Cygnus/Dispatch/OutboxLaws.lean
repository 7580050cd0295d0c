import Cygnus.Dispatch.Outbox

namespace Cygnus.Dispatch

open Wiki Text Result Sequence Machine

/-- The columns that identify a row and name the task it calls. -/
structure Target where
  id : Uuid
  sourceId : Uuid
  generation : Nat
  stage : DispatchStage
  taskName : TaskName
  taskArgs : List String
  jobId : String
  deriving DecidableEq

def SourceDispatchExecution.target (row : SourceDispatchExecution) : Target :=
  ⟨row.id, row.sourceId, row.generation, row.stage, row.taskName, row.taskArgs, row.jobId⟩

/-- The columns of the unique constraint. -/
def Target.key (target : Target) : Uuid × Nat × DispatchStage :=
  (target.sourceId, target.generation, target.stage)

/-- A task is recorded under the stage it claims under. The handoff of a source without images after
extraction is the exception. -/
def Paired (stage : DispatchStage) (taskName : TaskName) : Prop :=
  taskName.claimStage = stage ∨ stage = .postExtraction ∧ taskName = .ingestMapReduceTask

structure Target.Routed (target : Target) : Prop where
  jobId_eq : target.jobId = sourceStageJobId target.sourceId target.stage target.generation
  paired : Paired target.stage target.taskName
  args : target.taskArgs.head? = some target.sourceId.text
  started : 1 ≤ target.generation

def Job.Routed (job : Job) : Prop :=
  ∀ sourceId stage generation, job.jobId = sourceStageJobId sourceId stage generation →
    Paired stage job.taskName ∧ job.args.head? = some sourceId.text

/-- What the outbox rows have in common, read off the columns no status change touches. -/
structure RowsSound (targets : List Target) : Prop where
  routed : ∀ target ∈ targets, target.Routed
  ids : (targets.map Target.id).Nodup
  keys : (targets.map Target.key).Nodup

structure Tracked.Sound (tracked : Tracked) : Prop where
  routed : tracked.current.target.Routed
  id_eq : tracked.current.id = tracked.loaded.id

/-- Rows with the same id stand for the same handoff. -/
def Identified (rows : List SourceDispatchExecution) : Prop :=
  ∀ a ∈ rows, ∀ b ∈ rows, a.id = b.id → a.target.key = b.target.key

structure Sound (world : World) : Prop where
  rows : RowsSound (world.executions.map SourceDispatchExecution.target)
  sessions : world.sessions.Keyed
  tracked : ∀ session ∈ world.sessions, ∀ tracked, session.row = some tracked → tracked.Sound
  identified : Identified world.known
  /-- A key that a session has inserted is not committed yet, and no other session holds it. -/
  fresh : ∀ session ∈ world.sessions, ∀ tracked, session.row = some tracked →
    tracked.inserted → ∀ row ∈ world.executions, row.target.key ≠ tracked.current.target.key
  distinct : ∀ session ∈ world.sessions, ∀ other ∈ world.sessions, ∀ tracked tracked',
    session.row = some tracked → other.row = some tracked' → tracked.inserted →
    tracked'.inserted → tracked.current.target.key = tracked'.current.target.key →
    session.id = other.id
  leased : ∀ row ∈ world.leased, row.target.Routed
  queue : ∀ job ∈ world.queue, job.Routed

section Rows

variable {executions executions' : Table SourceDispatchExecution} {row : SourceDispatchExecution}

theorem RowsSound.keyed (h : RowsSound (executions.map SourceDispatchExecution.target)) :
    executions.Keyed := by
  have hids := h.ids
  rw [List.map_map] at hids
  exact hids

theorem Target.Routed.job (h : row.target.Routed) : row.job.Routed := by
  intro sourceId stage generation hjob
  obtain ⟨rfl, rfl, rfl⟩ := sourceStageJobId_inj (h.jobId_eq.symm.trans hjob)
  exact ⟨h.paired, h.args⟩

theorem claimStage_eq (taskName : TaskName) :
    taskName.claimStage = dispatchStageForTask taskName := by
  cases taskName <;> rfl

theorem Producer.handoff_paired (producer : Producer) (source : Source) :
    Paired (producer.handoff source).stage (producer.handoff source).taskName := by
  cases producer with
  | retry pipelinePhase currentStatus => exact .inl (claimStage_eq _)
  | postExtraction hasImages =>
    cases hasImages with
    | true => exact .inl rfl
    | false => exact .inr ⟨rfl, rfl⟩
  | _ => exact .inl rfl

theorem Producer.handoff_args (producer : Producer) (source : Source) :
    (producer.handoff source).taskArgs.head? = some source.id.text := by
  cases producer <;> rfl

theorem Handoff.generation_pos (handoff : Handoff) (dispatchGeneration : Nat) :
    1 ≤ handoff.generation dispatchGeneration := by
  unfold Handoff.generation
  split
  · omega
  · split <;> omega

theorem Handoff.newRow_routed {handoff : Handoff} {rowId sourceId : Uuid} {dispatchGeneration : Nat}
    {now : Timestamp} (hpaired : Paired handoff.stage handoff.taskName)
    (hargs : handoff.taskArgs.head? = some sourceId.text) :
    (handoff.newRow rowId sourceId (handoff.generation dispatchGeneration) now).target.Routed :=
  ⟨rfl, hpaired, hargs, handoff.generation_pos dispatchGeneration⟩

theorem Handoff.retarget_routed {handoff : Handoff} (h : row.target.Routed)
    (hstage : row.stage = handoff.stage) (hpaired : Paired handoff.stage handoff.taskName)
    (hargs : handoff.taskArgs.head? = some row.sourceId.text) :
    (handoff.retarget row).target.Routed := by
  unfold Handoff.retarget
  split
  · exact h
  · exact ⟨h.jobId_eq, hstage ▸ hpaired, hargs, h.started⟩

theorem findExecution_some {sourceId : Uuid} {generation : Nat} {stage : DispatchStage}
    (h : findExecution executions sourceId generation stage = some row) :
    row ∈ executions ∧ row.target.key = (sourceId, generation, stage) := by
  have hfound := List.find?_some h
  simp only [Bool.and_eq_true, decide_eq_true_eq] at hfound
  obtain ⟨⟨hsource, hgeneration⟩, hstage⟩ := hfound
  refine ⟨List.mem_of_find?_eq_some h, ?_⟩
  rw [← hsource, ← hgeneration, ← hstage]
  rfl

theorem findExecution_none {sourceId : Uuid} {generation : Nat} {stage : DispatchStage}
    (h : findExecution executions sourceId generation stage = none) :
    ∀ row ∈ executions, row.target.key ≠ (sourceId, generation, stage) := by
  intro row hrow hkey
  rw [findExecution, List.find?_eq_none] at h
  apply h row hrow
  simp only [SourceDispatchExecution.target, Target.key, Prod.mk.injEq] at hkey
  simp [hkey.1, hkey.2.1, hkey.2.2]

/-- A flush changes neither the identity of a row nor the stage it is recorded under. -/
theorem writeBack_routed {loaded current committed : SourceDispatchExecution}
    (hcommitted : committed.target.Routed) (hcurrent : current.target.Routed)
    (hstage : current.stage = committed.stage) (hsource : current.sourceId = committed.sourceId) :
    (writeBack loaded current committed).target.Routed := by
  constructor
  · exact hcommitted.jobId_eq
  · have hwritten : (writeBack loaded current committed).taskName = committed.taskName ∨
        (writeBack loaded current committed).taskName = current.taskName := by
      simp only [writeBack, writeColumn]
      split
      · exact .inl rfl
      · exact .inr rfl
    show Paired committed.stage (writeBack loaded current committed).taskName
    rcases hwritten with hwritten | hwritten
    · rw [hwritten]
      exact hcommitted.paired
    · rw [hwritten, ← hstage]
      exact hcurrent.paired
  · show (writeColumn loaded.taskArgs current.taskArgs committed.taskArgs).head? =
      some committed.sourceId.text
    unfold writeColumn
    split
    · exact hcommitted.args
    · rw [← hsource]
      exact hcurrent.args
  · exact hcommitted.started

theorem RowsSound.mem (h : RowsSound (executions.map SourceDispatchExecution.target))
    (hrow : row ∈ executions) : row.target.Routed :=
  h.routed _ (List.mem_map_of_mem hrow)

theorem RowsSound.put {old : SourceDispatchExecution}
    (h : RowsSound (executions.map SourceDispatchExecution.target))
    (hold : executions.get row.id = some old) (hkey : row.target.key = old.target.key)
    (hrow : row.target.Routed) :
    RowsSound ((executions.put row).map SourceDispatchExecution.target) := by
  constructor
  · intro target htarget
    obtain ⟨row', hrow', rfl⟩ := List.mem_map.mp htarget
    rcases Table.mem_put hrow' with rfl | ⟨hrow', -⟩
    · exact hrow
    · exact h.mem hrow'
  · rw [List.map_map]
    exact h.keyed.put row
  · have hkeys := h.keys
    rw [List.map_map] at hkeys ⊢
    rwa [Table.map_put h.keyed hold hkey]

theorem RowsSound.append (h : RowsSound (executions.map SourceDispatchExecution.target))
    (hid : executions.get row.id = none)
    (hkey : ∀ other ∈ executions, other.target.key ≠ row.target.key) (hrow : row.target.Routed) :
    RowsSound ((executions ++ [row]).map SourceDispatchExecution.target) := by
  constructor
  · intro target htarget
    obtain ⟨row', hrow', rfl⟩ := List.mem_map.mp htarget
    rcases List.mem_append.mp hrow' with hrow' | hrow'
    · exact h.mem hrow'
    · rw [List.mem_singleton.mp hrow']
      exact hrow
  · rw [List.map_map]
    exact h.keyed.append hid
  · rw [List.map_append, List.map_append, List.nodup_append]
    refine ⟨h.keys, List.nodup_singleton _, ?_⟩
    intro key hmem key' hmem'
    obtain ⟨target, htarget, rfl⟩ := List.mem_map.mp hmem
    obtain ⟨other, hother, rfl⟩ := List.mem_map.mp htarget
    rw [List.map_singleton, List.map_singleton, List.mem_singleton] at hmem'
    rw [hmem']
    exact hkey other hother

theorem RowsSound.filter (h : RowsSound (executions.map SourceDispatchExecution.target))
    (p : SourceDispatchExecution → Bool) :
    RowsSound ((executions.filter p).map SourceDispatchExecution.target) := by
  have hsub : ((executions.filter p).map SourceDispatchExecution.target).Sublist
      (executions.map SourceDispatchExecution.target) := List.filter_sublist.map _
  constructor
  · intro target htarget
    exact h.routed target (hsub.mem htarget)
  · exact h.ids.sublist (hsub.map _)
  · exact h.keys.sublist (hsub.map _)

end Rows

section Worlds

variable {world world' : World} {session session' : Session} {row : SourceDispatchExecution}

theorem mem_known : row ∈ world.known ↔ row ∈ world.executions ∨
    ∃ session ∈ world.sessions, ∃ tracked, session.row = some tracked ∧ tracked.current = row := by
  simp only [World.known, List.mem_append, List.mem_filterMap, Option.map_eq_some_iff]

theorem Identified.of_known {rows rows' : List SourceDispatchExecution} (h : Identified rows)
    (hknown : ∀ a ∈ rows', ∃ b ∈ rows, a.id = b.id ∧ a.target.key = b.target.key) :
    Identified rows' := by
  intro a ha b hb hid
  obtain ⟨a', ha', hida, hkeya⟩ := hknown a ha
  obtain ⟨b', hb', hidb, hkeyb⟩ := hknown b hb
  rw [hkeya, hkeyb]
  exact h a' ha' b' hb' (hida.symm.trans (hid.trans hidb))

theorem exists_of_target {executions executions' : Table SourceDispatchExecution}
    (h : executions'.map SourceDispatchExecution.target =
      executions.map SourceDispatchExecution.target) (hrow : row ∈ executions') :
    ∃ old ∈ executions, old.target = row.target := by
  have hmem : row.target ∈ executions'.map SourceDispatchExecution.target :=
    List.mem_map_of_mem hrow
  rw [h] at hmem
  exact List.mem_map.mp hmem

/-- Changes of status. -/
theorem Sound.retable (h : Sound world) {executions : Table SourceDispatchExecution}
    (htargets : executions.map SourceDispatchExecution.target =
      world.executions.map SourceDispatchExecution.target) :
    Sound { world with executions := executions } := by
  constructor
  · rw [htargets]
    exact h.rows
  · exact h.sessions
  · exact h.tracked
  · apply h.identified.of_known
    intro a ha
    rcases mem_known.mp ha with ha | ha
    · obtain ⟨old, hold, htarget⟩ := exists_of_target htargets ha
      have hid : old.target.id = a.target.id := by rw [htarget]
      exact ⟨old, mem_known.mpr (.inl hold), hid.symm, by rw [htarget]⟩
    · exact ⟨a, mem_known.mpr (.inr ha), rfl, rfl⟩
  · intro session hsession tracked htracked hinserted row hrow
    obtain ⟨old, hold, htarget⟩ := exists_of_target htargets hrow
    rw [← htarget]
    exact h.fresh session hsession tracked htracked hinserted old hold
  · exact h.distinct
  · exact h.leased
  · exact h.queue

theorem Sound.requeue (h : Sound world) {queue : List Job} (hqueue : ∀ job ∈ queue, job.Routed) :
    Sound { world with queue := queue } :=
  ⟨h.rows, h.sessions, h.tracked, h.identified, h.fresh, h.distinct, h.leased, hqueue⟩

theorem Sound.resource (h : Sound world) {sources : Table Source} :
    Sound { world with sources := sources } :=
  ⟨h.rows, h.sessions, h.tracked, h.identified, h.fresh, h.distinct, h.leased, h.queue⟩

theorem Sound.dropRows (h : Sound world) (p : SourceDispatchExecution → Bool) :
    Sound { world with executions := world.executions.filter p } := by
  constructor
  · exact h.rows.filter p
  · exact h.sessions
  · exact h.tracked
  · apply h.identified.of_known
    intro a ha
    rcases mem_known.mp ha with ha | ha
    · exact ⟨a, mem_known.mpr (.inl (List.mem_of_mem_filter ha)), rfl, rfl⟩
    · exact ⟨a, mem_known.mpr (.inr ha), rfl, rfl⟩
  · intro session hsession tracked htracked hinserted row hrow
    exact h.fresh session hsession tracked htracked hinserted row (List.mem_of_mem_filter hrow)
  · exact h.distinct
  · exact h.leased
  · exact h.queue

theorem Sound.closeSession (h : Sound world) (p : Session → Bool) :
    Sound { world with sessions := world.sessions.filter p } := by
  constructor
  · exact h.rows
  · exact h.sessions.nodup_keys_filter p
  · intro session hsession
    exact h.tracked session (List.mem_of_mem_filter hsession)
  · apply h.identified.of_known
    intro a ha
    rcases mem_known.mp ha with ha | ⟨session, hsession, ha⟩
    · exact ⟨a, mem_known.mpr (.inl ha), rfl, rfl⟩
    · exact ⟨a, mem_known.mpr (.inr ⟨session, List.mem_of_mem_filter hsession, ha⟩), rfl, rfl⟩
  · intro session hsession
    exact h.fresh session (List.mem_of_mem_filter hsession)
  · intro session hsession other hother
    exact h.distinct session (List.mem_of_mem_filter hsession) other
      (List.mem_of_mem_filter hother)
  · exact h.leased
  · exact h.queue

/-- A new session holds no row. -/
theorem Sound.addSession (h : Sound world) (hid : world.sessions.get session.id = none)
    (hrow : session.row = none) : Sound { world with sessions := world.sessions ++ [session] } := by
  have hold : ∀ other ∈ world.sessions ++ [session], ∀ tracked, other.row = some tracked →
      other ∈ world.sessions := by
    intro other hother tracked htracked
    rcases List.mem_append.mp hother with hother | hother
    · exact hother
    · rw [List.mem_singleton.mp hother, hrow] at htracked
      cases htracked
  constructor
  · exact h.rows
  · exact h.sessions.append hid
  · intro other hother tracked htracked
    exact h.tracked other (hold other hother tracked htracked) tracked htracked
  · apply h.identified.of_known
    intro a ha
    rcases mem_known.mp ha with ha | ⟨other, hother, tracked, htracked, ha⟩
    · exact ⟨a, mem_known.mpr (.inl ha), rfl, rfl⟩
    · exact ⟨a, mem_known.mpr (.inr ⟨other, hold other hother tracked htracked, tracked, htracked,
        ha⟩), rfl, rfl⟩
  · intro other hother tracked htracked
    exact h.fresh other (hold other hother tracked htracked) tracked htracked
  · intro first hfirst second hsecond tracked tracked' htracked htracked'
    exact h.distinct first (hold first hfirst tracked htracked) second
      (hold second hsecond tracked' htracked') tracked tracked' htracked htracked'
  · exact h.leased
  · exact h.queue

/-- What a session may come to hold. -/
structure MayHold (world : World) (sessionId : Uuid) (tracked : Tracked) : Prop where
  sound : tracked.Sound
  identified : ∀ row ∈ world.known, row.id = tracked.current.id →
    row.target.key = tracked.current.target.key
  fresh : tracked.inserted → ∀ row ∈ world.executions,
    row.target.key ≠ tracked.current.target.key
  distinct : tracked.inserted → ∀ other ∈ world.sessions, ∀ tracked', other.row = some tracked' →
    tracked'.inserted → other.id ≠ sessionId →
    tracked'.current.target.key ≠ tracked.current.target.key

theorem Sound.mayHold (h : Sound world) (hsession : session ∈ world.sessions) {tracked : Tracked}
    (hrow : session.row = some tracked) : MayHold world session.id tracked := by
  constructor
  · exact h.tracked session hsession tracked hrow
  · intro row hknown hid
    exact h.identified row hknown _ (mem_known.mpr (.inr ⟨session, hsession, tracked, hrow, rfl⟩)) hid
  · exact h.fresh session hsession tracked hrow
  · intro hinserted other hother tracked' hrow' hinserted' hne hkey
    exact hne (h.distinct other hother session hsession tracked' tracked hrow' hrow hinserted'
      hinserted hkey)

theorem Sound.putSession (h : Sound world)
    (hrow : ∀ tracked, session.row = some tracked → MayHold world session.id tracked) :
    Sound { world with sessions := world.sessions.put session } := by
  have hother : ∀ other ∈ world.sessions.put session, other ≠ session →
      other ∈ world.sessions ∧ other.id ≠ session.id := by
    intro other hmem hne
    rcases Table.mem_put hmem with rfl | hold
    · exact absurd rfl hne
    · exact hold
  constructor
  · exact h.rows
  · exact h.sessions.put session
  · intro other hmem tracked htracked
    by_cases heq : other = session
    · exact (hrow tracked (heq ▸ htracked)).sound
    · exact h.tracked other (hother other hmem heq).1 tracked htracked
  · have hcases : ∀ a ∈ World.known { world with sessions := world.sessions.put session },
        a ∈ world.known ∨ ∃ tracked, session.row = some tracked ∧ tracked.current = a := by
      intro a ha
      rcases mem_known.mp ha with ha | ⟨other, hmem, tracked, htracked, ha⟩
      · exact .inl (mem_known.mpr (.inl ha))
      · by_cases heq : other = session
        · exact .inr ⟨tracked, heq ▸ htracked, ha⟩
        · exact .inl (mem_known.mpr (.inr ⟨other, (hother other hmem heq).1, tracked, htracked, ha⟩))
    intro a ha b hb hid
    rcases hcases a ha with ha | ⟨tracked, htracked, rfl⟩
    · rcases hcases b hb with hb | ⟨tracked, htracked, rfl⟩
      · exact h.identified a ha b hb hid
      · exact (hrow tracked htracked).identified a ha hid
    · rcases hcases b hb with hb | ⟨tracked', htracked', rfl⟩
      · exact ((hrow tracked htracked).identified b hb hid.symm).symm
      · rw [htracked] at htracked'
        cases htracked'
        rfl
  · intro other hmem tracked htracked
    by_cases heq : other = session
    · exact (hrow tracked (heq ▸ htracked)).fresh
    · exact h.fresh other (hother other hmem heq).1 tracked htracked
  · intro first hfirst second hsecond tracked tracked' htracked htracked' hinserted hinserted' hkey
    by_cases heq : first = session
    · by_cases heq' : second = session
      · rw [heq, heq']
      · obtain ⟨hmem, hne⟩ := hother second hsecond heq'
        exact absurd hkey.symm ((hrow tracked (heq ▸ htracked)).distinct hinserted second hmem
          tracked' htracked' hinserted' hne)
    · obtain ⟨hmem, hne⟩ := hother first hfirst heq
      by_cases heq' : second = session
      · exact absurd hkey ((hrow tracked' (heq' ▸ htracked')).distinct hinserted' first hmem
          tracked htracked hinserted hne)
      · exact h.distinct first hmem second (hother second hsecond heq').1 tracked tracked' htracked
          htracked' hinserted hinserted' hkey
  · exact h.leased
  · exact h.queue

theorem Sound.addRow (h : Sound world) (hid : world.executions.get row.id = none)
    (hrow : row.target.Routed)
    (hidentified : ∀ other ∈ world.known, other.id = row.id → other.target.key = row.target.key)
    (hkey : ∀ other ∈ world.executions, other.target.key ≠ row.target.key)
    (hfresh : ∀ session ∈ world.sessions, ∀ tracked, session.row = some tracked →
      tracked.inserted → tracked.current.target.key ≠ row.target.key) :
    Sound { world with executions := world.executions ++ [row] } := by
  constructor
  · exact h.rows.append hid hkey hrow
  · exact h.sessions
  · exact h.tracked
  · have hcases : ∀ a ∈ World.known { world with executions := world.executions ++ [row] },
        a ∈ world.known ∨ a = row := by
      intro a ha
      rcases mem_known.mp ha with ha | ha
      · rcases List.mem_append.mp ha with ha | ha
        · exact .inl (mem_known.mpr (.inl ha))
        · exact .inr (List.mem_singleton.mp ha)
      · exact .inl (mem_known.mpr (.inr ha))
    intro a ha b hb heq
    rcases hcases a ha with hknown | rfl <;> rcases hcases b hb with hknown' | rfl
    · exact h.identified a hknown b hknown' heq
    · exact hidentified a hknown heq
    · exact (hidentified b hknown' heq.symm).symm
    · rfl
  · intro session hsession tracked htracked hinserted other hother
    rcases List.mem_append.mp hother with hother | hother
    · exact h.fresh session hsession tracked htracked hinserted other hother
    · rw [List.mem_singleton.mp hother]
      exact (hfresh session hsession tracked htracked hinserted).symm
  · exact h.distinct
  · exact h.leased
  · exact h.queue

theorem Sound.putRow (h : Sound world) {old : SourceDispatchExecution}
    (hold : world.executions.get row.id = some old) (hkey : row.target.key = old.target.key)
    (hrow : row.target.Routed) : Sound { world with executions := world.executions.put row } := by
  have hmem := Table.get_mem hold
  have hid : old.id = row.id := Table.get_key hold
  have hcases : ∀ a ∈ world.executions.put row, ∃ b ∈ world.executions,
      a.id = b.id ∧ a.target.key = b.target.key := by
    intro a ha
    rcases Table.mem_put ha with rfl | ⟨ha, -⟩
    · exact ⟨old, hmem, hid.symm, hkey⟩
    · exact ⟨a, ha, rfl, rfl⟩
  constructor
  · exact h.rows.put hold hkey hrow
  · exact h.sessions
  · exact h.tracked
  · apply h.identified.of_known
    intro a ha
    rcases mem_known.mp ha with ha | ha
    · obtain ⟨b, hb, heq⟩ := hcases a ha
      exact ⟨b, mem_known.mpr (.inl hb), heq⟩
    · exact ⟨a, mem_known.mpr (.inr ha), rfl, rfl⟩
  · intro session hsession tracked htracked hinserted other hother
    obtain ⟨b, hb, -, heq⟩ := hcases other hother
    rw [heq]
    exact h.fresh session hsession tracked htracked hinserted b hb
  · exact h.distinct
  · exact h.leased
  · exact h.queue

end Worlds

end Cygnus.Dispatch
