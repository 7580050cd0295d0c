import Cygnus.Dispatch.OutboxLaws

namespace Cygnus.Dispatch

open Wiki Text Result Sequence Machine

variable {world world' : World} {session session' : Session} {row : SourceDispatchExecution}

section Targets

/-- The tables agree on the columns that identify rows and name their tasks. -/
def SameTargets (executions executions' : Table SourceDispatchExecution) : Prop :=
  executions'.map SourceDispatchExecution.target = executions.map SourceDispatchExecution.target

variable {executions : Table SourceDispatchExecution}

theorem put_sameTargets (hkeyed : executions.Keyed) {old : SourceDispatchExecution}
    (hold : executions.get row.id = some old) (htarget : row.target = old.target) :
    SameTargets executions (executions.put row) :=
  Table.map_put hkeyed hold htarget

theorem map_sameTargets {write : SourceDispatchExecution → SourceDispatchExecution}
    (hwrite : ∀ row, (write row).target = row.target) :
    SameTargets executions (executions.map write) := by
  rw [SameTargets, List.map_map]
  apply List.map_congr_left
  intro row _
  exact hwrite row

theorem foldl_sameTargets (hkeyed : executions.Keyed) {rows : List SourceDispatchExecution}
    (hrows : ∀ row ∈ rows, row.target ∈ executions.map SourceDispatchExecution.target) :
    SameTargets executions (rows.foldl (fun executions row => executions.put row) executions) := by
  induction rows generalizing executions with
  | nil => rfl
  | cons row rows ih =>
    obtain ⟨old, hold, htarget⟩ := List.mem_map.mp (hrows row List.mem_cons_self)
    have hid : old.id = row.id := congrArg Target.id htarget
    have hget : executions.get row.id = some old := by
      rw [← hid]
      exact hkeyed.get_of_mem hold
    have hput := put_sameTargets hkeyed hget htarget.symm
    rw [List.foldl_cons, SameTargets, ← hput]
    apply ih (hkeyed.put row)
    intro other hother
    rw [hput]
    exact hrows other (List.mem_cons_of_mem _ hother)

theorem fenceSuperseded_target (sources : Table Source) (now : Timestamp)
    (row : SourceDispatchExecution) : (fenceSuperseded sources now row).target = row.target := by
  unfold fenceSuperseded
  split <;> rfl

theorem failOrphaned_target (sources : Table Source) (now : Timestamp)
    (row : SourceDispatchExecution) : (failOrphaned sources now row).target = row.target := by
  unfold failOrphaned
  split <;> rfl

theorem settleEnqueue_target (sources : Table Source) (row claim : SourceDispatchExecution)
    (reply : PoolReply) (now : Timestamp) :
    (settleEnqueue sources row claim reply now).target = row.target := by
  unfold settleEnqueue
  split
  · split <;> rfl
  · split
    · rfl
    · split <;> rfl

theorem Mark.apply_target (mark : Mark) (row : SourceDispatchExecution) (now : Timestamp) :
    (mark.apply row now).target = row.target := by
  cases mark <;> rfl

theorem enqueueDispatchExecution_target (queue : List Job) (row : SourceDispatchExecution)
    (reply : PoolReply) (now : Timestamp) :
    (enqueueDispatchExecution queue row reply now).1.target = row.target := by
  unfold enqueueDispatchExecution
  split
  · rfl
  · cases reply with
    | accepted => rfl
    | raised error queued =>
      dsimp only
      split <;> rfl

theorem mem_enqueueJob {queue : List Job} {job other : Job} (h : other ∈ enqueueJob queue job) :
    other ∈ queue ∨ other = job := by
  unfold enqueueJob at h
  split at h
  · exact .inl h
  · rcases List.mem_append.mp h with h | h
    · exact .inl h
    · exact .inr (List.mem_singleton.mp h)

theorem mem_enqueueDispatchExecution {queue : List Job} {reply : PoolReply} {now : Timestamp}
    {job : Job} (h : job ∈ (enqueueDispatchExecution queue row reply now).2) :
    job ∈ queue ∨ job = row.job := by
  have hqueue : ∀ queued : Bool, job ∈ (if queued then enqueueJob queue row.job else queue) →
      job ∈ queue ∨ job = row.job := by
    intro queued hmem
    split at hmem
    · exact mem_enqueueJob hmem
    · exact .inl hmem
  unfold enqueueDispatchExecution at h
  split at h
  · exact .inl h
  · cases reply with
    | accepted => exact hqueue PoolReply.accepted.queues h
    | raised error queued =>
      dsimp only at h
      split at h <;> exact hqueue _ h

theorem claimSourceDispatch_sameTargets (hkeyed : executions.Keyed) {source : Source}
    {stage : DispatchStage} {jobId leaseToken : String} {now : Timestamp}
    {claim : SourceDispatchClaim} {executions' : Table SourceDispatchExecution}
    (h : claimSourceDispatch executions source stage jobId leaseToken now =
      .claimed claim executions') : SameTargets executions executions' := by
  have hcurrent : claimCurrent executions source stage jobId leaseToken now =
      .claimed claim executions' → SameTargets executions executions' := by
    intro h
    unfold claimCurrent at h
    split at h
    · cases h
    · rename_i row hfind
      split at h
      · cases h
      · split at h
        · cases h
        · cases h
          have hget : executions.get row.id = some row :=
            hkeyed.get_of_mem (findExecution_some hfind).1
          exact put_sameTargets hkeyed hget rfl
  unfold claimSourceDispatch at h
  split at h
  · cases h
  · split at h
    · exact hcurrent h
    · split at h
      · cases h
      · exact hcurrent h

end Targets

section Actions

theorem getSession_ok {sessionId : Uuid} (h : getSession world sessionId = .ok session) :
    session ∈ world.sessions ∧ world.sessions.get session.id = some session := by
  unfold getSession at h
  split at h
  · rename_i found hget
    cases h
    refine ⟨Table.get_mem hget, ?_⟩
    have hid : session.id = sessionId := Table.get_key hget
    rw [hid]
    exact hget
  · cases h

theorem updateOwned_sound (h : Sound world) (rowId : Uuid) (owns : SourceDispatchExecution → Bool)
    {write : SourceDispatchExecution → SourceDispatchExecution}
    (hwrite : ∀ row, (write row).target = row.target) :
    Sound (updateOwned world rowId owns write) := by
  unfold updateOwned
  split
  · exact h
  · rename_i row hget
    split
    · apply h.retable
      have hid : (write row).id = row.id := congrArg Target.id (hwrite row)
      have hkey : row.id = rowId := Table.get_key hget
      apply put_sameTargets h.rows.keyed _ (hwrite row)
      rw [hid, hkey]
      exact hget
    · exact h

theorem recordSourceDispatch_mayHold (h : Sound world) {handoff : Handoff} {rowId : Uuid}
    {now : Timestamp} (hpaired : Paired handoff.stage handoff.taskName)
    (hargs : handoff.taskArgs.head? = some session.source.id.text)
    (hrecord : recordSourceDispatch world session handoff rowId now = .ok session') :
    ∀ tracked, session'.row = some tracked → MayHold world session'.id tracked := by
  simp only [recordSourceDispatch, bind_ok, require_ok] at hrecord
  obtain ⟨-, -, -, hfree, hrecord⟩ := hrecord
  split at hrecord
  · rename_i row hfind
    obtain rfl := pure_ok.mp hrecord
    obtain ⟨hmem, hkey⟩ := findExecution_some hfind
    simp only [SourceDispatchExecution.target, Target.key, Prod.mk.injEq] at hkey
    have hrouted := handoff.retarget_routed (h.rows.mem hmem) hkey.2.2 hpaired (hkey.1 ▸ hargs)
    have hsame : (handoff.retarget row).id = row.id ∧
        (handoff.retarget row).target.key = row.target.key := by
      unfold Handoff.retarget
      split <;> exact ⟨rfl, rfl⟩
    rintro tracked ⟨⟩
    refine ⟨⟨hrouted, hsame.1⟩, ?_, ?_, ?_⟩
    · intro other hother hid
      rw [hsame.2]
      exact h.identified other hother row (mem_known.mpr (.inl hmem)) (hid.trans hsame.1)
    · intro hinserted
      cases hinserted
    · intro hinserted
      cases hinserted
  · rename_i hnone
    simp only [bind_ok, require_ok, pure_ok] at hrecord
    obtain ⟨-, hnew, rfl⟩ := hrecord
    rintro tracked ⟨⟩
    refine ⟨⟨Handoff.newRow_routed hpaired hargs, rfl⟩, ?_, ?_, ?_⟩
    · intro other hother hid
      exact absurd hid (hnew other hother)
    · intro _
      exact findExecution_none hnone
    · intro _ other hother tracked' hrow' hinserted _ hkey
      apply hfree other hother
      simp only [SourceDispatchExecution.target, Target.key, Handoff.newRow, Prod.mk.injEq] at hkey
      simp [Session.holds, hrow', hinserted, hkey.1, hkey.2.1, hkey.2.2]

theorem enqueueTracked_sound (h : Sound world) (hsession : session ∈ world.sessions)
    {reply : PoolReply} {now : Timestamp}
    (henqueue : enqueueTracked world session reply now = .ok world') : Sound world' := by
  unfold enqueueTracked at henqueue
  split at henqueue
  · cases henqueue
  · rename_i tracked hrow
    have hold := h.mayHold hsession hrow
    have htarget := enqueueDispatchExecution_target world.queue tracked.current reply now
    have hqueue : ∀ job ∈ (enqueueDispatchExecution world.queue tracked.current reply now).2,
        job.Routed := by
      intro job hjob
      rcases mem_enqueueDispatchExecution hjob with hjob | rfl
      · exact h.queue job hjob
      · exact hold.sound.routed.job
    rcases hresult : enqueueDispatchExecution world.queue tracked.current reply now with ⟨row, queue⟩
    rw [hresult] at henqueue htarget hqueue
    dsimp only at htarget
    have hid : row.id = tracked.current.id := congrArg Target.id htarget
    obtain rfl := pure_ok.mp henqueue
    refine (h.putSession ?_).requeue hqueue
    rintro tracked' ⟨⟩
    constructor
    · exact ⟨by rw [htarget]; exact hold.sound.routed, hid.trans hold.sound.id_eq⟩
    · intro other hother heq
      rw [htarget]
      exact hold.identified other hother (heq.trans hid)
    · intro hinserted
      rw [htarget]
      exact hold.fresh hinserted
    · intro hinserted
      rw [htarget]
      exact hold.distinct hinserted

theorem Session.committed_row {tracked : Tracked} (h : session.committed.row = some tracked) :
    ∃ before, session.row = some before ∧ tracked = ⟨false, before.current, before.current⟩ := by
  obtain ⟨before, hbefore, rfl⟩ := Option.map_eq_some_iff.mp h
  exact ⟨before, hbefore, rfl⟩

/-- A commit leaves the session with nothing inserted. -/
theorem Sound.settleSession (h : Sound world) (hsession : session ∈ world.sessions) :
    Sound { world with sessions := world.sessions.put session.committed } := by
  apply h.putSession
  intro tracked htracked
  obtain ⟨before, hbefore, rfl⟩ := Session.committed_row htracked
  have hold := h.mayHold hsession hbefore
  exact ⟨⟨hold.sound.routed, rfl⟩, hold.identified, nofun, nofun⟩

theorem commitRow_sound (h : Sound world) (hsession : session ∈ world.sessions)
    (hget : world.sessions.get session.id = some session) {tracked : Tracked}
    (hrow : session.row = some tracked) {executions : Table SourceDispatchExecution}
    (hcommit : commitRow world.executions tracked = .ok executions) :
    Sound { world with
      executions := executions, sessions := world.sessions.put session.committed } := by
  have hsettled := h.settleSession hsession
  have hold := h.mayHold hsession hrow
  unfold commitRow at hcommit
  split at hcommit
  · rename_i hinserted
    simp only [bind_ok, require_ok] at hcommit
    obtain ⟨-, -, hinsert⟩ := hcommit
    obtain ⟨hid, rfl⟩ := Table.insert_ok hinsert
    apply hsettled.addRow hid hold.sound.routed
    · intro other hother heq
      apply hsettled.identified other hother _ _ heq
      exact mem_known.mpr (.inr ⟨session.committed, Table.mem_put_self hget,
        ⟨false, tracked.current, tracked.current⟩, by simp [Session.committed, hrow], rfl⟩)
    · exact hold.fresh hinserted
    · intro other hother tracked' htracked' hinserted'
      rcases Table.mem_put hother with rfl | ⟨hmem, hne⟩
      · obtain ⟨before, -, rfl⟩ := Session.committed_row htracked'
        cases hinserted'
      · exact hold.distinct hinserted other hmem tracked' htracked' hinserted' hne
  · split at hcommit
    · obtain rfl := pure_ok.mp hcommit
      exact hsettled
    · split at hcommit
      · cases hcommit
      · rename_i committed hfound
        simp only [bind_ok, require_ok, pure_ok] at hcommit
        obtain ⟨-, -, rfl⟩ := hcommit
        have hmem := Table.get_mem hfound
        have hid : committed.id = tracked.current.id :=
          (Table.get_key hfound).trans hold.sound.id_eq.symm
        have hkey := hold.identified committed (mem_known.mpr (.inl hmem)) hid
        simp only [SourceDispatchExecution.target, Target.key, Prod.mk.injEq] at hkey
        have hsame : world.executions.get committed.id = some committed :=
          h.rows.keyed.get_of_mem hmem
        exact hsettled.putRow hsame rfl
          (writeBack_routed (h.rows.mem hmem) hold.sound.routed hkey.2.2.symm hkey.1.symm)

theorem commitSession_sound (h : Sound world) (hsession : session ∈ world.sessions)
    (hget : world.sessions.get session.id = some session)
    (hcommit : commitSession world session = .ok world') : Sound world' := by
  simp only [commitSession, bind_ok, require_ok] at hcommit
  obtain ⟨-, -, sources, -, hcommit⟩ := hcommit
  split at hcommit
  · simp only [bind_ok, pure_ok] at hcommit
    obtain ⟨executions, rfl, rfl⟩ := hcommit
    exact (h.settleSession hsession).resource
  · rename_i tracked htracked
    simp only [bind_ok, pure_ok] at hcommit
    obtain ⟨executions, hrow, rfl⟩ := hcommit
    exact (commitRow_sound h hsession hget htracked hrow).resource

theorem startJob_sound (h : Sound world) {job : Job} {leaseToken : String} {now : Timestamp}
    (hstart : startJob world session job leaseToken now = .ok world') : Sound world' := by
  simp only [startJob, bind_ok, require_ok] at hstart
  obtain ⟨-, -, hstart⟩ := hstart
  split at hstart
  · rename_i claim executions hentry
    obtain rfl := pure_ok.mp hstart
    apply h.retable
    unfold enterTask at hentry
    split at hentry
    · cases hentry
    · split at hentry
      · cases hentry
      · split at hentry
        · cases hentry
        · cases hentry
        · rename_i hclaim
          cases hentry
          exact claimSourceDispatch_sameTargets h.rows.keyed hclaim
  · obtain rfl := pure_ok.mp hstart
    exact h

theorem claimDueExecutions_sound (h : Sound world) (limit : Nat) (locked : List Uuid)
    (now : Timestamp) : Sound (claimDueExecutions world limit locked now) := by
  have hdue : ∀ row ∈ (dueExecutions world limit locked now).map fun row => row.leaseForSweep now,
      row.target ∈ world.executions.map SourceDispatchExecution.target := by
    intro row hrow
    obtain ⟨before, hbefore, rfl⟩ := List.mem_map.mp hrow
    have hmem := List.mem_of_mem_take hbefore
    rw [mem_sortedBy] at hmem
    exact List.mem_map.mpr ⟨before, List.mem_of_mem_filter hmem, rfl⟩
  have htable := h.retable (foldl_sameTargets h.rows.keyed hdue)
  refine ⟨htable.rows, htable.sessions, htable.tracked, htable.identified, htable.fresh,
    htable.distinct, ?_, htable.queue⟩
  intro row hrow
  rcases List.mem_append.mp hrow with hrow | hrow
  · exact h.leased row hrow
  · exact h.rows.routed _ (hdue row hrow)

/-- Every action leaves the outbox sound. -/
theorem perform_sound {action : Action} (h : Sound world) (hperform : perform action world = .ok world') :
    Sound world' := by
  cases action with
  | addSource source =>
    simp only [perform, bind_ok, pure_ok] at hperform
    obtain ⟨sources, -, rfl⟩ := hperform
    exact h.resource
  | editSource source =>
    simp only [perform] at hperform
    split at hperform
    · cases hperform
    · obtain rfl := pure_ok.mp hperform
      exact h.resource
  | removeSource sourceId =>
    obtain rfl := pure_ok.mp hperform
    exact (h.dropRows _).resource
  | load sessionId sourceId =>
    simp only [perform, openSession] at hperform
    split at hperform
    · cases hperform
    · simp only [bind_ok, pure_ok] at hperform
      obtain ⟨sessions, hinsert, rfl⟩ := hperform
      obtain ⟨hfree, rfl⟩ := Table.insert_ok hinsert
      exact h.addSession hfree rfl
  | record sessionId producer rowId now =>
    simp only [perform, bind_ok, pure_ok] at hperform
    obtain ⟨session, hget, session', hrecord, rfl⟩ := hperform
    apply h.putSession
    exact recordSourceDispatch_mayHold h (producer.handoff_paired _) (producer.handoff_args _) hrecord
  | enqueue sessionId reply now =>
    simp only [perform, bind_ok] at hperform
    obtain ⟨session, hget, henqueue⟩ := hperform
    exact enqueueTracked_sound h (getSession_ok hget).1 henqueue
  | commit sessionId =>
    simp only [perform, bind_ok] at hperform
    obtain ⟨session, hget, hcommit⟩ := hperform
    exact commitSession_sound h (getSession_ok hget).1 (getSession_ok hget).2 hcommit
  | close sessionId =>
    obtain rfl := pure_ok.mp hperform
    exact h.closeSession _
  | start sessionId job leaseToken now =>
    simp only [perform, bind_ok] at hperform
    obtain ⟨session, -, hstart⟩ := hperform
    exact startJob_sound h hstart
  | mark claim mark now =>
    obtain rfl := pure_ok.mp hperform
    exact updateOwned_sound h _ _ fun row => mark.apply_target row now
  | renew claim now =>
    obtain rfl := pure_ok.mp hperform
    exact updateOwned_sound h _ _ fun row => rfl
  | sweepFence now =>
    obtain rfl := pure_ok.mp hperform
    apply h.retable
    apply map_sameTargets
    intro row
    rw [failOrphaned_target, fenceSuperseded_target]
  | sweepLease limit locked now =>
    simp only [perform, bind_ok, require_ok, pure_ok] at hperform
    obtain ⟨-, -, rfl⟩ := hperform
    exact claimDueExecutions_sound h limit locked now
  | sweepEnqueue row reply =>
    simp only [perform, bind_ok, require_ok, pure_ok] at hperform
    obtain ⟨-, hleased, rfl⟩ := hperform
    apply h.requeue
    intro job hjob
    split at hjob
    · rcases mem_enqueueJob hjob with hjob | rfl
      · exact h.queue job hjob
      · exact (h.leased row hleased).job
    · exact h.queue job hjob
  | sweepSettle row reply now =>
    simp only [perform, bind_ok, require_ok, pure_ok] at hperform
    obtain ⟨-, -, rfl⟩ := hperform
    exact updateOwned_sound h _ _ fun current => settleEnqueue_target _ current row reply now
  | enqueueDirect job =>
    simp only [perform, bind_ok, require_ok, pure_ok] at hperform
    obtain ⟨-, hforeign, rfl⟩ := hperform
    apply h.requeue
    intro other hother
    rcases mem_enqueueJob hother with hother | rfl
    · exact h.queue other hother
    · intro sourceId stage generation hjob
      rw [hjob, parseDispatchJobId_sourceStageJobId] at hforeign
      cases hforeign
  | forget jobId =>
    obtain rfl := pure_ok.mp hperform
    apply h.requeue
    intro job hjob
    exact h.queue job (List.mem_of_mem_filter hjob)

theorem sound_empty : Sound {} where
  rows := ⟨fun _ h => absurd h List.not_mem_nil, List.nodup_nil, List.nodup_nil⟩
  sessions := List.nodup_nil
  tracked := fun _ h => absurd h List.not_mem_nil
  identified := fun _ h => absurd h List.not_mem_nil
  fresh := fun _ h => absurd h List.not_mem_nil
  distinct := fun _ h => absurd h List.not_mem_nil
  leased := fun _ h => absurd h List.not_mem_nil
  queue := fun _ h => absurd h List.not_mem_nil

/-- The outbox is sound in every state of every run. -/
theorem run_sound (actions : List Action) : Sound (run perform {} actions) := by
  have hpreserves : Preserves perform (fun _ _ => True) Sound := fun h _ hok => perform_sound h hok
  exact hpreserves.run sound_empty (meets_of_forall (fun _ _ => trivial) _ _)

end Actions

end Cygnus.Dispatch
