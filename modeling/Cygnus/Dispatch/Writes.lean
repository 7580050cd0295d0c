import Cygnus.Dispatch.OutboxRuns

/-! Everything an action can do to an outbox row, whether committed, inside a session or leased by a
sweep. -/

namespace Cygnus.Dispatch

open Wiki Text Result Sequence Machine

/-- The committed rows that an action writes. -/
inductive Writes (world : World) : Action → SourceDispatchExecution → Prop
  | insert {sessionId : Uuid} {session : Session} {tracked : Tracked}
      (hsession : session ∈ world.sessions) (hrow : session.row = some tracked)
      (hinserted : tracked.inserted) (hfree : world.executions.get tracked.current.id = none)
      (hreason : tracked.current.hasReason) : Writes world (.commit sessionId) tracked.current
  | flush {sessionId : Uuid} {session : Session} {tracked : Tracked} {row : SourceDispatchExecution}
      (hget : getSession world sessionId = .ok session) (hrow : session.row = some tracked)
      (hloaded : ¬ tracked.inserted) (hfound : world.executions.get tracked.loaded.id = some row)
      (hreason : (writeBack tracked.loaded tracked.current row).hasReason) :
      Writes world (.commit sessionId) (writeBack tracked.loaded tracked.current row)
  | claim {sessionId : Uuid} {job : Job} {leaseToken : String} {now : Timestamp}
      {row : SourceDispatchExecution} (hrow : row ∈ world.executions)
      (hlive : row.dispatchStatus.isTerminal = false) :
      Writes world (.start sessionId job leaseToken now) (row.lease leaseToken now)
  | mark {claim : SourceDispatchClaim} {mark : Mark} {now : Timestamp}
      {row : SourceDispatchExecution} (hrow : row ∈ world.executions)
      (howns : claimOwnsExecution row claim) : Writes world (.mark claim mark now) (mark.apply row now)
  | renew {claim : SourceDispatchClaim} {now : Timestamp} {row : SourceDispatchExecution}
      (hrow : row ∈ world.executions) :
      Writes world (.renew claim now) { row with leaseExpiresAt := some (now + dispatchLease) }
  | fence {now : Timestamp} {lastError : Option String} {row : SourceDispatchExecution}
      (hrow : row ∈ world.executions) (hlive : row.dispatchStatus.isTerminal = false) :
      Writes world (.sweepFence now) (row.finish .stale "superseded" lastError now)
  | orphan {now : Timestamp} {lastError : Option String} {row : SourceDispatchExecution}
      (hrow : row ∈ world.executions) (hrunning : row.dispatchStatus = .running) :
      Writes world (.sweepFence now) (row.finish .failed "worker_lease_expired" lastError now)
  | lease {limit : Nat} {locked : List Uuid} {now : Timestamp} {row : SourceDispatchExecution}
      (hdue : row ∈ dueExecutions world limit locked now) :
      Writes world (.sweepLease limit locked now) (row.leaseForSweep now)
  | settle {claim row : SourceDispatchExecution} {reply : PoolReply} {now : Timestamp}
      (hrow : row ∈ world.executions) (hid : row.id = claim.id) (hclaim : claim ∈ world.leased)
      (howns : ownsClaim row claim) :
      Writes world (.sweepSettle claim reply now) (settleEnqueue world.sources row claim reply now)

/-- What a session holds after an action that it did not hold before. -/
inductive Tracks (world : World) : Action → Tracked → Prop
  | found {sessionId rowId : Uuid} {producer : Producer} {now : Timestamp} {handoff : Handoff}
      {row : SourceDispatchExecution} (hrow : row ∈ world.executions) :
      Tracks world (.record sessionId producer rowId now) ⟨false, row, handoff.retarget row⟩
  | drawn {sessionId rowId sourceId : Uuid} {producer : Producer} {generation : Nat}
      {now : Timestamp} {handoff : Handoff} :
      Tracks world (.record sessionId producer rowId now)
        ⟨true, handoff.newRow rowId sourceId generation now,
          handoff.newRow rowId sourceId generation now⟩
  | enqueue {sessionId : Uuid} {session : Session} {tracked : Tracked} {reply : PoolReply}
      {now : Timestamp} (hget : getSession world sessionId = .ok session)
      (hrow : session.row = some tracked) :
      Tracks world (.enqueue sessionId reply now) { tracked with
        current := (enqueueDispatchExecution world.queue tracked.current reply now).1 }
  | commit {sessionId : Uuid} {session : Session} {tracked : Tracked}
      (hsession : session ∈ world.sessions) (hrow : session.row = some tracked) :
      Tracks world (.commit sessionId) ⟨false, tracked.current, tracked.current⟩

variable {world world' : World} {session session' : Session} {row row' : SourceDispatchExecution}
  {tracked : Tracked} {action : Action}

section Executions

theorem mem_updateOwned {rowId : Uuid} {owns : SourceDispatchExecution → Bool}
    {write : SourceDispatchExecution → SourceDispatchExecution}
    (h : row' ∈ (updateOwned world rowId owns write).executions) :
    row' ∈ world.executions ∨
      ∃ row ∈ world.executions, row.id = rowId ∧ owns row ∧ row' = write row := by
  unfold updateOwned at h
  split at h
  · exact .inl h
  · rename_i row hget
    split at h
    · rename_i howns
      rcases Table.mem_put h with rfl | ⟨h, -⟩
      · exact .inr ⟨row, Table.get_mem hget, Table.get_key hget, howns, rfl⟩
      · exact .inl h
    · exact .inl h

theorem mem_claimSourceDispatch {executions executions' : Table SourceDispatchExecution}
    {source : Source} {stage : DispatchStage} {jobId leaseToken : String} {now : Timestamp}
    {claim : SourceDispatchClaim}
    (h : claimSourceDispatch executions source stage jobId leaseToken now =
      .claimed claim executions') (hrow' : row' ∈ executions') :
    row' ∈ executions ∨ ∃ row ∈ executions, row.dispatchStatus.isTerminal = false ∧
      row' = row.lease leaseToken now := by
  have hcurrent : claimCurrent executions source stage jobId leaseToken now =
      .claimed claim executions' := by
    unfold claimSourceDispatch at h
    split at h
    · cases h
    · split at h
      · exact h
      · split at h
        · cases h
        · exact h
  unfold claimCurrent at hcurrent
  split at hcurrent
  · cases hcurrent
  · rename_i row hfind
    split at hcurrent
    · cases hcurrent
    · rename_i hlive
      split at hcurrent
      · cases hcurrent
      · cases hcurrent
        rcases Table.mem_put hrow' with rfl | ⟨hold, -⟩
        · exact .inr ⟨row, (findExecution_some hfind).1, by simpa using hlive, rfl⟩
        · exact .inl hold

theorem mem_startJob {job : Job} {leaseToken : String} {now : Timestamp}
    (h : startJob world session job leaseToken now = .ok world') (hrow' : row' ∈ world'.executions) :
    row' ∈ world.executions ∨ ∃ row ∈ world.executions, row.dispatchStatus.isTerminal = false ∧
      row' = row.lease leaseToken now := by
  simp only [startJob, bind_ok, require_ok] at h
  obtain ⟨-, -, h⟩ := h
  split at h
  · rename_i claim executions hentry
    obtain rfl := pure_ok.mp h
    unfold enterTask at hentry
    split at hentry
    · cases hentry
    · split at hentry
      · cases hentry
      · split at hentry
        · cases hentry
        · cases hentry
        · rename_i hclaim
          cases hentry
          exact mem_claimSourceDispatch hclaim hrow'
  · obtain rfl := pure_ok.mp h
    exact .inl hrow'

theorem mem_foldl_put {rows : List SourceDispatchExecution} {executions : Table SourceDispatchExecution}
    (h : row' ∈ rows.foldl (fun executions row => executions.put row) executions) :
    row' ∈ executions ∨ row' ∈ rows := by
  induction rows generalizing executions with
  | nil => exact .inl h
  | cons row rows ih =>
    rcases ih h with h | h
    · rcases Table.mem_put h with rfl | ⟨h, -⟩
      · exact .inr List.mem_cons_self
      · exact .inl h
    · exact .inr (List.mem_cons_of_mem row h)

/-- The rows a sweep leases were due. -/
theorem mem_dueExecutions {limit : Nat} {locked : List Uuid} {now : Timestamp}
    (h : row ∈ dueExecutions world limit locked now) :
    row ∈ world.executions ∧ dispatchIsDue row now := by
  have hmem := List.mem_of_mem_take h
  rw [mem_sortedBy] at hmem
  obtain ⟨hrow, hdue⟩ := List.mem_filter.mp hmem
  simp only [Bool.and_eq_true] at hdue
  exact ⟨hrow, hdue.1.1⟩

theorem commitRow_writes {sessionId : Uuid} {executions : Table SourceDispatchExecution}
    (hget : getSession world sessionId = .ok session) (hrow : session.row = some tracked)
    (h : commitRow world.executions tracked = .ok executions) (hrow' : row' ∈ executions) :
    row' ∈ world.executions ∨ Writes world (.commit sessionId) row' := by
  unfold commitRow at h
  split at h
  · rename_i hinserted
    simp only [bind_ok, require_ok] at h
    obtain ⟨-, hreason, hinsert⟩ := h
    obtain ⟨hfree, rfl⟩ := Table.insert_ok hinsert
    rcases List.mem_append.mp hrow' with hrow' | hrow'
    · exact .inl hrow'
    · rw [List.mem_singleton.mp hrow']
      exact .inr (.insert (getSession_ok hget).1 hrow hinserted hfree hreason)
  · rename_i hloaded
    split at h
    · obtain rfl := pure_ok.mp h
      exact .inl hrow'
    · split at h
      · cases h
      · rename_i committed hfound
        simp only [bind_ok, require_ok, pure_ok] at h
        obtain ⟨-, hreason, rfl⟩ := h
        rcases Table.mem_put hrow' with rfl | ⟨hrow', -⟩
        · exact .inr (.flush hget hrow hloaded hfound hreason)
        · exact .inl hrow'

theorem sweepFence_writes (now : Timestamp) (hrow : row ∈ world.executions) :
    failOrphaned world.sources now (fenceSuperseded world.sources now row) = row ∨
      Writes world (.sweepFence now)
        (failOrphaned world.sources now (fenceSuperseded world.sources now row)) := by
  unfold fenceSuperseded
  split
  · rename_i hfence
    simp only [Bool.and_eq_true, Bool.not_eq_true'] at hfence
    -- a row that was fenced is no longer running
    right
    exact .fence hrow hfence.1
  · unfold failOrphaned
    split
    · rename_i horphan
      simp only [Bool.and_eq_true, decide_eq_true_eq] at horphan
      exact .inr (.orphan hrow horphan.1.1)
    · exact .inl rfl

/-- A committed row was there before, or the action wrote it. -/
theorem perform_writes (hperform : perform action world = .ok world')
    (hrow' : row' ∈ world'.executions) : row' ∈ world.executions ∨ Writes world action row' := by
  cases action with
  | addSource source =>
    simp only [perform, bind_ok, pure_ok] at hperform
    obtain ⟨sources, -, rfl⟩ := hperform
    exact .inl hrow'
  | editSource source =>
    simp only [perform] at hperform
    split at hperform
    · cases hperform
    · obtain rfl := pure_ok.mp hperform
      exact .inl hrow'
  | removeSource sourceId =>
    obtain rfl := pure_ok.mp hperform
    exact .inl (List.mem_of_mem_filter hrow')
  | load sessionId sourceId =>
    simp only [perform, openSession] at hperform
    split at hperform
    · cases hperform
    · simp only [bind_ok, pure_ok] at hperform
      obtain ⟨sessions, -, rfl⟩ := hperform
      exact .inl hrow'
  | record sessionId producer rowId now =>
    simp only [perform, bind_ok, pure_ok] at hperform
    obtain ⟨session, -, session', -, rfl⟩ := hperform
    exact .inl hrow'
  | enqueue sessionId reply now =>
    simp only [perform, bind_ok, enqueueTracked] at hperform
    obtain ⟨session, -, hperform⟩ := hperform
    split at hperform
    · cases hperform
    · obtain rfl := pure_ok.mp hperform
      exact .inl hrow'
  | commit sessionId =>
    simp only [perform, commitSession, bind_ok, require_ok] at hperform
    obtain ⟨session, hget, -, -, sources, -, hcommit⟩ := hperform
    split at hcommit
    · simp only [bind_ok, pure_ok] at hcommit
      obtain ⟨executions, rfl, rfl⟩ := hcommit
      exact .inl hrow'
    · rename_i tracked htracked
      simp only [bind_ok, pure_ok] at hcommit
      obtain ⟨executions, hcommit, rfl⟩ := hcommit
      exact commitRow_writes hget htracked hcommit hrow'
  | close sessionId =>
    obtain rfl := pure_ok.mp hperform
    exact .inl hrow'
  | start sessionId job leaseToken now =>
    simp only [perform, bind_ok] at hperform
    obtain ⟨session, -, hstart⟩ := hperform
    rcases mem_startJob hstart hrow' with hold | ⟨row, hrow, hlive, rfl⟩
    · exact .inl hold
    · exact .inr (.claim hrow hlive)
  | mark claim mark now =>
    obtain rfl := pure_ok.mp hperform
    rcases mem_updateOwned hrow' with hold | ⟨row, hrow, -, howns, rfl⟩
    · exact .inl hold
    · exact .inr (.mark hrow howns)
  | renew claim now =>
    obtain rfl := pure_ok.mp hperform
    rcases mem_updateOwned hrow' with hold | ⟨row, hrow, -, -, rfl⟩
    · exact .inl hold
    · exact .inr (.renew hrow)
  | sweepFence now =>
    obtain rfl := pure_ok.mp hperform
    obtain ⟨row, hrow, rfl⟩ := List.mem_map.mp hrow'
    rcases sweepFence_writes now hrow with heq | hwrites
    · left
      rw [heq]
      exact hrow
    · exact .inr hwrites
  | sweepLease limit locked now =>
    simp only [perform, bind_ok, require_ok, pure_ok] at hperform
    obtain ⟨-, -, rfl⟩ := hperform
    rcases mem_foldl_put hrow' with hold | hleased
    · exact .inl hold
    · obtain ⟨row, hdue, rfl⟩ := List.mem_map.mp hleased
      exact .inr (.lease hdue)
  | sweepEnqueue row reply =>
    simp only [perform, bind_ok, require_ok, pure_ok] at hperform
    obtain ⟨-, -, rfl⟩ := hperform
    exact .inl hrow'
  | sweepSettle claim reply now =>
    simp only [perform, bind_ok, require_ok, pure_ok] at hperform
    obtain ⟨-, hclaim, rfl⟩ := hperform
    rcases mem_updateOwned hrow' with hold | ⟨row, hrow, hid, howns, rfl⟩
    · exact .inl hold
    · exact .inr (.settle hrow hid hclaim howns)
  | enqueueDirect job =>
    simp only [perform, bind_ok, require_ok, pure_ok] at hperform
    obtain ⟨-, -, rfl⟩ := hperform
    exact .inl hrow'
  | forget jobId =>
    obtain rfl := pure_ok.mp hperform
    exact .inl hrow'

end Executions

section Sessions

theorem updateOwned_sessions (world : World) (rowId : Uuid) (owns : SourceDispatchExecution → Bool)
    (write : SourceDispatchExecution → SourceDispatchExecution) :
    (updateOwned world rowId owns write).sessions = world.sessions := by
  unfold updateOwned
  split
  · rfl
  · split <;> rfl

theorem commitSession_sessions (h : commitSession world session = .ok world') :
    world'.sessions = world.sessions.put session.committed := by
  simp only [commitSession, bind_ok, require_ok] at h
  obtain ⟨-, -, sources, -, h⟩ := h
  split at h
  · simp only [bind_ok, pure_ok] at h
    obtain ⟨executions, -, rfl⟩ := h
    rfl
  · simp only [bind_ok, pure_ok] at h
    obtain ⟨executions, -, rfl⟩ := h
    rfl

/-- Some open session holds `tracked`. -/
def Held (world : World) (tracked : Tracked) : Prop :=
  ∃ session ∈ world.sessions, session.row = some tracked

theorem Held.of_put {sessions : Table Session} (hsession : session' ∈ sessions.put session)
    (hrow : session'.row = some tracked) :
    (∃ other ∈ sessions, other.row = some tracked) ∨ session.row = some tracked := by
  rcases Table.mem_put hsession with rfl | ⟨hold, -⟩
  · exact .inr hrow
  · exact .inl ⟨session', hold, hrow⟩

theorem recordSourceDispatch_tracks {sessionId rowId : Uuid} {producer : Producer} {now : Timestamp}
    {handoff : Handoff} (h : recordSourceDispatch world session handoff rowId now = .ok session')
    (hrow : session'.row = some tracked) :
    Tracks world (.record sessionId producer rowId now) tracked := by
  simp only [recordSourceDispatch, bind_ok, require_ok] at h
  obtain ⟨-, -, -, -, h⟩ := h
  split at h
  · rename_i row hfind
    obtain rfl := pure_ok.mp h
    cases hrow
    exact .found (findExecution_some hfind).1
  · simp only [bind_ok, require_ok, pure_ok] at h
    obtain ⟨-, -, rfl⟩ := h
    cases hrow
    exact .drawn

/-- A row inside a session was there before, or the action put it there. -/
theorem perform_tracks (hperform : perform action world = .ok world') (hheld : Held world' tracked) :
    Held world tracked ∨ Tracks world action tracked := by
  obtain ⟨session', hsession', hrow⟩ := hheld
  have hold : world'.sessions = world.sessions → Held world tracked ∨ Tracks world action tracked := by
    intro heq
    rw [heq] at hsession'
    exact .inl ⟨session', hsession', hrow⟩
  cases action with
  | addSource source =>
    simp only [perform, bind_ok, pure_ok] at hperform
    obtain ⟨sources, -, rfl⟩ := hperform
    exact hold rfl
  | editSource source =>
    simp only [perform] at hperform
    split at hperform
    · cases hperform
    · obtain rfl := pure_ok.mp hperform
      exact hold rfl
  | load sessionId sourceId =>
    simp only [perform, openSession] at hperform
    split at hperform
    · cases hperform
    · simp only [bind_ok, pure_ok] at hperform
      obtain ⟨sessions, hinsert, rfl⟩ := hperform
      obtain ⟨-, rfl⟩ := Table.insert_ok hinsert
      rcases List.mem_append.mp hsession' with hsession' | hsession'
      · exact .inl ⟨session', hsession', hrow⟩
      · rw [List.mem_singleton.mp hsession'] at hrow
        cases hrow
  | record sessionId producer rowId now =>
    simp only [perform, bind_ok, pure_ok] at hperform
    obtain ⟨session, -, recorded, hrecord, rfl⟩ := hperform
    rcases Held.of_put hsession' hrow with hheld | hrow
    · exact .inl hheld
    · exact .inr (recordSourceDispatch_tracks hrecord hrow)
  | enqueue sessionId reply now =>
    simp only [perform, bind_ok, enqueueTracked] at hperform
    obtain ⟨session, hget, hperform⟩ := hperform
    split at hperform
    · cases hperform
    · rename_i before hbefore
      obtain rfl := pure_ok.mp hperform
      rcases Held.of_put hsession' hrow with hheld | hrow
      · exact .inl hheld
      · cases hrow
        exact .inr (.enqueue hget hbefore)
  | commit sessionId =>
    simp only [perform, bind_ok] at hperform
    obtain ⟨session, hget, hcommit⟩ := hperform
    rw [commitSession_sessions hcommit] at hsession'
    rcases Held.of_put hsession' hrow with hheld | hrow
    · exact .inl hheld
    · obtain ⟨before, hbefore, rfl⟩ := Session.committed_row hrow
      exact .inr (.commit (getSession_ok hget).1 hbefore)
  | close sessionId =>
    obtain rfl := pure_ok.mp hperform
    exact .inl ⟨session', List.mem_of_mem_filter hsession', hrow⟩
  | start sessionId job leaseToken now =>
    simp only [perform, bind_ok, startJob, require_ok] at hperform
    obtain ⟨session, -, -, -, hstart⟩ := hperform
    split at hstart <;> obtain rfl := pure_ok.mp hstart <;> exact hold rfl
  | mark claim mark now =>
    obtain rfl := pure_ok.mp hperform
    exact hold (updateOwned_sessions ..)
  | renew claim now =>
    obtain rfl := pure_ok.mp hperform
    exact hold (updateOwned_sessions ..)
  | sweepSettle claim reply now =>
    simp only [perform, bind_ok, require_ok, pure_ok] at hperform
    obtain ⟨-, -, rfl⟩ := hperform
    exact hold (updateOwned_sessions ..)
  | removeSource sourceId =>
    obtain rfl := pure_ok.mp hperform
    exact hold rfl
  | sweepFence now =>
    obtain rfl := pure_ok.mp hperform
    exact hold rfl
  | forget jobId =>
    obtain rfl := pure_ok.mp hperform
    exact hold rfl
  | sweepLease limit locked now =>
    simp only [perform, bind_ok, require_ok, pure_ok] at hperform
    obtain ⟨-, -, rfl⟩ := hperform
    exact hold rfl
  | sweepEnqueue row reply =>
    simp only [perform, bind_ok, require_ok, pure_ok] at hperform
    obtain ⟨-, -, rfl⟩ := hperform
    exact hold rfl
  | enqueueDirect job =>
    simp only [perform, bind_ok, require_ok, pure_ok] at hperform
    obtain ⟨-, -, rfl⟩ := hperform
    exact hold rfl

end Sessions

section Leases

theorem updateOwned_leased (world : World) (rowId : Uuid) (owns : SourceDispatchExecution → Bool)
    (write : SourceDispatchExecution → SourceDispatchExecution) :
    (updateOwned world rowId owns write).leased = world.leased := by
  unfold updateOwned
  split
  · rfl
  · split <;> rfl

theorem commitSession_leased (h : commitSession world session = .ok world') :
    world'.leased = world.leased := by
  simp only [commitSession, bind_ok, require_ok] at h
  obtain ⟨-, -, sources, -, h⟩ := h
  split at h
  · simp only [bind_ok, pure_ok] at h
    obtain ⟨executions, -, rfl⟩ := h
    rfl
  · simp only [bind_ok, pure_ok] at h
    obtain ⟨executions, -, rfl⟩ := h
    rfl

/-- Only a sweep adds to the leased rows. -/
theorem perform_leased (hperform : perform action world = .ok world') (hrow : row ∈ world'.leased) :
    row ∈ world.leased ∨ ∃ limit locked now before, action = .sweepLease limit locked now ∧
      before ∈ dueExecutions world limit locked now ∧ row = before.leaseForSweep now := by
  have hold : world'.leased = world.leased → row ∈ world.leased := by
    intro heq
    rw [← heq]
    exact hrow
  cases action with
  | addSource source =>
    simp only [perform, bind_ok, pure_ok] at hperform
    obtain ⟨sources, -, rfl⟩ := hperform
    exact .inl hrow
  | editSource source =>
    simp only [perform] at hperform
    split at hperform
    · cases hperform
    · obtain rfl := pure_ok.mp hperform
      exact .inl hrow
  | load sessionId sourceId =>
    simp only [perform, openSession] at hperform
    split at hperform
    · cases hperform
    · simp only [bind_ok, pure_ok] at hperform
      obtain ⟨sessions, -, rfl⟩ := hperform
      exact .inl hrow
  | record sessionId producer rowId now =>
    simp only [perform, bind_ok, pure_ok] at hperform
    obtain ⟨session, -, recorded, -, rfl⟩ := hperform
    exact .inl hrow
  | enqueue sessionId reply now =>
    simp only [perform, bind_ok, enqueueTracked] at hperform
    obtain ⟨session, -, hperform⟩ := hperform
    split at hperform
    · cases hperform
    · obtain rfl := pure_ok.mp hperform
      exact .inl hrow
  | commit sessionId =>
    simp only [perform, bind_ok] at hperform
    obtain ⟨session, -, hcommit⟩ := hperform
    exact .inl (hold (commitSession_leased hcommit))
  | start sessionId job leaseToken now =>
    simp only [perform, bind_ok, startJob, require_ok] at hperform
    obtain ⟨session, -, -, -, hstart⟩ := hperform
    split at hstart <;> obtain rfl := pure_ok.mp hstart <;> exact .inl hrow
  | mark claim mark now =>
    obtain rfl := pure_ok.mp hperform
    exact .inl (hold (updateOwned_leased ..))
  | renew claim now =>
    obtain rfl := pure_ok.mp hperform
    exact .inl (hold (updateOwned_leased ..))
  | sweepSettle claim reply now =>
    simp only [perform, bind_ok, require_ok, pure_ok] at hperform
    obtain ⟨-, -, rfl⟩ := hperform
    exact .inl (hold (updateOwned_leased ..))
  | sweepLease limit locked now =>
    simp only [perform, bind_ok, require_ok, pure_ok] at hperform
    obtain ⟨-, -, rfl⟩ := hperform
    rcases List.mem_append.mp hrow with hrow | hrow
    · exact .inl hrow
    · obtain ⟨before, hdue, rfl⟩ := List.mem_map.mp hrow
      exact .inr ⟨limit, locked, now, before, rfl, hdue, rfl⟩
  | sweepEnqueue row reply =>
    simp only [perform, bind_ok, require_ok, pure_ok] at hperform
    obtain ⟨-, -, rfl⟩ := hperform
    exact .inl hrow
  | enqueueDirect job =>
    simp only [perform, bind_ok, require_ok, pure_ok] at hperform
    obtain ⟨-, -, rfl⟩ := hperform
    exact .inl hrow
  | removeSource sourceId =>
    obtain rfl := pure_ok.mp hperform
    exact .inl hrow
  | close sessionId =>
    obtain rfl := pure_ok.mp hperform
    exact .inl hrow
  | sweepFence now =>
    obtain rfl := pure_ok.mp hperform
    exact .inl hrow
  | forget jobId =>
    obtain rfl := pure_ok.mp hperform
    exact .inl hrow

end Leases

end Cygnus.Dispatch
