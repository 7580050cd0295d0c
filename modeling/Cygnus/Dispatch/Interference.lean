import Cygnus.Dispatch.Writes

/-! Finished executions and live claims under the writes of enqueuers, workers and sweeps.
`enqueue_dispatch_execution` reads its row, calls the queue and leaves the write to a later commit;
every other write tests the row in the transaction that makes it. -/

namespace Cygnus.Dispatch

open Wiki Text Result Sequence Machine

/-- The time a function reads for itself. -/
def Action.clock : Action → Option Timestamp
  | record _ _ _ now => some now
  | enqueue _ _ now => some now
  | start _ _ _ now => some now
  | mark _ _ now => some now
  | renew _ now => some now
  | sweepFence now => some now
  | sweepLease _ _ now => some now
  | sweepSettle _ _ now => some now
  | _ => none

structure Timed where
  time : Timestamp
  action : Action
  agrees : ∀ now, action.clock = some now → now = time

def performTimed (step : Timed) (world : World) : Except DispatchError World :=
  perform step.action world

/-- What may become of a row at `now`. -/
structure Keeps (now : Timestamp) (row row' : SourceDispatchExecution) : Prop where
  terminal : row.dispatchStatus.isTerminal → row'.dispatchStatus = row.dispatchStatus
  running : row.dispatchStatus = .running → ¬ leaseExpired row now →
    row'.dispatchStatus ∉ [.pending, .enqueued, .dispatching]

def KeepsClaims (now : Timestamp) (before after : Table SourceDispatchExecution) : Prop :=
  ∀ row ∈ before, ∀ row' ∈ after, row'.id = row.id → Keeps now row row'

/-- The commit of an enqueuer writes `failed` over another outcome, or a status of its own over a
claim that a worker still holds. -/
def Tracked.overwrites (tracked : Tracked) (row : SourceDispatchExecution) (now : Timestamp) : Bool :=
  tracked.current.dispatchStatus ≠ tracked.loaded.dispatchStatus &&
    if tracked.current.dispatchStatus = .failed then
      row.dispatchStatus = .completed || row.dispatchStatus = .stale
    else row.dispatchStatus = .running && !leaseExpired row now

/-- No enqueuer commits over what became of its row since it read it. -/
def Timed.yields (step : Timed) (world : World) : Bool :=
  match step.action with
  | .commit sessionId =>
    ((world.sessions.get sessionId).bind Session.row).all fun tracked =>
      tracked.inserted || (world.executions.get tracked.loaded.id).all fun row =>
        !tracked.overwrites row step.time
  | _ => true

variable {world world' : World} {row row' : SourceDispatchExecution} {tracked : Tracked}
  {action : Action} {now : Timestamp}

theorem getSession_get {sessionId : Uuid} {session : Session}
    (h : getSession world sessionId = .ok session) : world.sessions.get sessionId = some session := by
  unfold getSession at h
  split at h
  · rename_i hget
    cases h
    exact hget
  · cases h

section Reasons

/-- Terminal rows, and only these, carry a reason. A session leaves a terminal row as it is, and
the one outcome it gives a row is `failed`. -/
structure Tracked.Reasoned (tracked : Tracked) : Prop where
  loaded : tracked.loaded.hasReason
  current : tracked.current.hasReason
  settled : tracked.loaded.dispatchStatus.isTerminal →
    tracked.current.dispatchStatus = tracked.loaded.dispatchStatus
  failed : tracked.current.dispatchStatus.isTerminal →
    tracked.current.dispatchStatus ≠ tracked.loaded.dispatchStatus →
    tracked.current.dispatchStatus = .failed

structure Reasoned (world : World) : Prop where
  rows : ∀ row ∈ world.executions, row.hasReason
  tracked : ∀ tracked, Held world tracked → tracked.Reasoned

theorem Mark.apply_hasReason (mark : Mark) (row : SourceDispatchExecution) (now : Timestamp) :
    (mark.apply row now).hasReason := by
  cases mark <;> rfl

theorem settleEnqueue_hasReason (sources : Table Source) (row claim : SourceDispatchExecution)
    (reply : PoolReply) (now : Timestamp) : (settleEnqueue sources row claim reply now).hasReason := by
  unfold settleEnqueue
  split
  · split <;> rfl
  · split
    · rfl
    · split <;> rfl

theorem enqueueDispatchExecution_terminal {queue : List Job} {reply : PoolReply}
    (h : row.dispatchStatus.isTerminal) : enqueueDispatchExecution queue row reply now = (row, queue) := by
  rw [enqueueDispatchExecution, if_pos h]

theorem enqueueDispatchExecution_hasReason {queue : List Job} {reply : PoolReply}
    (h : row.hasReason) : (enqueueDispatchExecution queue row reply now).1.hasReason := by
  unfold enqueueDispatchExecution
  split
  · exact h
  · cases reply with
    | accepted => rfl
    | raised error queued =>
      dsimp only
      split <;> rfl

theorem enqueueDispatchExecution_failed {queue : List Job} {reply : PoolReply}
    (hlive : ¬ row.dispatchStatus.isTerminal)
    (h : (enqueueDispatchExecution queue row reply now).1.dispatchStatus.isTerminal) :
    (enqueueDispatchExecution queue row reply now).1.dispatchStatus = .failed := by
  rw [enqueueDispatchExecution, if_neg hlive] at h ⊢
  cases reply with
  | accepted => cases h
  | raised error queued =>
    dsimp only at h ⊢
    split at h
    · rename_i hspent
      rw [if_pos hspent]
    · cases h

theorem Handoff.retarget_status (handoff : Handoff) (row : SourceDispatchExecution) :
    (handoff.retarget row).dispatchStatus = row.dispatchStatus := by
  unfold Handoff.retarget
  split <;> rfl

theorem Handoff.retarget_hasReason (handoff : Handoff) (row : SourceDispatchExecution) :
    (handoff.retarget row).hasReason = row.hasReason := by
  unfold Handoff.retarget
  split <;> rfl

theorem Writes.hasReason (h : Reasoned world) (hwrites : Writes world action row') :
    row'.hasReason := by
  cases hwrites with
  | insert hsession hrow hinserted hfree hreason => exact hreason
  | flush hget hrow hloaded hfound hreason => exact hreason
  | claim hrow hlive => rfl
  | mark hrow howns => exact Mark.apply_hasReason ..
  | @renew claim now row hrow =>
    have hrow := h.rows row hrow
    exact hrow
  | fence hrow hlive => rfl
  | orphan hrow hrunning => rfl
  | lease hdue => rfl
  | settle hrow hid hclaim howns => exact settleEnqueue_hasReason ..

theorem Tracks.reasoned (h : Reasoned world) (htracks : Tracks world action tracked) :
    tracked.Reasoned := by
  cases htracks with
  | @found sessionId rowId producer now handoff row hrow =>
    refine ⟨h.rows row hrow, ?_, ?_, ?_⟩
    · rw [handoff.retarget_hasReason]
      exact h.rows row hrow
    · intro _
      exact handoff.retarget_status row
    · intro _ hne
      exact absurd (handoff.retarget_status row) hne
  | drawn => exact ⟨rfl, rfl, fun _ => rfl, fun _ hne => absurd rfl hne⟩
  | @enqueue sessionId session before reply now hget hrow =>
    have hbefore := h.tracked before ⟨session, (getSession_ok hget).1, hrow⟩
    refine ⟨hbefore.loaded, enqueueDispatchExecution_hasReason hbefore.current, ?_, ?_⟩
    · intro hterminal
      have heq := hbefore.settled hterminal
      rw [enqueueDispatchExecution_terminal (heq ▸ hterminal)]
      exact heq
    · intro hterminal hne
      by_cases hcurrent : before.current.dispatchStatus.isTerminal
      · rw [enqueueDispatchExecution_terminal hcurrent] at hne ⊢
        exact hbefore.failed hcurrent hne
      · exact enqueueDispatchExecution_failed hcurrent hterminal
  | @commit sessionId session before hsession hrow =>
    have hbefore := h.tracked before ⟨session, hsession, hrow⟩
    exact ⟨hbefore.current, hbefore.current, fun _ => rfl, fun _ hne => absurd rfl hne⟩

theorem perform_reasoned (h : Reasoned world) (hperform : perform action world = .ok world') :
    Reasoned world' := by
  constructor
  · intro row' hrow'
    rcases perform_writes hperform hrow' with hold | hwrites
    · exact h.rows row' hold
    · exact hwrites.hasReason h
  · intro tracked hheld
    rcases perform_tracks hperform hheld with hold | htracks
    · exact h.tracked tracked hold
    · exact htracks.reasoned h

end Reasons

section Steps

theorem Keeps.refl (now : Timestamp) (row : SourceDispatchExecution) : Keeps now row row := by
  refine ⟨fun _ => rfl, ?_⟩
  intro hrunning _
  rw [hrunning]
  decide

/-- A row that no one has finished may be finished, or be claimed by a worker. -/
theorem Keeps.of_live (hlive : row.dispatchStatus.isTerminal = false)
    (hstatus : row'.dispatchStatus.isTerminal ∨ row'.dispatchStatus = .running) :
    Keeps now row row' := by
  constructor
  · intro hterminal
    rw [hlive] at hterminal
    cases hterminal
  · intro _ _
    rcases hstatus with hstatus | hstatus
    · revert hstatus
      cases row'.dispatchStatus <;> decide
    · rw [hstatus]
      decide

theorem Keeps.of_due (hdue : dispatchIsDue row now) : Keeps now row row' := by
  unfold dispatchIsDue at hdue
  constructor
  · intro hterminal
    cases hstatus : row.dispatchStatus <;> simp_all [DispatchStatus.isTerminal]
  · intro hrunning hlease
    rw [hrunning] at hdue
    exact absurd hdue hlease

theorem Keeps.of_dispatching (hstatus : row.dispatchStatus = .dispatching) : Keeps now row row' := by
  constructor
  · intro hterminal
    rw [hstatus] at hterminal
    cases hterminal
  · intro hrunning
    rw [hstatus] at hrunning
    cases hrunning

/-- A status that is not terminal is refused over a finished row, whose reason the session leaves
in place. -/
theorem Tracked.Reasoned.flush_terminal (h : tracked.Reasoned) (hrow : row.hasReason)
    (hreason : (writeBack tracked.loaded tracked.current row).hasReason)
    (hterminal : row.dispatchStatus.isTerminal)
    (hwritten : tracked.current.dispatchStatus ≠ tracked.loaded.dispatchStatus) :
    tracked.current.dispatchStatus.isTerminal := by
  have hloaded : tracked.loaded.dispatchStatus.isTerminal = false := by
    by_contra hne
    exact hwritten (h.settled (by simpa using hne))
  have hloadedReason : tracked.loaded.terminalReason = none := by
    have := h.loaded
    simpa [SourceDispatchExecution.hasReason, hloaded] using this
  by_contra hlive
  rw [Bool.not_eq_true] at hlive
  have hcurrentReason : tracked.current.terminalReason = none := by
    have := h.current
    simpa [SourceDispatchExecution.hasReason, hlive] using this
  have hrowReason : row.terminalReason.isSome := by
    simpa [SourceDispatchExecution.hasReason, hterminal] using hrow
  have hback : (writeBack tracked.loaded tracked.current row).terminalReason = row.terminalReason := by
    simp [writeBack, writeColumn, hloadedReason, hcurrentReason]
  have hbackStatus : (writeBack tracked.loaded tracked.current row).dispatchStatus =
      tracked.current.dispatchStatus := by
    simp [writeBack, writeColumn, hwritten]
  rw [SourceDispatchExecution.hasReason, hback, hbackStatus, hrowReason, hlive] at hreason
  cases hreason

theorem Tracked.Reasoned.flush_keeps (h : tracked.Reasoned) (hrow : row.hasReason)
    (hreason : (writeBack tracked.loaded tracked.current row).hasReason)
    (hyields : ¬ tracked.overwrites row now) :
    Keeps now row (writeBack tracked.loaded tracked.current row) := by
  by_cases hwritten : tracked.current.dispatchStatus = tracked.loaded.dispatchStatus
  · -- the status column is not part of the update
    have hstatus : (writeBack tracked.loaded tracked.current row).dispatchStatus =
        row.dispatchStatus := by
      simp [writeBack, writeColumn, hwritten]
    constructor
    · intro _
      exact hstatus
    · intro hrunning hlease
      rw [hstatus]
      exact (Keeps.refl now row).running hrunning hlease
  · have hstatus : (writeBack tracked.loaded tracked.current row).dispatchStatus =
        tracked.current.dispatchStatus := by
      simp [writeBack, writeColumn, hwritten]
    rw [overwrites] at hyields
    constructor
    · intro hterminal
      have hfinished := h.flush_terminal hrow hreason hterminal hwritten
      have hfailed := h.failed hfinished hwritten
      rw [hstatus, hfailed]
      cases hcase : row.dispatchStatus <;>
        simp_all [DispatchStatus.isTerminal]
    · intro hrunning hlease
      rw [hstatus]
      cases hcase : tracked.current.dispatchStatus <;> simp_all

/-- The statuses a write of an action may give to the row it replaces. -/
theorem Writes.keeps (hsound : Sound world) (h : Reasoned world) {step : Timed}
    (hyields : step.yields world) (hwrites : Writes world step.action row')
    (hrow : row ∈ world.executions) (hid : row'.id = row.id) : Keeps step.time row row' := by
  have hsame : ∀ {other : SourceDispatchExecution}, other ∈ world.executions → other.id = row.id →
      other = row := by
    intro other hother heq
    exact hsound.rows.keyed.eq_of_key hother hrow heq
  obtain ⟨time, action, hagrees⟩ := step
  dsimp only at hwrites ⊢
  cases hwrites with
  | insert hsession hrow' hinserted hfree hreason =>
    rw [Table.get_eq_none] at hfree
    exact absurd hid.symm (hfree row hrow)
  | @flush sessionId session tracked committed hget hrow' hloaded hfound hreason =>
    obtain rfl := hsame (Table.get_mem hfound) hid
    have hheld := h.tracked tracked ⟨session, (getSession_ok hget).1, hrow'⟩
    have hsession := getSession_get hget
    rw [Timed.yields] at hyields
    simp only [hsession, Option.bind_some, hrow', Option.all_some, hloaded, hfound,
      Bool.false_or, Bool.not_eq_true'] at hyields
    exact hheld.flush_keeps (h.rows _ hrow) hreason (by simp [hyields])
  | claim hold hlive =>
    obtain rfl := hsame hold hid
    exact .of_live hlive (.inr rfl)
  | @mark claim mark now old hold howns =>
    have hmark : (mark.apply old now).id = old.id := congrArg Target.id (mark.apply_target old now)
    obtain rfl := hsame hold (hmark.symm.trans hid)
    rw [claimOwnsExecution, Bool.and_eq_true, Bool.not_eq_true'] at howns
    exact .of_live howns.1 (.inl (by cases mark <;> rfl))
  | @renew claim now old hold =>
    obtain rfl := hsame hold hid
    exact ⟨(Keeps.refl time old).terminal, (Keeps.refl time old).running⟩
  | fence hold hlive =>
    obtain rfl := hsame hold hid
    exact .of_live hlive (.inl rfl)
  | orphan hold hrunning =>
    obtain rfl := hsame hold hid
    exact .of_live (by rw [hrunning]; rfl) (.inl rfl)
  | @lease limit locked now old hdue =>
    obtain ⟨hold, hdue⟩ := mem_dueExecutions hdue
    obtain rfl := hsame hold hid
    rw [← hagrees now rfl]
    exact .of_due hdue
  | @settle claim old reply now hold hclaim hleased howns =>
    have hsettle : (settleEnqueue world.sources old claim reply now).id = old.id :=
      congrArg Target.id (settleEnqueue_target world.sources old claim reply now)
    obtain rfl := hsame hold (hsettle.symm.trans hid)
    rw [ownsClaim, Bool.and_eq_true, decide_eq_true_eq] at howns
    exact .of_dispatching howns.1

theorem performTimed_keeps (hsound : Sound world) (h : Reasoned world) {step : Timed}
    (hyields : step.yields world) (hperform : performTimed step world = .ok world') :
    KeepsClaims step.time world.executions world'.executions := by
  intro row hrow row' hrow' hid
  rcases perform_writes hperform hrow' with hold | hwrites
  · obtain rfl := hsound.rows.keyed.eq_of_key hold hrow hid
    exact .refl _ _
  · exact hwrites.keeps hsound h hyields hrow hid

theorem step_keeps (hsound : Sound world) (h : Reasoned world) {step : Timed}
    (hyields : step.yields world) :
    KeepsClaims step.time world.executions (Machine.step performTimed world step).executions := by
  rcases step_cases performTimed world step with heq | hok
  · rw [heq]
    intro row hrow row' hrow' hid
    obtain rfl := hsound.rows.keyed.eq_of_key hrow' hrow hid
    exact .refl _ _
  · exact performTimed_keeps hsound h hyields hok

/-- An outbox that keeps its reasons, in a sound world. -/
def Orderly (world : World) : Prop := Sound world ∧ Reasoned world

theorem orderly_empty : Orderly {} := by
  refine ⟨sound_empty, ?_, ?_⟩
  · intro row hrow
    exact absurd hrow List.not_mem_nil
  · rintro tracked ⟨session, hsession, -⟩
    exact absurd hsession List.not_mem_nil

theorem performTimed_orderly :
    Preserves performTimed (fun world step => step.yields world) Orderly := by
  intro world world' step h _ hperform
  exact ⟨perform_sound h.1 hperform, perform_reasoned h.2 hperform⟩

end Steps

section Overtaken

/-- An action at its own time, or at `time` when it reads no clock. -/
def Action.after (action : Action) (time : Timestamp) : Timed where
  time := action.clock.getD time
  action := action
  agrees := by
    intro now hclock
    rw [hclock]
    rfl

/-- Refinement is requested while the queue is down. -/
def requested : List Timed := [
  (Action.addSource { id := 1, fullText := some "Refunds close after 30 days." }).after 0,
  (Action.load 2 1).after 0, (Action.record 2 .refine 3 0).after 0,
  (Action.enqueue 2 (.raised "ConnectionError: " false) 0).after 0, (Action.commit 2).after 0]

def refineJob : Job := ⟨sourceStageJobId 1 .refine 1, .ingestRefineTask, [Uuid.text 1]⟩

/-- It is requested again, and the job starts before the second request is committed. -/
def requestedAgain : List Timed := requested ++ [
  (Action.load 4 1).after 10, (Action.record 4 .refine 5 10).after 10,
  (Action.enqueue 4 .accepted 10).after 10, (Action.load 6 1).after 11,
  (Action.start 6 refineJob "worker" 12).after 12]

def claimedRow : SourceDispatchExecution :=
  { id := 3, sourceId := 1, generation := 1, stage := .refine, taskName := .ingestRefineTask,
    taskArgs := [Uuid.text 1], jobId := sourceStageJobId 1 .refine 1, dispatchStatus := .running,
    attemptCount := 1, leaseToken := some "worker", leaseExpiresAt := some (12 + dispatchLease),
    createdAt := 0 }

/-- The second request is committed before the job starts. -/
def requestedInTime : List Timed := requested ++ [
  (Action.load 4 1).after 10, (Action.record 4 .refine 5 10).after 10,
  (Action.enqueue 4 .accepted 10).after 10, (Action.commit 4).after 11, (Action.load 6 1).after 11,
  (Action.start 6 refineJob "worker" 12).after 12]

end Overtaken

end Cygnus.Dispatch
