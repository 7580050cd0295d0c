import Cygnus.Dispatch.Interference

/-! The retry budget of an outbox row, against the record of the enqueue calls made for it. -/

namespace Cygnus.Dispatch

open Wiki Text Result Sequence Machine

deriving instance DecidableEq for PoolReply

def Mark.reason : Mark → String
  | complete reason => reason
  | fail _ reason => reason
  | stale reason => reason

/-- The outbox with what a sweep has in hand and with a record of the calls to the queue. -/
structure Audit where
  world : World := {}
  /-- ids drawn for outbox rows -/
  drawn : List Uuid := []
  /-- leased rows whose call is still to be made -/
  awaiting : List SourceDispatchExecution := []
  /-- replies that are still to be recorded -/
  replies : List (SourceDispatchExecution × PoolReply) := []
  /-- the row of each lease a sweep took -/
  leases : List Uuid := []
  /-- the row of each call of a sweep that raised -/
  sweepRaises : List Uuid := []
  /-- the row of each call of `enqueue_dispatch_execution` that raised -/
  requestRaises : List Uuid := []

/-- A sweep that gets no pool records a failure for its leases and calls nothing. -/
inductive Call
  | act (action : Action)
  | poolUnavailable (row : SourceDispatchExecution) (error : String) (now : Timestamp)

/-- A sweep makes one call for each lease and records its reply, `uuid4` draws no id again, and no
caller of the terminal marks passes the reason of an exhausted budget. -/
def Audit.admits (audit : Audit) : Action → Bool
  | .record _ _ rowId _ => rowId ∉ audit.drawn
  | .sweepEnqueue row _ => row ∈ audit.awaiting
  | .sweepSettle row reply _ => (row, reply) ∈ audit.replies
  | .mark _ mark _ => mark.reason ≠ "enqueue_retry_exhausted"
  | _ => true

/-- The row that a session is about to enqueue. -/
def Audit.enqueued (audit : Audit) (sessionId : Uuid) : Option SourceDispatchExecution :=
  (((audit.world.sessions.get sessionId).bind Session.row).map Tracked.current).filter
    fun row => !row.dispatchStatus.isTerminal

def Audit.note (audit : Audit) (world : World) : Action → Audit
  | .record _ _ rowId _ => { audit with world := world, drawn := rowId :: audit.drawn }
  | .enqueue sessionId (.raised _ _) _ => { audit with
      world := world,
      requestRaises := ((audit.enqueued sessionId).map SourceDispatchExecution.id).toList ++
        audit.requestRaises }
  | .sweepLease limit locked now =>
    let rows := (dueExecutions audit.world limit locked now).map fun row => row.leaseForSweep now
    { audit with
      world := world, awaiting := audit.awaiting ++ rows,
      leases := rows.map SourceDispatchExecution.id ++ audit.leases }
  | .sweepEnqueue row .accepted => { audit with
      world := world, awaiting := audit.awaiting.erase row,
      replies := (row, .accepted) :: audit.replies }
  | .sweepEnqueue row (.raised error queued) => { audit with
      world := world, awaiting := audit.awaiting.erase row,
      replies := (row, .raised error queued) :: audit.replies,
      sweepRaises := row.id :: audit.sweepRaises }
  | .sweepSettle row reply _ => { audit with
      world := world, replies := audit.replies.erase (row, reply) }
  | _ => { audit with world := world }

def performAudited (call : Call) (audit : Audit) : Except DispatchError Audit :=
  match call with
  | .act action => do
    require (audit.admits action) .notFound
    let world ← perform action audit.world
    return audit.note world action
  | .poolUnavailable row error now => do
    require (row ∈ audit.awaiting) .notFound
    let world ← perform (.sweepSettle row (.raised error false) now) audit.world
    return { audit with world := world, awaiting := audit.awaiting.erase row }

/-- The enqueue calls for a row that have raised. -/
def Audit.raised (audit : Audit) (rowId : Uuid) : Nat :=
  audit.sweepRaises.count rowId + audit.requestRaises.count rowId

/-- What `attempt_count` can have counted. -/
def Audit.spent (audit : Audit) (rowId : Uuid) : Nat :=
  audit.leases.count rowId + audit.requestRaises.count rowId

/-- The row whose budget the call would exhaust. -/
def Call.exhausts (call : Call) (audit : Audit) : Option SourceDispatchExecution :=
  match call with
  | .act (.sweepSettle row (.raised _ _) _) => some row
  | .act (.enqueue sessionId (.raised _ _) _) =>
    (audit.enqueued sessionId).map fun row => { row with attemptCount := row.attemptCount + 1 }
  | .poolUnavailable row _ _ => some row
  | _ => none

/-- Where a failure would exhaust the budget of a row, every lease that a sweep took of it has ended
in a call that raised. -/
def Call.spentOnFailures (call : Call) (audit : Audit) : Bool :=
  (call.exhausts audit).all fun row =>
    row.attemptCount < maxDispatchEnqueueAttempts ||
      audit.leases.count row.id ≤ audit.sweepRaises.count row.id

/-- The outbox action behind a call. -/
def Call.action : Call → Action
  | act action => action
  | poolUnavailable row error now => .sweepSettle row (.raised error false) now

variable {audit audit' : Audit} {world world' : World} {call : Call} {action : Action}
  {row row' claim : SourceDispatchExecution} {tracked : Tracked} {now : Timestamp}

section Rows

/-- The budget of a row is covered by the record, and it is exhausted by failures only. -/
structure Covered (audit : Audit) (row : SourceDispatchExecution) : Prop where
  spent : row.attemptCount ≤ audit.spent row.id
  exhausted : row.terminalReason = some "enqueue_retry_exhausted" →
    maxDispatchEnqueueAttempts ≤ audit.raised row.id

structure Budgeted (audit : Audit) : Prop where
  sound : Sound audit.world
  rows : ∀ row ∈ audit.world.executions, Covered audit row
  tracked : ∀ tracked, Held audit.world tracked → Covered audit tracked.current
  leased : ∀ row ∈ audit.world.leased, row.attemptCount ≤ audit.spent row.id

/-- The record only grows. -/
structure Grows (audit audit' : Audit) : Prop where
  leases : audit.leases <:+ audit'.leases
  sweepRaises : audit.sweepRaises <:+ audit'.sweepRaises
  requestRaises : audit.requestRaises <:+ audit'.requestRaises

theorem Grows.spent (h : Grows audit audit') (rowId : Uuid) : audit.spent rowId ≤ audit'.spent rowId :=
  Nat.add_le_add (h.leases.sublist.count_le rowId) (h.requestRaises.sublist.count_le rowId)

theorem Grows.raised (h : Grows audit audit') (rowId : Uuid) :
    audit.raised rowId ≤ audit'.raised rowId :=
  Nat.add_le_add (h.sweepRaises.sublist.count_le rowId) (h.requestRaises.sublist.count_le rowId)

theorem Grows.covered (h : Grows audit audit') (hrow : Covered audit row) : Covered audit' row :=
  ⟨hrow.spent.trans (h.spent row.id), fun hreason => (hrow.exhausted hreason).trans (h.raised row.id)⟩

theorem Covered.of_columns (h : Covered audit row) (hid : row'.id = row.id)
    (hcount : row'.attemptCount = row.attemptCount) (hreason : row'.terminalReason = row.terminalReason) :
    Covered audit row' := by
  constructor
  · rw [hid, hcount]
    exact h.spent
  · rw [hid, hreason]
    exact h.exhausted

theorem Covered.of_reason (h : Covered audit row) (hid : row'.id = row.id)
    (hcount : row'.attemptCount = row.attemptCount)
    (hreason : row'.terminalReason ≠ some "enqueue_retry_exhausted") : Covered audit row' := by
  constructor
  · rw [hid, hcount]
    exact h.spent
  · intro hexhausted
    exact absurd hexhausted hreason

theorem settleEnqueue_columns (sources : Table Source) (row claim : SourceDispatchExecution)
    (reply : PoolReply) (now : Timestamp) :
    (settleEnqueue sources row claim reply now).id = row.id ∧
      (settleEnqueue sources row claim reply now).attemptCount = row.attemptCount := by
  unfold settleEnqueue
  split
  · split <;> exact ⟨rfl, rfl⟩
  · split
    · exact ⟨rfl, rfl⟩
    · split <;> exact ⟨rfl, rfl⟩

theorem settleEnqueue_exhausted {sources : Table Source} {reply : PoolReply}
    (h : (settleEnqueue sources row claim reply now).terminalReason =
      some "enqueue_retry_exhausted") :
    (∃ error queued, reply = .raised error queued) ∧
      maxDispatchEnqueueAttempts ≤ claim.attemptCount := by
  cases reply with
  | accepted =>
    rw [settleEnqueue] at h
    split at h
    · revert h
      simp [SourceDispatchExecution.finish]
    · cases h
  | raised error queued =>
    rw [settleEnqueue] at h
    split at h
    · revert h
      simp [SourceDispatchExecution.finish]
    · split at h
      · rename_i hspent
        exact ⟨⟨error, queued, rfl⟩, hspent⟩
      · cases h

theorem Mark.apply_columns (mark : Mark) (row : SourceDispatchExecution) (now : Timestamp) :
    (mark.apply row now).id = row.id ∧ (mark.apply row now).attemptCount = row.attemptCount ∧
      (mark.apply row now).terminalReason = some mark.reason := by
  cases mark <;> exact ⟨rfl, rfl, rfl⟩

theorem writeBack_covered {loaded current committed : SourceDispatchExecution}
    (hcurrent : Covered audit current) (hcommitted : Covered audit committed)
    (hid : current.id = committed.id) : Covered audit (writeBack loaded current committed) := by
  constructor
  · show writeColumn loaded.attemptCount current.attemptCount committed.attemptCount ≤
      audit.spent committed.id
    unfold writeColumn
    split
    · exact hcommitted.spent
    · rw [← hid]
      exact hcurrent.spent
  · show writeColumn loaded.terminalReason current.terminalReason committed.terminalReason =
      some "enqueue_retry_exhausted" → maxDispatchEnqueueAttempts ≤ audit.raised committed.id
    unfold writeColumn
    split
    · exact hcommitted.exhausted
    · rw [← hid]
      exact hcurrent.exhausted

end Rows

section Calls

theorem Audit.note_world (audit : Audit) (world : World) (action : Action) :
    (audit.note world action).world = world := by
  unfold note
  split <;> rfl

theorem Audit.note_grows (audit : Audit) (world : World) (action : Action) :
    Grows audit (audit.note world action) := by
  constructor
  · unfold note
    split <;> simp
  · unfold note
    split <;> simp
  · unfold note
    split <;> simp

/-- What an accepted call does, for the action behind it. -/
structure Accepted (call : Call) (audit audit' : Audit) : Prop where
  performs : perform call.action audit.world = .ok audit'.world
  grows : Grows audit audit'
  leases : ∀ limit locked now, call.action = .sweepLease limit locked now →
    audit'.leases = ((dueExecutions audit.world limit locked now).map fun row =>
      row.leaseForSweep now).map SourceDispatchExecution.id ++ audit.leases
  requestRaises : ∀ sessionId error queued now,
    call.action = .enqueue sessionId (.raised error queued) now →
    audit'.requestRaises = ((audit.enqueued sessionId).map SourceDispatchExecution.id).toList ++
      audit.requestRaises
  marks : ∀ claim mark now, call.action = .mark claim mark now →
    mark.reason ≠ "enqueue_retry_exhausted"

theorem performAudited_accepted (h : performAudited call audit = .ok audit') :
    Accepted call audit audit' := by
  cases call with
  | act action =>
    simp only [performAudited, bind_ok, require_ok, pure_ok] at h
    obtain ⟨-, hadmits, world, hperform, rfl⟩ := h
    refine ⟨?_, audit.note_grows world action, ?_, ?_, ?_⟩
    · rw [Audit.note_world]
      exact hperform
    · rintro limit locked now ⟨⟩
      rfl
    · rintro sessionId error queued now ⟨⟩
      rfl
    · rintro claim mark now ⟨⟩
      exact of_decide_eq_true hadmits
  | poolUnavailable row error now =>
    simp only [performAudited, bind_ok, require_ok, pure_ok] at h
    obtain ⟨-, -, world, hperform, rfl⟩ := h
    refine ⟨hperform, ⟨List.suffix_rfl, List.suffix_rfl, List.suffix_rfl⟩, ?_, ?_, ?_⟩
    · rintro limit locked now ⟨⟩
    · rintro sessionId error queued now ⟨⟩
    · rintro claim mark now ⟨⟩

/-- A sweep counts each lease it takes. -/
theorem Accepted.leased {limit : Nat} {locked : List Uuid} (h : Accepted call audit audit')
    (haction : call.action = .sweepLease limit locked now)
    (hdue : row ∈ dueExecutions audit.world limit locked now)
    (hrow : row.attemptCount ≤ audit.spent row.id) :
    (row.leaseForSweep now).attemptCount ≤ audit'.spent row.id := by
  have hraises := h.grows.requestRaises.sublist.count_le row.id
  have hmem : row.id ∈ ((dueExecutions audit.world limit locked now).map fun row =>
      row.leaseForSweep now).map SourceDispatchExecution.id :=
    List.mem_map.mpr ⟨row.leaseForSweep now, List.mem_map_of_mem hdue, rfl⟩
  have hpos := List.count_pos_iff.mpr hmem
  have hcount := congrArg (List.count row.id) (h.leases limit locked now haction)
  rw [List.count_append] at hcount
  rw [Audit.spent] at hrow ⊢
  show row.attemptCount + 1 ≤ _
  omega

/-- A failure that exhausts the budget of a row is preceded by as many calls that raised. -/
theorem Audit.le_raised {rowId : Uuid} {count : Nat}
    (hcount : count ≤ audit.spent rowId)
    (hleases : audit.leases.count rowId ≤ audit.sweepRaises.count rowId) :
    count ≤ audit.raised rowId := by
  rw [Audit.spent] at hcount
  rw [Audit.raised]
  omega

theorem Call.spentOnFailures_settle {reply : PoolReply}
    (hcall : call.spentOnFailures audit) (haction : call.action = .sweepSettle claim reply now)
    (hreply : ∃ error queued, reply = .raised error queued)
    (hspent : maxDispatchEnqueueAttempts ≤ claim.attemptCount) :
    audit.leases.count claim.id ≤ audit.sweepRaises.count claim.id := by
  obtain ⟨error, queued, rfl⟩ := hreply
  cases call with
  | act action =>
    cases haction
    simpa [spentOnFailures, exhausts, hspent.not_gt] using hcall
  | poolUnavailable row error now =>
    cases haction
    simpa [spentOnFailures, exhausts, hspent.not_gt] using hcall

theorem Accepted.writes (h : Accepted call audit audit') (hbudget : Budgeted audit)
    (hcall : call.spentOnFailures audit) (hwrites : Writes audit.world call.action row') :
    Covered audit' row' := by
  generalize haction : call.action = action at hwrites
  cases hwrites with
  | @insert sessionId session tracked hsession hrow hinserted hfree hreason =>
    exact h.grows.covered (hbudget.tracked tracked ⟨session, hsession, hrow⟩)
  | @flush sessionId session tracked committed hget hrow hloaded hfound hreason =>
    have hmem := (getSession_ok hget).1
    have hid : tracked.current.id = committed.id :=
      (hbudget.sound.tracked session hmem tracked hrow).id_eq.trans (Table.get_key hfound).symm
    exact h.grows.covered (writeBack_covered (hbudget.tracked tracked ⟨session, hmem, hrow⟩)
      (hbudget.rows committed (Table.get_mem hfound)) hid)
  | @claim sessionId job leaseToken now row hrow hlive =>
    have hrow := h.grows.covered (hbudget.rows row hrow)
    refine hrow.of_reason rfl rfl ?_
    intro hreason
    cases hreason
  | @mark claim mark now row hrow howns =>
    have hrow := h.grows.covered (hbudget.rows row hrow)
    obtain ⟨hid, hcount, hreason⟩ := mark.apply_columns row now
    apply hrow.of_reason hid hcount
    rw [hreason]
    intro hexhausted
    exact h.marks claim mark now haction (Option.some.inj hexhausted)
  | @renew claim now row hrow =>
    have hrow := h.grows.covered (hbudget.rows row hrow)
    exact hrow.of_columns rfl rfl rfl
  | @fence now lastError row hrow hlive =>
    have hrow := h.grows.covered (hbudget.rows row hrow)
    exact hrow.of_reason rfl rfl (by simp [SourceDispatchExecution.finish])
  | @orphan now lastError row hrow hrunning =>
    have hrow := h.grows.covered (hbudget.rows row hrow)
    exact hrow.of_reason rfl rfl (by simp [SourceDispatchExecution.finish])
  | @lease limit locked now row hdue =>
    have hrow := hbudget.rows row (mem_dueExecutions hdue).1
    refine ⟨h.leased haction hdue hrow.spent, ?_⟩
    intro hreason
    cases hreason
  | @settle claim row reply now hrow hid hclaim howns =>
    have hrow := hbudget.rows row hrow
    obtain ⟨hid', hcount⟩ := settleEnqueue_columns audit.world.sources row claim reply now
    apply h.grows.covered
    constructor
    · rw [hid', hcount]
      exact hrow.spent
    · intro hexhausted
      obtain ⟨hreply, hspent⟩ := settleEnqueue_exhausted hexhausted
      have hleases := Call.spentOnFailures_settle hcall haction hreply hspent
      rw [hid', hid]
      exact hspent.trans (Audit.le_raised (hbudget.leased claim hclaim) hleases)

theorem Audit.enqueued_eq {sessionId : Uuid} {session : Session}
    (hget : getSession audit.world sessionId = .ok session) (hrow : session.row = some tracked)
    (hlive : ¬ tracked.current.dispatchStatus.isTerminal) :
    audit.enqueued sessionId = some tracked.current := by
  simp [enqueued, getSession_get hget, hrow, hlive]

/-- A call that raises is counted before the row it leaves behind is. -/
theorem Accepted.requestRaised {sessionId : Uuid} {error : String} {queued : Bool}
    (h : Accepted call audit audit')
    (haction : call.action = .enqueue sessionId (.raised error queued) now)
    (henqueued : audit.enqueued sessionId = some row) :
    audit'.requestRaises.count row.id = audit.requestRaises.count row.id + 1 := by
  rw [h.requestRaises sessionId error queued now haction, henqueued]
  simp [Nat.add_comm]

theorem Call.spentOnFailures_enqueue {sessionId : Uuid} {error : String} {queued : Bool}
    (hcall : call.spentOnFailures audit)
    (haction : call.action = .enqueue sessionId (.raised error queued) now)
    (henqueued : audit.enqueued sessionId = some row)
    (hspent : maxDispatchEnqueueAttempts ≤ row.attemptCount + 1) :
    audit.leases.count row.id ≤ audit.sweepRaises.count row.id := by
  cases call with
  | act action =>
    cases haction
    simpa [spentOnFailures, exhausts, henqueued, hspent.not_gt] using hcall
  | poolUnavailable row error now => cases haction

theorem Accepted.enqueues {sessionId : Uuid} {session : Session} {reply : PoolReply}
    (h : Accepted call audit audit') (hbudget : Budgeted audit) (hcall : call.spentOnFailures audit)
    (haction : call.action = .enqueue sessionId reply now)
    (hget : getSession audit.world sessionId = .ok session) (hrow : session.row = some tracked) :
    Covered audit' (enqueueDispatchExecution audit.world.queue tracked.current reply now).1 := by
  have hcovered := hbudget.tracked tracked ⟨session, (getSession_ok hget).1, hrow⟩
  by_cases hterminal : tracked.current.dispatchStatus.isTerminal
  · rw [enqueueDispatchExecution_terminal hterminal]
    exact h.grows.covered hcovered
  · have henqueued := Audit.enqueued_eq hget hrow hterminal
    rw [enqueueDispatchExecution, if_neg hterminal]
    cases reply with
    | accepted =>
      refine (h.grows.covered hcovered).of_reason rfl rfl ?_
      intro hreason
      cases hreason
    | raised error queued =>
      have hraised := h.requestRaised haction henqueued
      have hleases := h.grows.leases.sublist.count_le tracked.current.id
      have hsweep := h.grows.sweepRaises.sublist.count_le tracked.current.id
      have hcount := hcovered.spent
      have hspent : tracked.current.attemptCount + 1 ≤ audit'.spent tracked.current.id := by
        rw [Audit.spent] at hcount ⊢
        omega
      dsimp only
      split
      · rename_i hexhausted
        refine ⟨hspent, fun _ => ?_⟩
        have hfailures := Call.spentOnFailures_enqueue hcall haction henqueued hexhausted
        show maxDispatchEnqueueAttempts ≤ audit'.raised tracked.current.id
        rw [Audit.raised]
        rw [Audit.spent] at hcount
        omega
      · refine ⟨hspent, ?_⟩
        intro hreason
        cases hreason

theorem Accepted.tracks (h : Accepted call audit audit') (hbudget : Budgeted audit)
    (hcall : call.spentOnFailures audit) (htracks : Tracks audit.world call.action tracked) :
    Covered audit' tracked.current := by
  generalize haction : call.action = action at htracks
  cases htracks with
  | @found sessionId rowId producer now handoff row hrow =>
    have hrow := h.grows.covered (hbudget.rows row hrow)
    unfold Handoff.retarget
    split
    · exact hrow
    · exact hrow.of_columns rfl rfl rfl
  | drawn =>
    refine ⟨Nat.zero_le _, ?_⟩
    intro hreason
    cases hreason
  | enqueue hget hrow => exact h.enqueues hbudget hcall haction hget hrow
  | @commit sessionId session before hsession hrow =>
    exact h.grows.covered (hbudget.tracked before ⟨session, hsession, hrow⟩)

theorem Accepted.leasedRows (h : Accepted call audit audit') (hbudget : Budgeted audit)
    (hrow : row ∈ audit'.world.leased) : row.attemptCount ≤ audit'.spent row.id := by
  rcases perform_leased h.performs hrow with hold | ⟨limit, locked, now, before, haction, hdue, rfl⟩
  · exact (hbudget.leased row hold).trans (h.grows.spent row.id)
  · exact h.leased haction hdue (hbudget.rows before (mem_dueExecutions hdue).1).spent

theorem performAudited_budgeted :
    Preserves performAudited (fun audit call => call.spentOnFailures audit) Budgeted := by
  intro audit audit' call hbudget hcall hperform
  have h := performAudited_accepted hperform
  constructor
  · exact perform_sound hbudget.sound h.performs
  · intro row hrow
    rcases perform_writes h.performs hrow with hold | hwrites
    · exact h.grows.covered (hbudget.rows row hold)
    · exact h.writes hbudget hcall hwrites
  · intro tracked hheld
    rcases perform_tracks h.performs hheld with hold | htracks
    · exact h.grows.covered (hbudget.tracked tracked hold)
    · exact h.tracks hbudget hcall htracks
  · intro row hrow
    exact h.leasedRows hbudget hrow

theorem budgeted_empty : Budgeted {} := by
  refine ⟨sound_empty, ?_, ?_, ?_⟩
  · intro row hrow
    exact absurd hrow List.not_mem_nil
  · rintro tracked ⟨session, hsession, -⟩
    exact absurd hsession List.not_mem_nil
  · intro row hrow
    exact absurd hrow List.not_mem_nil

end Calls

/-- In a run in which no budget is exhausted that paid for a lease without a failure, a row is marked
`enqueue_retry_exhausted` only after as many of its calls have raised. -/
theorem run_exhausted_raised (calls : List Call)
    (h : Meets performAudited (fun audit call => call.spentOnFailures audit) {} calls) :
    ∀ row ∈ (run performAudited {} calls).world.executions,
      row.terminalReason = some "enqueue_retry_exhausted" →
      maxDispatchEnqueueAttempts ≤ (run performAudited {} calls).raised row.id := by
  intro row hrow hreason
  exact ((performAudited_budgeted.run budgeted_empty h).rows row hrow).exhausted hreason

section Recovery

/-- Refinement is requested, and the queue replies with `reply`. -/
def request (reply : PoolReply) : List Call := [
  .act (.addSource { id := 1, fullText := some "Refunds close after 30 days." }), .act (.load 2 1),
  .act (.record 2 .refine 3 0), .act (.enqueue 2 reply 0), .act (.commit 2)]

/-- The row as a sweep leases it for the `attempt`-th time. -/
def leasedRow (enqueuedAt : Option Timestamp) (attempt : Nat) (now : Timestamp) :
    SourceDispatchExecution :=
  { id := 3, sourceId := 1, generation := 1, stage := .refine, taskName := .ingestRefineTask,
    taskArgs := [Uuid.text 1], jobId := sourceStageJobId 1 .refine 1,
    dispatchStatus := .dispatching, attemptCount := attempt,
    leaseExpiresAt := some (now + dispatchLease), enqueuedAt := enqueuedAt, createdAt := 0 }

/-- A sweep leases the row, calls the queue and records the reply. -/
def sweep (row : SourceDispatchExecution) (reply : PoolReply) (now : Timestamp) : List Call :=
  [.act (.sweepLease 50 [] now), .act (.sweepEnqueue row reply), .act (.sweepSettle row reply now)]

def requestSweep (enqueuedAt : Option Timestamp) (attempt : Nat) (reply : PoolReply) : List Call :=
  let now := seconds (400 * attempt)
  sweep (leasedRow enqueuedAt attempt now) reply now

def connectionError : PoolReply := .raised "ConnectionError: " false

/-- The queue loses the job four times, takes it again each time, and fails once. -/
def lostFourTimes : List Call :=
  request .accepted ++ requestSweep (some 0) 1 .accepted ++ requestSweep (some 0) 2 .accepted ++
    requestSweep (some 0) 3 .accepted ++ requestSweep (some 0) 4 .accepted ++
    requestSweep (some 0) 5 connectionError

theorem exhausted_by_recoveries :
    ¬ ∀ calls : List Call, ∀ row ∈ (run performAudited {} calls).world.executions,
      row.terminalReason = some "enqueue_retry_exhausted" →
      maxDispatchEnqueueAttempts ≤ (run performAudited {} calls).raised row.id := by
  intro h
  have hrow : (leasedRow (some 0) 5 0).finish .failed "enqueue_retry_exhausted"
      (some "ConnectionError: ") (seconds 2000) ∈
        (run performAudited {} lostFourTimes).world.executions := by
    decide +kernel
  have hraised := h lostFourTimes _ hrow rfl
  have hcount : (run performAudited {} lostFourTimes).raised 3 = 1 := by decide +kernel
  exact absurd (hcount ▸ hraised) (by decide)

/-- The request and four sweeps fail. -/
def failedFiveTimes : List Call :=
  request connectionError ++ requestSweep none 2 connectionError ++
    requestSweep none 3 connectionError ++ requestSweep none 4 connectionError ++
    requestSweep none 5 connectionError

theorem exhausted_by_failures :
    ∃ row ∈ (run performAudited {} failedFiveTimes).world.executions,
      row.terminalReason = some "enqueue_retry_exhausted" ∧
      maxDispatchEnqueueAttempts ≤ (run performAudited {} failedFiveTimes).raised row.id := by
  have hmeets : Meets performAudited (fun audit call => call.spentOnFailures audit) {}
      failedFiveTimes := by
    decide +kernel
  have hrow : (leasedRow none 5 0).finish .failed "enqueue_retry_exhausted"
      (some "ConnectionError: ") (seconds 2000) ∈
        (run performAudited {} failedFiveTimes).world.executions := by
    decide +kernel
  exact ⟨_, hrow, rfl, run_exhausted_raised failedFiveTimes hmeets _ hrow rfl⟩

end Recovery

end Cygnus.Dispatch
