import Cygnus.Deletion.ProtocolLaws

/-! What a sweep takes up, and how often an intent is attempted. -/

namespace Cygnus.Deletion

open Wiki Dispatch Result Machine Sequence

section Selection

/-- The intents a sweep drives, oldest first. -/
def openDeletions (deletions : Table SourceDeletion) : List SourceDeletion :=
  sortedBy SourceDeletion.age (deletions.filter fun row =>
    row.status ≠ .completed && row.sourceId.isSome)

/-- The oldest due intents, up to the limit. -/
def firstDue (deletions : Table SourceDeletion) (limit : Nat) (now : Timestamp) :
    List SourceDeletion :=
  ((openDeletions deletions).filter (isRetryDue · now)).take limit

/-- The sweep takes up exactly the first due intents. -/
def ServesDue (world : World) (limit : Nat) (now : Timestamp) : Prop :=
  (step perform world (.sweep limit now)).scheduled =
    world.scheduled ++ (firstDue world.deletions limit now).map (·.id)

instance : Decidable (ServesDue world limit now) :=
  inferInstanceAs (Decidable (_ = _))

/-- No intent that backs off stands in front of a due one that the limit leaves out. -/
def Undisplaced (deletions : Table SourceDeletion) (limit : Nat) (now : Timestamp) : Prop :=
  (∀ row ∈ (openDeletions deletions).take limit, isRetryDue row now = true) ∨
    ∀ row ∈ (openDeletions deletions).drop limit, isRetryDue row now = false

instance : Decidable (Undisplaced deletions limit now) :=
  inferInstanceAs (Decidable (_ ∨ _))

variable {α : Type*} (p : α → Bool) (xs : List α) (n : Nat)

/-- A limit after the filter admits what the limit before it admits, and then the rest. -/
theorem take_filter :
    (xs.filter p).take n = (xs.take n).filter p ++
      ((xs.drop n).filter p).take (n - ((xs.take n).filter p).length) := by
  have hle : ((xs.take n).filter p).length ≤ n :=
    (List.length_filter_le _ _).trans (List.length_take_le n xs)
  calc (xs.filter p).take n
      = ((xs.take n).filter p ++ (xs.drop n).filter p).take n := by
        rw [← List.filter_append, List.take_append_drop]
    _ = _ := by rw [List.take_append, List.take_of_length_le hle]

theorem rest_eq_nil_iff :
    ((xs.drop n).filter p).take (n - ((xs.take n).filter p).length) = [] ↔
      (∀ x ∈ xs.take n, p x = true) ∨ ∀ x ∈ xs.drop n, p x = false := by
  have hle : ((xs.take n).filter p).length ≤ (xs.take n).length := List.length_filter_le _ _
  have hall : ((xs.take n).filter p).length = (xs.take n).length ↔
      ∀ x ∈ xs.take n, p x = true :=
    List.length_filter_eq_length_iff
  have hnone : (xs.drop n).filter p = [] ↔ ∀ x ∈ xs.drop n, p x = false := by
    simp only [List.filter_eq_nil_iff, Bool.not_eq_true]
  rw [List.take_eq_nil_iff, ← hall, ← hnone, List.length_take] at *
  constructor
  · rintro (hfull | hrest)
    · left
      omega
    · exact .inr hrest
  · rintro (hfull | hrest)
    · rcases Nat.le_total n xs.length with hlong | hshort
      · left
        omega
      · right
        rw [List.drop_eq_nil_of_le hshort, List.filter_nil]
    · exact .inr hrest

theorem servesDue_iff (world : World) (limit : Nat) (now : Timestamp) :
    ServesDue world limit now ↔ Undisplaced world.deletions limit now := by
  have hscheduled : (step perform world (.sweep limit now)).scheduled =
      world.scheduled ++ (dueDeletions world.deletions limit now).map (·.id) := by
    rcases Nat.eq_zero_or_pos limit with rfl | hpos
    · simp [step, perform, dueDeletions, require]
    · simp [step, perform, require, show 1 ≤ limit from hpos]
  have hfirst : firstDue world.deletions limit now = dueDeletions world.deletions limit now ++ _ :=
    take_filter (isRetryDue · now) (openDeletions world.deletions) limit
  rw [ServesDue, hscheduled, hfirst, List.map_append, List.append_cancel_left_eq,
    List.self_eq_append_right, List.map_eq_nil_iff, rest_eq_nil_iff]
  rfl

end Selection

section Attempts

def World.attempts (world : World) (rowId : Uuid) : Nat := world.history.count (.claimed rowId)

/-- The intent whose cleanup the action starts. -/
def attempted (world : World) : Action → Option SourceDeletion
  | .claim runId rowId _ => (world.deletions.get rowId).filter fun row =>
      rowId ∈ world.scheduled && row.status ≠ .completed && row.sourceId.isSome &&
        (world.runs.get runId).isNone
  | _ => none

/-- No intent has been attempted more often than the budget allows. -/
def WithinBudget (world : World) : Prop :=
  ∀ rowId, world.attempts rowId ≤ maxSourceDeletionAttempts

/-- The intent whose cleanup starts has attempts left. -/
def AttemptsLeft (world : World) (action : Action) : Prop :=
  ∀ row ∈ attempted world action, row.attemptCount < maxSourceDeletionAttempts

instance : Decidable (AttemptsLeft world action) :=
  inferInstanceAs (Decidable (∀ row ∈ attempted world action, _))

def attemptsOf (deletions : Table SourceDeletion) (rowId : Uuid) : Nat :=
  ((deletions.get rowId).map SourceDeletion.attemptCount).getD 0

/-- The intents that open requests will insert have not been attempted. -/
def PlansNew (world : World) : Prop :=
  ∀ request ∈ world.requests, ∀ planned, request.planned = some planned →
    ∀ row, planned.intent = .insert row → row.attemptCount = 0

/-- The counters tell how often their intents have been attempted. -/
structure Counted (world : World) : Prop where
  counter : ∀ rowId, attemptsOf world.deletions rowId = world.attempts rowId
  planned : PlansNew world

variable {world world' : World}

theorem attemptsOf_put (row : SourceDeletion) {old : SourceDeletion}
    {deletions : Table SourceDeletion} (hget : deletions.get row.id = some old) (rowId : Uuid) :
    attemptsOf (deletions.put row) rowId =
      if row.id = rowId then row.attemptCount else attemptsOf deletions rowId := by
  rw [attemptsOf, Table.get_put]
  by_cases hid : row.id = rowId
  · subst hid
    rw [if_pos rfl, if_pos (show Row.key row = row.id from rfl), hget]
    rfl
  · rw [if_neg hid, if_neg (show Row.key row ≠ rowId from hid)]
    rfl

/-- A write that keeps the counter of the row keeps all counters. -/
theorem attemptsOf_put_same {row old : SourceDeletion} {deletions : Table SourceDeletion}
    (hget : deletions.get row.id = some old) (hsame : row.attemptCount = old.attemptCount)
    (rowId : Uuid) : attemptsOf (deletions.put row) rowId = attemptsOf deletions rowId := by
  rw [attemptsOf_put row hget]
  split
  · rename_i hid
    rw [← hid, attemptsOf, hget, hsame]
    rfl
  · rfl

theorem attemptsOf_insert {taken : DeletionError} {row : SourceDeletion}
    {deletions deletions' : Table SourceDeletion}
    (hinsert : deletions.insert taken row = .ok deletions') (hnew : row.attemptCount = 0) (rowId : Uuid) :
    attemptsOf deletions' rowId = attemptsOf deletions rowId := by
  rw [attemptsOf, Table.get_insert hinsert]
  split
  · rename_i hid
    rw [attemptsOf, ← hid, (Table.insert_ok hinsert).1]
    exact hnew
  · rfl

theorem attemptsOf_unlinkSource (deletions : Table SourceDeletion) (sourceId rowId : Uuid) :
    attemptsOf (unlinkSource deletions sourceId) rowId = attemptsOf deletions rowId := by
  rw [attemptsOf, get_unlinkSource, Option.map_map, attemptsOf]
  congr 2
  funext row
  rw [Function.comp_apply]
  split <;> rfl

/-- A step that starts no attempt. -/
structure Unattempted (world world' : World) : Prop where
  history : ∀ rowId, world'.attempts rowId = world.attempts rowId
  counters : ∀ rowId, attemptsOf world'.deletions rowId = attemptsOf world.deletions rowId
  planned : PlansNew world → PlansNew world'

theorem PlansNew.mono (h : PlansNew world) (hrequests : world'.requests ⊆ world.requests) :
    PlansNew world' :=
  fun request hmem => h request (hrequests hmem)

theorem Unattempted.of_eq (hhistory : world'.history = world.history)
    (hdeletions : world'.deletions = world.deletions)
    (hrequests : world'.requests ⊆ world.requests) : Unattempted world world' where
  history rowId := by rw [World.attempts, hhistory, World.attempts]
  counters rowId := by rw [hdeletions]
  planned h := h.mono hrequests

theorem Unattempted.put {row old : SourceDeletion} (hhistory : world'.history = world.history)
    (hdeletions : world'.deletions = world.deletions.put row)
    (hget : world.deletions.get row.id = some old) (hsame : row.attemptCount = old.attemptCount)
    (hrequests : world'.requests ⊆ world.requests) : Unattempted world world' where
  history rowId := by rw [World.attempts, hhistory, World.attempts]
  counters rowId := by rw [hdeletions, attemptsOf_put_same hget hsame]
  planned h := h.mono hrequests

/-- What an open request will insert was made by `newDeletion`. -/
theorem requestSourceDeletion_planned {request request' : Request} {actorId : Option Uuid}
    {rowId : Uuid} {now : Timestamp}
    (hok : requestSourceDeletion world request actorId rowId now = .ok request')
    {planned : Planned} (hplanned : request'.planned = some planned) {row : SourceDeletion}
    (hintent : planned.intent = .insert row) : row.attemptCount = 0 := by
  simp only [requestSourceDeletion, bind_ok, pure_ok] at hok
  obtain ⟨_, _, _, _, intent, hread, rfl⟩ := hok
  obtain rfl := Option.some.inj hplanned
  obtain rfl : intent = .insert row := hintent
  unfold readIntent at hread
  split at hread
  · cases hread
    rfl
  · split at hread <;> cases hread
  · cases hread

theorem commitRequest_unattempted {request : Request} (hcounted : Counted world)
    (hmem : request ∈ world.requests) (hok : commitRequest world request = .ok world') :
    Unattempted world world' := by
  simp only [commitRequest, bind_ok, demand_ok, pure_ok] at hok
  obtain ⟨planned, hplanned, ⟨deletions, events⟩, hwrite, rfl⟩ := hok
  cases hintent : planned.intent with
  | insert row =>
    rw [hintent] at hwrite
    simp only [writeIntent, bind_ok, demand_ok, pure_ok, Prod.mk.injEq] at hwrite
    obtain ⟨sourceId, _, _, _, _, hinsert, rfl, rfl⟩ := hwrite
    have hnew := hcounted.planned request hmem planned hplanned row hintent
    exact ⟨fun rowId => by simp [World.attempts, List.count_append],
      attemptsOf_insert hinsert hnew, fun h => h.mono (List.filter_subset_self _)⟩
  | keep =>
    rw [hintent] at hwrite
    simp only [writeIntent, pure_ok, Prod.mk.injEq] at hwrite
    obtain ⟨rfl, rfl⟩ := hwrite
    exact .of_eq (List.append_nil _) rfl (List.filter_subset_self _)
  | retry read =>
    rw [hintent] at hwrite
    simp only [writeIntent, bind_ok, demand_ok, pure_ok, Prod.mk.injEq] at hwrite
    obtain ⟨committed, hget, rfl, rfl⟩ := hwrite
    have hid : (read.retried committed planned.now).id = read.id := Table.get_key hget
    rw [← hid] at hget
    exact .put (List.append_nil _) rfl hget rfl (List.filter_subset_self _)

theorem claimDeletion_cases {runId rowId : Uuid} {now : Timestamp}
    (hok : claimDeletion world runId rowId now = .ok world') :
    Unattempted world world' ∧ attempted world (.claim runId rowId now) = none ∨
      ∃ row, attempted world (.claim runId rowId now) = some row ∧
        world'.history = world.history ++ [.claimed row.id] ∧
        world'.deletions = world.deletions.put (row.claim now) ∧
        world'.requests = world.requests := by
  simp only [claimDeletion, bind_ok, require_ok] at hok
  obtain ⟨_, hscheduled, hok⟩ := hok
  split at hok
  · rename_i hnone
    rw [pure_ok] at hok
    subst hok
    refine .inl ⟨.of_eq rfl rfl (List.Subset.refl _), ?_⟩
    rw [attempted, hnone, Option.filter_none]
  · rename_i row hget
    split at hok
    · rename_i hcompleted
      rw [pure_ok] at hok
      subst hok
      refine .inl ⟨.of_eq rfl rfl (List.Subset.refl _), ?_⟩
      rw [attempted, hget, Option.filter_some_neg (by simp [hcompleted])]
    · rename_i hopen
      split at hok
      · rename_i hgone
        rw [pure_ok] at hok
        subst hok
        have hget' := hget
        rw [show rowId = (row.close now).id from (Table.get_key hget).symm] at hget'
        refine .inl ⟨.put rfl rfl hget' rfl (List.Subset.refl _), ?_⟩
        rw [attempted, hget, Option.filter_some_neg (by simp_all)]
      · rename_i hlinked
        simp only [bind_ok, pure_ok] at hok
        obtain ⟨runs, hruns, rfl⟩ := hok
        have hfree := (Table.insert_ok hruns).1
        have hid : row.id = rowId := Table.get_key hget
        refine .inr ⟨row, ?_, by rw [hid], rfl, rfl⟩
        have hsome : row.sourceId.isSome = true := by
          simpa [Option.isSome_iff_ne_none] using hlinked
        have hnone : world.runs.get runId = none := hfree
        rw [attempted, hget, Option.filter_some_pos]
        simp [hscheduled, hopen, hsome, hnone]

theorem recordFailure_unattempted (run : DeletionRun) (now : Timestamp)
    (error : SourceDeletion → String) :
    Unattempted world (recordFailure world run now error) := by
  unfold Deletion.recordFailure
  split
  · exact .of_eq rfl rfl (List.Subset.refl _)
  · rename_i row hget
    split
    · exact .of_eq rfl rfl (List.Subset.refl _)
    · rw [show run.rowId = (row.fail (error row) now).id from (Table.get_key hget).symm] at hget
      exact .put rfl rfl hget rfl (List.Subset.refl _)

theorem removeSource_unattempted {run : DeletionRun} {row : SourceDeletion} (source : Source)
    (reply : Option Raised) (now : Timestamp) (hget : world.deletions.get row.id = some row) :
    Unattempted world (removeSource world run row source reply now) := by
  cases reply with
  | some raised => exact .of_eq rfl rfl (List.Subset.refl _)
  | none =>
    have hunlinked : (unlinkSource world.deletions source.id).get (row.complete now).id =
        some (if row.sourceId = some source.id then { row with sourceId := none } else row) := by
      rw [get_unlinkSource, show (row.complete now).id = row.id from rfl, hget, Option.map_some]
    have hhistory (rowId : Uuid) : (removeSource world run row source none now).attempts rowId =
        world.attempts rowId := by
      simp [World.attempts, removeSource, World.finish, List.count_append]
    refine ⟨hhistory, fun rowId => ?_, fun h => h.mono (List.Subset.refl _)⟩
    calc attemptsOf ((unlinkSource world.deletions source.id).put (row.complete now)) rowId
        = attemptsOf (unlinkSource world.deletions source.id) rowId :=
          attemptsOf_put_same hunlinked (by split <;> rfl) rowId
      _ = attemptsOf world.deletions rowId := attemptsOf_unlinkSource _ _ _

theorem removeSourceRows_unattempted {run : DeletionRun} {reply : Option Raised} {now : Timestamp}
    (hok : removeSourceRows world run reply now = .ok world') : Unattempted world world' := by
  simp only [removeSourceRows, bind_ok, require_ok] at hok
  obtain ⟨_, _, hok⟩ := hok
  split at hok
  · rw [pure_ok] at hok
    subst hok
    exact .of_eq rfl rfl (List.Subset.refl _)
  · rename_i row hget
    rw [show run.rowId = row.id from (Table.get_key hget).symm] at hget
    split at hok
    · rw [pure_ok] at hok
      subst hok
      exact .of_eq rfl rfl (List.Subset.refl _)
    · split at hok
      · rw [pure_ok] at hok
        subst hok
        exact .put rfl rfl hget rfl (List.Subset.refl _)
      · simp only [bind_ok, require_ok] at hok
        obtain ⟨_, _, hok⟩ := hok
        split at hok
        · rw [pure_ok] at hok
          subst hok
          exact .put rfl rfl hget rfl (List.Subset.refl _)
        · rw [pure_ok] at hok
          subst hok
          exact removeSource_unattempted _ _ _ hget

/-- Only a claim starts an attempt. -/
theorem perform_unattempted {action : Action} (hcounted : Counted world)
    (hnone : attempted world action = none) (hok : perform action world = .ok world') :
    Unattempted world world' := by
  cases action with
  | load requestId sourceId =>
    simp only [perform, bind_ok, pure_ok] at hok
    obtain ⟨source, _, requests, hinsert, rfl⟩ := hok
    refine ⟨fun _ => rfl, fun _ => rfl, fun h request hmem planned hplanned => ?_⟩
    rw [(Table.insert_ok hinsert).2, List.mem_append, List.mem_singleton] at hmem
    rcases hmem with hmem | rfl
    · exact h request hmem planned hplanned
    · cases hplanned
  | request requestId actorId rowId now =>
    simp only [perform, bind_ok, pure_ok] at hok
    obtain ⟨read, _, request, hread, rfl⟩ := hok
    refine ⟨fun _ => rfl, fun _ => rfl, fun h other hmem planned hplanned row hintent => ?_⟩
    rcases Table.mem_put hmem with rfl | ⟨hmem, -⟩
    · exact requestSourceDeletion_planned hread hplanned hintent
    · exact h other hmem planned hplanned row hintent
  | commit requestId =>
    simp only [perform, bind_ok, demand_ok] at hok
    obtain ⟨request, hget, hcommit⟩ := hok
    exact commitRequest_unattempted hcounted (Table.get_mem hget) hcommit
  | abort requestId =>
    simp only [perform, pure_ok] at hok
    subst hok
    exact .of_eq rfl rfl (List.filter_subset_self _)
  | sweep limit now =>
    simp only [perform, bind_ok, pure_ok] at hok
    obtain ⟨_, _, rfl⟩ := hok
    exact .of_eq rfl rfl (List.Subset.refl _)
  | attempt rowId =>
    simp only [perform, pure_ok] at hok
    subst hok
    exact .of_eq rfl rfl (List.Subset.refl _)
  | claim runId rowId now =>
    rcases claimDeletion_cases hok with ⟨h, -⟩ | ⟨row, hsome, -⟩
    · exact h
    · rw [hnone] at hsome
      cases hsome
  | clean runId reply =>
    simp only [perform, bind_ok, cleanStorage] at hok
    obtain ⟨run, _, _, _, hok⟩ := hok
    cases reply with
    | some raised =>
      simp only [pure_ok] at hok
      subst hok
      exact .of_eq rfl rfl (List.Subset.refl _)
    | none =>
      simp only [pure_ok] at hok
      subst hok
      exact ⟨fun rowId => by simp [World.attempts, List.count_append], fun _ => rfl,
        fun h => h.mono (List.Subset.refl _)⟩
  | remove runId reply now =>
    simp only [perform, bind_ok, demand_ok] at hok
    obtain ⟨run, _, hremove⟩ := hok
    exact removeSourceRows_unattempted hremove
  | recordFailure runId now =>
    simp only [perform, bind_ok, recordRunFailure] at hok
    obtain ⟨run, _, hrecord⟩ := hok
    split at hrecord
    · rw [pure_ok] at hrecord
      exact hrecord ▸ recordFailure_unattempted _ _ _
    · rw [pure_ok] at hrecord
      exact hrecord ▸ recordFailure_unattempted _ _ _
    · simp at hrecord
  | crash runId =>
    simp only [perform, pure_ok] at hok
    subst hok
    exact .of_eq rfl rfl (List.Subset.refl _)


theorem attempted_get {action : Action} {row : SourceDeletion}
    (hsome : attempted world action = some row) : world.deletions.get row.id = some row := by
  cases action with
  | claim runId rowId now =>
    have hget := (Option.filter_eq_some_iff.mp hsome).1
    rwa [show row.id = rowId from Table.get_key hget]
  | _ => cases hsome

/-- A claim that starts an attempt counts it in both places. -/
theorem perform_attempted {action : Action} {row : SourceDeletion}
    (hsome : attempted world action = some row) (hok : perform action world = .ok world') :
    (∀ rowId, world'.attempts rowId = world.attempts rowId + if row.id = rowId then 1 else 0) ∧
      (∀ rowId, attemptsOf world'.deletions rowId =
        attemptsOf world.deletions rowId + if row.id = rowId then 1 else 0) ∧
      world'.requests = world.requests := by
  cases action with
  | claim runId rowId now =>
    have hget := attempted_get hsome
    rcases claimDeletion_cases hok with
      ⟨-, hnone⟩ | ⟨found, hfound, hhistory, hdeletions, hrequests⟩
    · rw [hnone] at hsome
      cases hsome
    · obtain rfl : found = row := Option.some.inj (hfound.symm.trans hsome)
      refine ⟨?_, ?_, hrequests⟩
      · intro other
        rw [World.attempts, hhistory, List.count_append, List.count_singleton, World.attempts]
        simp
      · intro other
        rw [hdeletions, attemptsOf_put (found.claim now) hget,
          show (found.claim now).id = found.id from rfl]
        by_cases hid : found.id = other
        · rw [if_pos hid, if_pos hid, ← hid, attemptsOf, hget]
          rfl
        · rw [if_neg hid, if_neg hid, Nat.add_zero]
  | _ => cases hsome

/-- What starts no attempt or is refused leaves the count alone. -/
theorem attempted_of_error {action : Action} {e : DeletionError}
    (herror : perform action world = .error e) : attempted world action = none := by
  cases action with
  | claim runId rowId now =>
    by_contra hne
    obtain ⟨row, hsome⟩ := Option.ne_none_iff_exists'.mp hne
    obtain ⟨hget, hopen⟩ := Option.filter_eq_some_iff.mp hsome
    simp only [Bool.and_eq_true, decide_eq_true_eq, Option.isNone_iff_eq_none] at hopen
    obtain ⟨⟨⟨hscheduled, hstatus⟩, hlinked⟩, hfree⟩ := hopen
    have hlinked' : row.sourceId ≠ none := Option.isSome_iff_ne_none.mp hlinked
    have hinsert : world.runs.insert DeletionError.sessionInUse
        { id := runId, rowId := rowId, storagePrefix := row.storagePrefix } = .ok (world.runs ++
          [{ id := runId, rowId := rowId, storagePrefix := row.storagePrefix }]) := by
      rw [Table.insert, show world.runs.get (Row.key _) = none from hfree]
      rfl
    simp [perform, claimDeletion, require, ok_bind, hscheduled, hget, hstatus, hlinked',
      hinsert] at herror
  | _ => rfl

/-- The counters stay right whatever is done. -/
theorem counted_preserves : Preserves perform (fun _ _ => True) Counted := by
  intro world world' action hcounted _ hok
  cases hattempt : attempted world action with
  | none =>
    have h := perform_unattempted hcounted hattempt hok
    refine ⟨fun rowId => ?_, h.planned hcounted.planned⟩
    rw [h.counters, h.history]
    exact hcounted.counter rowId
  | some row =>
    obtain ⟨hhistory, hcounters, hrequests⟩ := perform_attempted hattempt hok
    refine ⟨fun rowId => ?_, hcounted.planned.mono (hrequests ▸ List.Subset.refl _)⟩
    rw [hcounters, hhistory, hcounted.counter]

/-- One action keeps the budget exactly when the attempt it starts, if any, is left. -/
theorem withinBudget_step (hcounted : Counted world) (hbudget : WithinBudget world)
    (action : Action) :
    WithinBudget (step perform world action) ↔ AttemptsLeft world action := by
  cases hok : perform action world with
  | error e =>
    have hnone := attempted_of_error hok
    simp only [step, hok, AttemptsLeft, hnone]
    exact ⟨fun _ _ h => (by cases h), fun _ => hbudget⟩
  | ok world' =>
    simp only [step, hok]
    cases hattempt : attempted world action with
    | none =>
      have h := perform_unattempted hcounted hattempt hok
      constructor
      · intro _ row hsome
        rw [hattempt] at hsome
        cases hsome
      · intro _ rowId
        rw [h.history]
        exact hbudget rowId
    | some row =>
      obtain ⟨hhistory, -, -⟩ := perform_attempted hattempt hok
      have hcounter : row.attemptCount = world.attempts row.id := by
        rw [← hcounted.counter, attemptsOf, attempted_get hattempt]
        rfl
      constructor
      · intro hkept found hfound
        obtain rfl : found = row := Option.some.inj (hfound.symm.trans hattempt)
        have hlast := hkept found.id
        rw [hhistory, if_pos rfl] at hlast
        omega
      · intro hleft rowId
        have hfree := hleft row hattempt
        have hrow := hbudget rowId
        rw [hhistory]
        split
        · rename_i hid
          rw [← hid]
          omega
        · omega

/-- A run stays within the budget exactly when every attempt it starts is left. -/
theorem withinBudget_iff (hcounted : Counted world) (hbudget : WithinBudget world)
    (actions : List Action) :
    Meets perform (fun world action => WithinBudget (step perform world action)) world actions ↔
      Meets perform AttemptsLeft world actions := by
  induction actions generalizing world with
  | nil => exact Iff.rfl
  | cons action actions ih =>
    have hstep := withinBudget_step hcounted hbudget action
    constructor
    · rintro ⟨hkept, hrest⟩
      exact ⟨hstep.mp hkept, (ih (counted_preserves.step hcounted trivial) hkept).mp hrest⟩
    · rintro ⟨hleft, hrest⟩
      have hkept := hstep.mpr hleft
      exact ⟨hkept, (ih (counted_preserves.step hcounted trivial) hkept).mpr hrest⟩

end Attempts

/-- A sweep limits before it asks what is due, and the budget of an intent is never checked: the
first due intents are served unless backed-off ones stand in front, and the budget is kept as long
as no attempt starts on an intent that has used it up. -/
theorem sweeps_serve_due (world : World) :
    (∀ limit now, ServesDue world limit now ↔ Undisplaced world.deletions limit now) ∧
      (Counted world → WithinBudget world → ∀ actions,
        (Meets perform (fun world action => WithinBudget (step perform world action)) world
          actions ↔ Meets perform AttemptsLeft world actions)) :=
  ⟨servesDue_iff world, withinBudget_iff⟩

section Scenario

def requestedWorld : World :=
  { sources := [{ id := 7, status := "awaiting_approval" }],
    deletions := [newDeletion 20 7 none 0], history := [.intended 7] }

theorem requestedWorld_counted : Counted requestedWorld where
  counter rowId := by
    by_cases hid : 20 = rowId
    · subst hid
      decide
    · have hget : requestedWorld.deletions.get rowId = none :=
        Table.get_eq_none.mpr fun row hmem => by
          obtain rfl := List.mem_singleton.mp hmem
          exact hid
      rw [attemptsOf, hget]
      rfl
  planned := fun request hmem => nomatch hmem

theorem requested_deletion_served :
    ServesDue requestedWorld 25 1 ∧
      Meets perform (fun world action => WithinBudget (step perform world action)) requestedWorld
        [.sweep 25 1, .claim 30 20 1, .clean 30 none, .remove 30 none 2] :=
  ⟨((sweeps_serve_due requestedWorld).1 25 1).mpr (by decide +kernel),
    ((sweeps_serve_due requestedWorld).2 requestedWorld_counted
      (fun _ => by simp [World.attempts, requestedWorld]) _).mpr (by decide +kernel)⟩

def exhaustedDeletion : SourceDeletion :=
  { newDeletion 20 7 none 0 with
    status := .failed, attemptCount := 10, updatedAt := seconds 100 }

/-- An intent that has failed ten times stands in front of a newer one. -/
def backlog : World :=
  { sources := [{ id := 7, status := "ready" }, { id := 8, status := "ready" }],
    deletions := [exhaustedDeletion, newDeletion 21 8 none 1],
    history := List.replicate 10 (.claimed 20) }

/-- While the old intent backs off the newer one is not served, and then the old one is attempted
an eleventh time. -/
theorem backlog_not_served :
    ¬ ServesDue backlog 1 (seconds 101) ∧
      ¬ Meets perform (fun world action => WithinBudget (step perform world action)) backlog
        [.sweep 1 (seconds 300), .claim 30 20 (seconds 300)] := by
  constructor
  · decide +kernel
  · rintro ⟨-, hbudget, -⟩
    have hlast := hbudget 20
    revert hlast
    decide +kernel

end Scenario

end Cygnus.Deletion
