import Mathlib.Data.List.Basic
import Mathlib.Data.List.Count

/-! A queue that is looked after from its head, a bounded number of places in a round. What is stuck
stays in its place, some items leave, and the round serves when it meets a ready one. -/

namespace Cygnus.HeadOfLine

inductive Kind
  | stuck
  | leaving
  | ready
  deriving DecidableEq

/-- The queue after a round that serves nothing. -/
def round (limit : Nat) (queue : List Kind) : Option (List Kind) :=
  if .ready ∈ queue.take limit then none
  else some ((queue.take limit).filter (· = .stuck) ++ queue.drop limit)

/-- One of the next rounds serves. -/
def Serves (limit : Nat) : Nat → List Kind → Prop
  | 0, _ => False
  | rounds + 1, queue => ∀ rest, round limit queue = some rest → Serves limit rounds rest

/-- What stands before the first ready item. -/
def ahead (queue : List Kind) : List Kind := queue.takeWhile (· ≠ .ready)

section Laws

variable {limit : Nat} {front rest : List Kind}

theorem exists_ahead {queue : List Kind} (h : .ready ∈ queue) :
    ∃ rest, queue = ahead queue ++ .ready :: rest := by
  induction queue with
  | nil => cases h
  | cons kind queue ih =>
    by_cases hkind : kind = .ready
    · exact ⟨queue, by simp [ahead, hkind]⟩
    · obtain ⟨rest, hrest⟩ := ih ((List.mem_cons.mp h).resolve_left (Ne.symm hkind))
      refine ⟨rest, ?_⟩
      rw [ahead, List.takeWhile_cons_of_pos (by simpa using hkind), List.cons_append]
      exact congrArg _ hrest

theorem ready_not_mem_ahead (queue : List Kind) : .ready ∉ ahead queue := by
  intro h
  have hall := List.all_takeWhile (p := fun kind : Kind => decide (kind ≠ .ready)) (l := queue)
  simpa using List.all_eq_true.mp hall .ready h

theorem round_of_lt (h : front.length < limit) : round limit (front ++ .ready :: rest) = none := by
  rw [round, if_pos]
  rw [List.take_append, List.take_of_length_le (Nat.le_of_lt h), List.mem_append]
  right
  rw [List.take_cons (Nat.sub_pos_of_lt h)]
  exact List.mem_cons_self

/-- What a round leaves of the places it looks at. -/
def left (limit : Nat) (front : List Kind) : List Kind :=
  (front.take limit).filter (· = .stuck) ++ front.drop limit

theorem round_of_le (hready : .ready ∉ front) (h : limit ≤ front.length) :
    round limit (front ++ .ready :: rest) = some (left limit front ++ .ready :: rest) := by
  have htake : (front ++ .ready :: rest).take limit = front.take limit :=
    List.take_append_of_le_length h
  have hnone : .ready ∉ front.take limit := fun hmem => hready (List.mem_of_mem_take hmem)
  rw [round, htake, if_neg hnone, List.drop_append_of_le_length h, left, List.append_assoc]

theorem ready_not_mem_left (h : .ready ∉ front) : .ready ∉ left limit front := by
  rw [left, List.mem_append, not_or]
  constructor
  · intro hmem
    cases of_decide_eq_true (List.mem_filter.mp hmem).2
  · exact fun hmem => h (List.mem_of_mem_drop hmem)

theorem length_filter_stuck (kinds : List Kind) :
    (kinds.filter (· = .stuck)).length = kinds.count .stuck := by
  rw [List.count, List.countP_eq_length_filter]
  rfl

/-- No stuck item leaves. -/
theorem count_left (front : List Kind) : (left limit front).count .stuck = front.count .stuck := by
  calc (left limit front).count .stuck
      = (front.take limit).count .stuck + (front.drop limit).count .stuck := by
        rw [left, List.count_append, List.count_filter (by rfl)]
    _ = front.count .stuck := by rw [← List.count_append, List.take_append_drop]

/-- Where fewer are stuck than a round looks at, some leave. -/
theorem length_left_lt (hstuck : front.count .stuck < limit) (h : limit ≤ front.length) :
    (left limit front).length < front.length := by
  have hle : (front.take limit).count .stuck ≤ front.count .stuck :=
    (List.take_sublist limit front).count_le _
  rw [left, List.length_append, length_filter_stuck, List.length_drop]
  omega

theorem serves_of_lt (rounds : Nat) (hready : .ready ∉ front) (hstuck : front.count .stuck < limit)
    (hlength : front.length < rounds) : Serves limit rounds (front ++ .ready :: rest) := by
  induction rounds generalizing front with
  | zero => cases hlength
  | succ rounds ih =>
    intro next hnext
    rcases Nat.lt_or_ge front.length limit with hshort | hlong
    · rw [round_of_lt hshort] at hnext
      cases hnext
    · rw [round_of_le hready hlong] at hnext
      cases hnext
      have hless := length_left_lt hstuck hlong
      exact ih (ready_not_mem_left hready) (by rwa [count_left]) (by omega)

theorem not_serves_of_le (rounds : Nat) (hready : .ready ∉ front)
    (hstuck : limit ≤ front.count .stuck) : ¬ Serves limit rounds (front ++ .ready :: rest) := by
  induction rounds generalizing front with
  | zero => exact id
  | succ rounds ih =>
    intro hserves
    have hlong : limit ≤ front.length := Nat.le_trans hstuck List.count_le_length
    exact ih (ready_not_mem_left hready) (by rwa [count_left])
      (hserves _ (round_of_le hready hlong))

/-- As many rounds as there are places serve exactly where fewer items than a round looks at are
stuck before the first ready one; more rounds serve no better. -/
theorem serves_iff {rounds : Nat} {queue : List Kind} (hready : .ready ∈ queue)
    (hrounds : queue.length ≤ rounds) :
    Serves limit rounds queue ↔ (ahead queue).count .stuck < limit := by
  obtain ⟨rest, hqueue⟩ := exists_ahead hready
  have hfront := ready_not_mem_ahead queue
  constructor
  · intro hserves
    by_contra hstuck
    rw [hqueue] at hserves
    exact not_serves_of_le rounds hfront (Nat.le_of_not_lt hstuck) hserves
  · intro hstuck
    have hlength : (ahead queue).length < rounds := by
      have htotal := congrArg List.length hqueue
      rw [List.length_append, List.length_cons] at htotal
      omega
    rw [hqueue]
    exact serves_of_lt rounds hfront hstuck hlength

end Laws

end Cygnus.HeadOfLine
