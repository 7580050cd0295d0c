import Mathlib.Algebra.Order.Ring.Int
import Mathlib.Data.List.Chain

/-! Packing a list into runs of bounded size, each filled as far as it goes before the next one is
begun. -/

namespace Cygnus.Packing

variable {α : Type*} (size : α → Nat) (budget : Int)

def total (xs : List α) : Nat := (xs.map size).sum

@[simp] theorem total_nil : total size [] = 0 := rfl

@[simp] theorem total_cons (x : α) (xs : List α) : total size (x :: xs) = size x + total size xs :=
  List.sum_cons

@[simp] theorem total_append (xs ys : List α) :
    total size (xs ++ ys) = total size xs + total size ys := by
  simp [total]

@[simp] theorem total_singleton (x : α) : total size [x] = size x := by simp [total]

theorem total_perm {xs ys : List α} (h : xs.Perm ys) : total size xs = total size ys :=
  (h.map size).sum_nat

/-- The runs for what is left, given the run that is being filled and its size. -/
def packFrom (current : List α) (used : Nat) : List α → List (List α)
  | [] => if current = [] then [] else [current]
  | x :: rest =>
    if current ≠ [] ∧ budget < (used + size x : Nat) then current :: packFrom [x] (size x) rest
    else packFrom (current ++ [x]) (used + size x) rest

def pack (xs : List α) : List (List α) := packFrom size budget [] 0 xs

variable {size budget}

theorem packFrom_flatten (current : List α) (used : Nat) (xs : List α) :
    (packFrom size budget current used xs).flatten = current ++ xs := by
  induction xs generalizing current used with
  | nil =>
    unfold packFrom
    split
    · rename_i h
      simp [h]
    · simp
  | cons x rest ih =>
    unfold packFrom
    split
    · rw [List.flatten_cons, ih, List.singleton_append]
    · rw [ih, List.append_assoc, List.singleton_append]

theorem packFrom_ne_nil {current : List α} {used : Nat} {xs run : List α}
    (h : run ∈ packFrom size budget current used xs) : run ≠ [] := by
  induction xs generalizing current used with
  | nil =>
    unfold packFrom at h
    split at h
    · cases h
    · rename_i hne
      rwa [List.mem_singleton.mp h]
  | cons x rest ih =>
    unfold packFrom at h
    split at h
    · rename_i hfull
      rcases List.mem_cons.mp h with rfl | hlater
      · exact hfull.1
      · exact ih hlater
    · exact ih h

/-- A run of more than one element fits. -/
def Fits (size : α → Nat) (budget : Int) (run : List α) : Prop :=
  1 < run.length → (total size run : Int) ≤ budget

theorem packFrom_fits {current : List α} {used : Nat} {xs run : List α}
    (hused : used = total size current) (hcurrent : Fits size budget current)
    (h : run ∈ packFrom size budget current used xs) : Fits size budget run := by
  have hone : ∀ x : α, Fits size budget [x] := by
    intro x hlength
    exact absurd hlength (Nat.lt_irrefl 1)
  induction xs generalizing current used with
  | nil =>
    unfold packFrom at h
    split at h
    · cases h
    · rwa [List.mem_singleton.mp h]
  | cons x rest ih =>
    unfold packFrom at h
    split at h
    · rcases List.mem_cons.mp h with rfl | hlater
      · exact hcurrent
      · exact ih (total_singleton size x).symm (hone x) hlater
    · rename_i hroom
      refine ih (by rw [hused, total_append, total_singleton]) ?_ h
      intro hlength
      rw [total_append, total_singleton, ← hused]
      by_cases hempty : current = []
      · subst hempty
        exact absurd hlength (Nat.lt_irrefl 1)
      · exact Int.not_lt.mp fun hover => hroom ⟨hempty, hover⟩

/-- The first element of the next run would not have fitted into this one. -/
def Full (size : α → Nat) (budget : Int) (run next : List α) : Prop :=
  ∀ x ∈ next.head?, budget < (total size run + size x : Nat)

theorem packFrom_head {current : List α} {used : Nat} {xs : List α} {x : α}
    (h : current.head? = some x) :
    ∃ run rest, packFrom size budget current used xs = run :: rest ∧ run.head? = some x := by
  have hne : current ≠ [] := by
    rintro rfl
    cases h
  induction xs generalizing current used with
  | nil =>
    unfold packFrom
    rw [if_neg hne]
    exact ⟨current, [], rfl, h⟩
  | cons y rest ih =>
    unfold packFrom
    split
    · exact ⟨current, _, rfl, h⟩
    · refine ih ?_ (by simp)
      rw [List.head?_append, h]
      rfl

theorem packFrom_full {current : List α} {used : Nat} (xs : List α)
    (hused : used = total size current) :
    (packFrom size budget current used xs).IsChain (Full size budget) := by
  induction xs generalizing current used with
  | nil =>
    unfold packFrom
    split
    · exact .nil
    · exact .singleton _
  | cons x rest ih =>
    unfold packFrom
    split
    · rename_i hover
      obtain ⟨run, later, hnext, hhead⟩ :
          ∃ run later, packFrom size budget [x] (size x) rest = run :: later ∧ run.head? = some x :=
        packFrom_head rfl
      have htail := ih (total_singleton size x).symm
      rw [hnext] at htail ⊢
      refine List.IsChain.cons_cons ?_ htail
      intro y hy
      rw [hhead] at hy
      obtain rfl := Option.some.inj hy
      rw [← hused]
      exact hover.2
    · exact ih (by rw [hused, total_append, total_singleton])

theorem pack_flatten (xs : List α) : (pack size budget xs).flatten = xs := packFrom_flatten [] 0 xs

theorem pack_ne_nil {xs run : List α} (h : run ∈ pack size budget xs) : run ≠ [] :=
  packFrom_ne_nil h

theorem pack_fits {xs run : List α} (h : run ∈ pack size budget xs) : Fits size budget run := by
  refine packFrom_fits (total_nil size).symm ?_ h
  intro hlength
  exact absurd hlength (Nat.not_lt_zero 1)

theorem pack_full (xs : List α) : (pack size budget xs).IsChain (Full size budget) :=
  packFrom_full xs (total_nil size).symm

end Cygnus.Packing
