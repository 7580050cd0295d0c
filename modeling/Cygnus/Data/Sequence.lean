import Mathlib.Data.List.Forall2
import Mathlib.Data.List.Lex
import Mathlib.Data.List.Sort

/-! Sequence helpers of the Python library: `sorted` with a key, `itertools.combinations` of two,
and `dict.fromkeys`. -/

namespace Cygnus.Sequence

variable {α κ : Type*}

/-- Stable sorting by a key. -/
def sortedBy [LinearOrder κ] (key : α → κ) (xs : List α) : List α :=
  xs.insertionSort fun a b => key a ≤ key b

theorem perm_sortedBy [LinearOrder κ] (key : α → κ) (xs : List α) : (sortedBy key xs).Perm xs :=
  List.perm_insertionSort _ xs

@[simp] theorem mem_sortedBy [LinearOrder κ] {key : α → κ} {xs : List α} {x : α} :
    x ∈ sortedBy key xs ↔ x ∈ xs :=
  (perm_sortedBy key xs).mem_iff

@[simp] theorem length_sortedBy [LinearOrder κ] (key : α → κ) (xs : List α) :
    (sortedBy key xs).length = xs.length :=
  List.length_insertionSort _ xs

/-- Sorting entries by key commutes with a change of their values. -/
theorem sortedBy_fst_map {β γ : Type*} [LinearOrder κ] (f : κ × β → γ) (xs : List (κ × β)) :
    sortedBy Prod.fst (xs.map fun e => (e.1, f e)) =
      (sortedBy Prod.fst xs).map fun e => (e.1, f e) := by
  symm
  apply List.map_insertionSort
  intro a _ b _
  exact Iff.rfl

/-- Lists that agree on their keys entry by entry are sorted alike. -/
theorem forall₂_sortedBy {β : Type*} [LinearOrder κ] {R : α → β → Prop} {key : α → κ}
    {key' : β → κ} (hkey : ∀ x y, R x y → key x = key' y) {xs : List α} {ys : List β}
    (h : List.Forall₂ R xs ys) : List.Forall₂ R (sortedBy key xs) (sortedBy key' ys) := by
  have hinsert : ∀ {x y xs ys}, R x y → List.Forall₂ R xs ys →
      List.Forall₂ R (xs.orderedInsert (fun a b => key a ≤ key b) x)
        (ys.orderedInsert (fun a b => key' a ≤ key' b) y) := by
    intro x y xs ys hxy hxys
    induction hxys with
    | nil => exact .cons hxy .nil
    | @cons x' y' xs ys hhead htail ih =>
      simp only [List.orderedInsert, hkey x y hxy, hkey x' y' hhead]
      split
      · exact .cons hxy (.cons hhead htail)
      · exact .cons hhead ih
  induction h with
  | nil => exact .nil
  | cons hxy _ ih => exact hinsert hxy ih

theorem pairwise_sortedBy [LinearOrder κ] (key : α → κ) (xs : List α) :
    (sortedBy key xs).Pairwise fun a b => key a ≤ key b := by
  have : Std.Total fun a b : α => key a ≤ key b := ⟨fun a b => le_total (key a) (key b)⟩
  have : IsTrans α fun a b : α => key a ≤ key b := ⟨fun _ _ _ => le_trans⟩
  exact List.pairwise_insertionSort _ xs

theorem sortedBy_of_pairwise [LinearOrder κ] {key : α → κ} {xs : List α}
    (h : xs.Pairwise fun a b => key a ≤ key b) : sortedBy key xs = xs :=
  h.insertionSort_eq

@[simp] theorem sortedBy_sortedBy [LinearOrder κ] (key : α → κ) (xs : List α) :
    sortedBy key (sortedBy key xs) = sortedBy key xs :=
  sortedBy_of_pairwise (pairwise_sortedBy key xs)

/-- Sorting keeps a selection in its place. -/
theorem sortedBy_filter [LinearOrder κ] (key : α → κ) (p : α → Bool) (xs : List α) :
    sortedBy key (xs.filter p) = (sortedBy key xs).filter p := by
  have hinsert : ∀ (x : α) {ys : List α}, ys.Pairwise (fun a b => key a ≤ key b) →
      (ys.orderedInsert (fun a b => key a ≤ key b) x).filter p =
        if p x then (ys.filter p).orderedInsert (fun a b => key a ≤ key b) x
        else ys.filter p := by
    intro x ys hys
    induction hys with
    | nil => cases hx : p x <;> simp [hx]
    | @cons y ys hy _ ih =>
      rw [List.orderedInsert_cons]
      split
      · rename_i hxy
        have hhead : ∀ z ∈ (y :: ys).filter p, key x ≤ key z := by
          intro z hz
          rcases List.mem_cons.mp (List.mem_of_mem_filter hz) with rfl | hz
          · exact hxy
          · exact hxy.trans (hy z hz)
        cases hx : p x with
        | false => simp [List.filter_cons, hx]
        | true =>
          rw [List.filter_cons_of_pos hx, if_pos rfl]
          cases hfiltered : (y :: ys).filter p with
          | nil => rfl
          | cons z zs =>
            rw [hfiltered] at hhead
            rw [List.orderedInsert_cons, if_pos (hhead z List.mem_cons_self)]
      · rename_i hxy
        cases hpy : p y with
        | false => simp only [List.filter_cons, hpy, Bool.false_eq_true, if_false, ih]
        | true =>
          simp only [List.filter_cons, hpy, if_true, ih]
          split
          · rw [List.orderedInsert_cons, if_neg hxy]
          · rfl
  induction xs with
  | nil => rfl
  | cons x xs ih =>
    have hsplit := hinsert x (pairwise_sortedBy key xs)
    rw [← ih] at hsplit
    calc sortedBy key ((x :: xs).filter p)
        = if p x then (sortedBy key (xs.filter p)).orderedInsert (fun a b => key a ≤ key b) x
          else sortedBy key (xs.filter p) := by
          rw [List.filter_cons]
          split <;> rfl
      _ = (sortedBy key (x :: xs)).filter p := hsplit.symm

/-- With distinct keys the order before sorting does not matter. -/
theorem sortedBy_perm [LinearOrder κ] {key : α → κ} {xs ys : List α} (hperm : xs.Perm ys)
    (hkeys : (xs.map key).Nodup) : sortedBy key xs = sortedBy key ys := by
  have : Std.Total fun a b : α => key a ≤ key b := ⟨fun a b => le_total (key a) (key b)⟩
  have : IsTrans α fun a b : α => key a ≤ key b := ⟨fun _ _ _ => le_trans⟩
  have hsorted := List.pairwise_insertionSort (fun a b : α => key a ≤ key b)
  refine List.Perm.eq_of_pairwise ?_ (hsorted xs) (hsorted ys)
    ((perm_sortedBy key xs).trans (hperm.trans (perm_sortedBy key ys).symm))
  intro a b ha hb hab hba
  have hb' : b ∈ xs := hperm.mem_iff.mpr (mem_sortedBy.mp hb)
  exact List.inj_on_of_nodup_map hkeys (mem_sortedBy.mp ha) hb' (le_antisymm hab hba)

def combinations : List α → List (α × α)
  | [] => []
  | x :: xs => xs.map (x, ·) ++ combinations xs

theorem mem_of_mem_combinations {xs : List α} {p : α × α} (h : p ∈ combinations xs) :
    p.1 ∈ xs ∧ p.2 ∈ xs := by
  induction xs with
  | nil => cases h
  | cons x xs ih =>
    rw [combinations, List.mem_append, List.mem_map] at h
    rcases h with ⟨y, hy, rfl⟩ | h
    · exact ⟨List.mem_cons_self, List.mem_cons_of_mem _ hy⟩
    · exact ⟨List.mem_cons_of_mem _ (ih h).1, List.mem_cons_of_mem _ (ih h).2⟩

/-- Two different members come up as a pair, in one of the two orders. -/
theorem mem_combinations {xs : List α} {x y : α} (hx : x ∈ xs) (hy : y ∈ xs) (hne : x ≠ y) :
    (x, y) ∈ combinations xs ∨ (y, x) ∈ combinations xs := by
  induction xs with
  | nil => cases hx
  | cons z xs ih =>
    simp only [combinations, List.mem_append, List.mem_map, Prod.mk.injEq]
    rcases List.mem_cons.mp hx with rfl | hx'
    · rcases List.mem_cons.mp hy with rfl | hy'
      · exact absurd rfl hne
      · exact .inl (.inl ⟨y, hy', rfl, rfl⟩)
    · rcases List.mem_cons.mp hy with rfl | hy'
      · exact .inr (.inl ⟨x, hx', rfl, rfl⟩)
      · exact (ih hx' hy').imp .inr .inr

theorem forall₂_imp_of_mem {β : Type*} {R S : α → β → Prop} {xs : List α} {ys : List β}
    (h : List.Forall₂ R xs ys) (himp : ∀ x ∈ xs, ∀ y ∈ ys, R x y → S x y) :
    List.Forall₂ S xs ys := by
  induction h with
  | nil => exact .nil
  | cons hxy _ ih =>
    refine .cons (himp _ List.mem_cons_self _ List.mem_cons_self hxy) (ih ?_)
    intro x hx y hy
    exact himp x (List.mem_cons_of_mem _ hx) y (List.mem_cons_of_mem _ hy)

theorem exists_mem_of_forall₂ {β : Type*} {R : α → β → Prop} {xs : List α} {ys : List β}
    (h : List.Forall₂ R xs ys) {y : β} (hy : y ∈ ys) : ∃ x ∈ xs, R x y := by
  induction h with
  | nil => cases hy
  | cons hxy _ ih =>
    rcases List.mem_cons.mp hy with rfl | hlater
    · exact ⟨_, List.mem_cons_self, hxy⟩
    · obtain ⟨x, hx, hrel⟩ := ih hlater
      exact ⟨x, List.mem_cons_of_mem _ hx, hrel⟩

/-- Entries agree when their keys do and their values do. -/
theorem forall₂_entries {β γ : Type*} {R : α → β → Prop} {xs : List (γ × α)} {ys : List (γ × β)}
    (hkeys : xs.map Prod.fst = ys.map Prod.fst)
    (hvalues : List.Forall₂ R (xs.map Prod.snd) (ys.map Prod.snd)) :
    List.Forall₂ (fun x y => x.1 = y.1 ∧ R x.2 y.2) xs ys := by
  induction xs generalizing ys with
  | nil =>
    cases ys with
    | nil => exact .nil
    | cons y ys => cases hkeys
  | cons x xs ih =>
    cases ys with
    | nil => cases hkeys
    | cons y ys =>
      simp only [List.map_cons, List.cons.injEq] at hkeys
      cases hvalues with
      | cons hhead htail => exact .cons ⟨hkeys.1, hhead⟩ (ih hkeys.2 htail)

theorem nodup_eraseDups [BEq α] [LawfulBEq α] (xs : List α) : xs.eraseDups.Nodup := by
  induction hn : xs.length using Nat.strongRecOn generalizing xs with
  | ind n ih =>
    cases xs with
    | nil => simp
    | cons x xs =>
      rw [List.eraseDups_cons, List.nodup_cons]
      refine ⟨by simp [List.mem_eraseDups], ih _ ?_ _ rfl⟩
      subst hn
      exact Nat.lt_succ_of_le (List.length_filter_le _ _)

theorem eraseDups_of_nodup [DecidableEq α] {xs : List α} (h : xs.Nodup) : xs.eraseDups = xs := by
  induction xs with
  | nil => rfl
  | cons x xs ih =>
    rw [List.nodup_cons] at h
    rw [List.eraseDups_cons, List.filter_eq_self.mpr, ih h.2]
    intro y hy
    simpa using fun heq : y = x => h.1 (heq ▸ hy)

/-- What the last entry tells of those that tell something. -/
def latest {τ : Type*} (tells : α → Option τ) (log : List α) : Option τ :=
  (log.filterMap tells).getLast?

theorem latest_append {τ : Type*} (tells : α → Option τ) (log : List α) (entry : α) :
    latest tells (log ++ [entry]) = (tells entry).or (latest tells log) := by
  rw [latest, latest, List.filterMap_append]
  cases h : tells entry with
  | none => simp [h]
  | some told => simp [h]

/-- What is true at every place of a list stays true when an entry is added behind that satisfies
it. -/
theorem forall_split_append {P : List α → α → Prop} {log : List α} {entry : α}
    (h : ∀ before other after, log = before ++ other :: after → P before other)
    (hnew : P log entry) :
    ∀ before other after, log ++ [entry] = before ++ other :: after → P before other := by
  intro before other after heq
  rcases List.eq_nil_or_concat after with rfl | ⟨after, last, rfl⟩
  · obtain ⟨rfl, hentry⟩ := List.append_inj' heq rfl
    rw [← (List.cons.inj hentry).1]
    exact hnew
  · have hsplit : log ++ [entry] = (before ++ other :: after) ++ [last] := by
      rw [heq]
      simp
    exact h before other after (List.append_inj' hsplit rfl).1

end Cygnus.Sequence
