import Cygnus.Data.Dict
import Mathlib.Logic.Relation

/-! Unions of classes by links between their roots, without ranks and without path compression. -/

namespace Cygnus.UnionFind

variable {ι : Type*} [DecidableEq ι]

/-- Each element that is no root, with what it was linked to. -/
abbrev Parents (ι : Type*) := Dict ι ι

/-- Follow at most `fuel` links; none if that does not lead to a root. -/
def walk (parents : Parents ι) : Nat → ι → Option ι
  | fuel, i =>
    match parents.lookup i with
    | none => some i
    | some parent =>
      match fuel with
      | 0 => none
      | fuel + 1 => walk parents fuel parent

/-- The root of an element. A walk that takes more steps than there are links never ends. -/
def rootOf (parents : Parents ι) (i : ι) : Option ι := walk parents parents.length i

/-- Join the classes of a pair: `prefer` says which of the roots remains one. -/
def union (prefer : ι → ι → Bool) (parents : Parents ι) (pair : ι × ι) : Option (Parents ι) := do
  let ri ← rootOf parents pair.1
  let rj ← rootOf parents pair.2
  if ri = rj then return parents
  else if prefer ri rj then return Dict.set rj ri parents
  else return Dict.set ri rj parents

section Walks

variable {parents : Parents ι} {i r ri rj : ι}

theorem walk_root (fuel : Nat) (h : parents.lookup i = none) : walk parents fuel i = some i := by
  unfold walk
  rw [h]

theorem walk_link {parent : ι} (fuel : Nat) (h : parents.lookup i = some parent) :
    walk parents (fuel + 1) i = walk parents fuel parent := by
  rw [walk, h]

/-- A walk ends in a root. -/
theorem lookup_of_walk {fuel : Nat} (h : walk parents fuel i = some r) :
    parents.lookup r = none := by
  induction fuel generalizing i with
  | zero =>
    cases hlookup : parents.lookup i with
    | none =>
      rw [walk_root 0 hlookup] at h
      rwa [← Option.some.inj h]
    | some parent =>
      rw [walk, hlookup] at h
      cases h
  | succ fuel ih =>
    cases hlookup : parents.lookup i with
    | none =>
      rw [walk_root _ hlookup] at h
      rwa [← Option.some.inj h]
    | some parent =>
      rw [walk_link fuel hlookup] at h
      exact ih h

/-- A link between two roots: the root that is linked gives way to the other one, one step later. -/
theorem walk_set (hri : parents.lookup ri = none) (hrj : parents.lookup rj = none) (hne : ri ≠ rj)
    {fuel : Nat} (h : walk parents fuel i = some r) :
    walk (Dict.set ri rj parents) (fuel + 1) i = some (if r = ri then rj else r) := by
  have habsent : ri ∉ Dict.keys parents := by
    intro hmem
    obtain ⟨entry, hentry, heq⟩ := List.mem_map.mp hmem
    have := List.lookup_eq_none_iff.mp hri entry hentry
    simp [heq] at this
  have hlookup : ∀ k, (Dict.set ri rj parents).lookup k =
      if k = ri then some rj else parents.lookup k := by
    intro k
    rw [Dict.set_of_not_mem rj habsent, List.lookup_append]
    by_cases hk : k = ri
    · subst hk
      simp [hri]
    · cases hfound : parents.lookup k with
      | none =>
        have hbeq : (k == ri) = false := by simpa using hk
        simp [hbeq, hk]
      | some parent => simp [hk]
  have hroot : ∀ n, walk (Dict.set ri rj parents) n rj = some rj := by
    intro n
    apply walk_root
    rw [hlookup, if_neg (Ne.symm hne), hrj]
  have hstay : ∀ n k, parents.lookup k = none →
      walk (Dict.set ri rj parents) (n + 1) k = some (if k = ri then rj else k) := by
    intro n k hk
    by_cases heq : k = ri
    · subst heq
      rw [walk_link n (by rw [hlookup, if_pos rfl]), hroot, if_pos rfl]
    · rw [walk_root _ (by rw [hlookup, if_neg heq, hk]), if_neg heq]
  induction fuel generalizing i with
  | zero =>
    cases hi : parents.lookup i with
    | none =>
      rw [walk_root 0 hi] at h
      rw [← Option.some.inj h]
      exact hstay 0 i hi
    | some parent =>
      rw [walk, hi] at h
      cases h
  | succ fuel ih =>
    cases hi : parents.lookup i with
    | none =>
      rw [walk_root _ hi] at h
      rw [← Option.some.inj h]
      exact hstay (fuel + 1) i hi
    | some parent =>
      have hother : i ≠ ri := by
        rintro rfl
        rw [hri] at hi
        cases hi
      rw [walk_link fuel hi] at h
      rw [walk_link (fuel + 1) (by rw [hlookup, if_neg hother, hi])]
      exact ih h

/-- Every walk ends. -/
def Ends (parents : Parents ι) : Prop := ∀ i, ∃ r, rootOf parents i = some r

theorem ends_nil : Ends ([] : Parents ι) := fun i => ⟨i, rfl⟩

theorem rootOf_root (h : rootOf parents i = some r) : rootOf parents r = some r :=
  walk_root _ (lookup_of_walk h)

theorem rootOf_set (hri : rootOf parents ri = some ri) (hrj : rootOf parents rj = some rj)
    (hne : ri ≠ rj) (h : rootOf parents i = some r) :
    rootOf (Dict.set ri rj parents) i = some (if r = ri then rj else r) := by
  have habsent : ri ∉ Dict.keys parents := by
    intro hmem
    obtain ⟨entry, hentry, heq⟩ := List.mem_map.mp hmem
    have := List.lookup_eq_none_iff.mp (lookup_of_walk hri) entry hentry
    simp [heq] at this
  have hlength : (Dict.set ri rj parents).length = parents.length + 1 := by
    rw [Dict.set_of_not_mem rj habsent, List.length_append, List.length_singleton]
  rw [rootOf, hlength]
  exact walk_set (lookup_of_walk hri) (lookup_of_walk hrj) hne h

end Walks

section Classes

open Relation

/-- Two elements are joined by the pairs. -/
def Joined (pairs : List (ι × ι)) : ι → ι → Prop := EqvGen fun i j => (i, j) ∈ pairs

/-- The walks end, and elements have one root exactly if the pairs join them. -/
structure Represents (parents : Parents ι) (pairs : List (ι × ι)) : Prop where
  ends : Ends parents
  joined : ∀ i j, rootOf parents i = rootOf parents j ↔ Joined pairs i j

theorem represents_nil : Represents ([] : Parents ι) [] where
  ends := ends_nil
  joined := by
    intro i j
    constructor
    · intro h
      obtain rfl : i = j := Option.some.inj h
      exact .refl i
    · intro h
      induction h with
      | rel _ _ hmem => cases hmem
      | refl => rfl
      | symm _ _ _ ih => exact ih.symm
      | trans _ _ _ _ _ ih ih' => exact ih.trans ih'

variable {parents : Parents ι} {pairs : List (ι × ι)}

omit [DecidableEq ι] in
theorem Joined.mono {more : List (ι × ι)} {i j : ι} (h : Joined pairs i j)
    (hsub : ∀ pair ∈ pairs, pair ∈ more) : Joined more i j :=
  EqvGen.mono (fun a b (hmem : (a, b) ∈ pairs) => hsub _ hmem) i j h

/-- Linking the roots of a pair joins it. -/
theorem Represents.link {a b ri rj : ι} (h : Represents parents pairs)
    (ha : rootOf parents a = some ri) (hb : rootOf parents b = some rj) (hne : ri ≠ rj) :
    Represents (Dict.set ri rj parents) (pairs ++ [(a, b)]) := by
  have hset : ∀ {i r}, rootOf parents i = some r →
      rootOf (Dict.set ri rj parents) i = some (if r = ri then rj else r) :=
    fun hroot => rootOf_set (rootOf_root ha) (rootOf_root hb) hne hroot
  have hold : ∀ {i j}, rootOf parents i = rootOf parents j → Joined (pairs ++ [(a, b)]) i j :=
    fun hsame => ((h.joined _ _).mp hsame).mono fun _ hmem => List.mem_append_left _ hmem
  have hnew : Joined (pairs ++ [(a, b)]) a b :=
    .rel _ _ (List.mem_append_right _ (List.mem_singleton_self _))
  have hsame : ∀ {i j}, rootOf parents i = rootOf parents j →
      rootOf (Dict.set ri rj parents) i = rootOf (Dict.set ri rj parents) j := by
    intro i j heq
    obtain ⟨r, hr⟩ := h.ends i
    rw [hset hr, hset (heq ▸ hr)]
  -- an element whose root is `ri` or `rj` is joined with `b`
  have hin : ∀ {i r}, rootOf parents i = some r → r = ri ∨ r = rj →
      Joined (pairs ++ [(a, b)]) i b := by
    rintro i r hr (rfl | rfl)
    · exact .trans _ _ _ (hold (hr.trans ha.symm)) hnew
    · exact hold (hr.trans hb.symm)
  constructor
  · intro i
    obtain ⟨r, hr⟩ := h.ends i
    exact ⟨_, hset hr⟩
  · intro i j
    obtain ⟨r, hr⟩ := h.ends i
    obtain ⟨r', hr'⟩ := h.ends j
    constructor
    · intro heq
      rw [hset hr, hset hr', Option.some.injEq] at heq
      by_cases hsameRoot : r = r'
      · exact hold (by rw [hr, hr', hsameRoot])
      · have hboth : (r = ri ∨ r = rj) ∧ (r' = ri ∨ r' = rj) := by
          split at heq <;> split at heq <;> simp_all
        exact .trans _ _ _ (hin hr hboth.1) (.symm _ _ (hin hr' hboth.2))
    · intro hjoined
      clear hr hr'
      induction hjoined with
      | rel x y hmem =>
        rcases List.mem_append.mp hmem with hpair | hpair
        · exact hsame ((h.joined x y).mpr (.rel _ _ hpair))
        · obtain ⟨rfl, rfl⟩ := Prod.mk.inj (List.mem_singleton.mp hpair)
          rw [hset ha, hset hb, if_pos rfl, if_neg (Ne.symm hne)]
      | refl => rfl
      | symm _ _ _ ih => exact ih.symm
      | trans _ _ _ _ _ ih ih' => exact ih.trans ih'

theorem Represents.swap {a b : ι} (h : Represents parents (pairs ++ [(b, a)])) :
    Represents parents (pairs ++ [(a, b)]) := by
  refine ⟨h.ends, fun i j => (h.joined i j).trans ?_⟩
  have hturn : ∀ {a b i j : ι}, Joined (pairs ++ [(b, a)]) i j → Joined (pairs ++ [(a, b)]) i j := by
    intro a b i j hjoined
    induction hjoined with
    | rel x y hmem =>
      rcases List.mem_append.mp hmem with hpair | hpair
      · exact .rel _ _ (List.mem_append_left _ hpair)
      · obtain ⟨rfl, rfl⟩ := Prod.mk.inj (List.mem_singleton.mp hpair)
        exact .symm _ _ (.rel _ _ (List.mem_append_right _ (List.mem_singleton_self _)))
    | refl => exact .refl _
    | symm _ _ _ ih => exact .symm _ _ ih
    | trans _ _ _ _ _ ih ih' => exact .trans _ _ _ ih ih'
  exact ⟨hturn, hturn⟩

theorem Represents.idle {a b : ι} (h : Represents parents pairs)
    (hsame : rootOf parents a = rootOf parents b) : Represents parents (pairs ++ [(a, b)]) := by
  refine ⟨h.ends, fun i j => (h.joined i j).trans ⟨?_, ?_⟩⟩
  · exact fun hjoined => hjoined.mono fun _ hmem => List.mem_append_left _ hmem
  · intro hjoined
    induction hjoined with
    | rel x y hmem =>
      rcases List.mem_append.mp hmem with hpair | hpair
      · exact .rel _ _ hpair
      · obtain ⟨rfl, rfl⟩ := Prod.mk.inj (List.mem_singleton.mp hpair)
        exact (h.joined x y).mp hsame
    | refl => exact .refl _
    | symm _ _ _ ih => exact .symm _ _ ih
    | trans _ _ _ _ _ ih ih' => exact .trans _ _ _ ih ih'

/-- A union ends, and joins its pair to those joined before. -/
theorem Represents.union (prefer : ι → ι → Bool) (h : Represents parents pairs) (pair : ι × ι) :
    ∃ parents', union prefer parents pair = some parents' ∧
      Represents parents' (pairs ++ [pair]) := by
  obtain ⟨ri, hi⟩ := h.ends pair.1
  obtain ⟨rj, hj⟩ := h.ends pair.2
  have hrun : UnionFind.union prefer parents pair = some (if ri = rj then parents
      else if prefer ri rj then Dict.set rj ri parents else Dict.set ri rj parents) := by
    simp only [UnionFind.union, hi, hj]
    split
    · simp [*]
    · split <;> simp [*]
  refine ⟨_, hrun, ?_⟩
  split
  · rename_i heq
    exact h.idle (by rw [hi, hj, heq])
  · rename_i hne
    split
    · exact (h.link hj hi (Ne.symm hne)).swap
    · exact h.link hi hj hne

/-- Unions one after the other. -/
theorem Represents.unions (prefer : ι → ι → Bool) (h : Represents parents pairs)
    (more : List (ι × ι)) : ∃ parents', more.foldlM (UnionFind.union prefer) parents = some parents' ∧
      Represents parents' (pairs ++ more) := by
  induction more generalizing parents pairs with
  | nil => exact ⟨parents, rfl, by rwa [List.append_nil]⟩
  | cons pair more ih =>
    obtain ⟨next, hnext, hrepresents⟩ := h.union prefer pair
    obtain ⟨last, hlast, hall⟩ := ih hrepresents
    refine ⟨last, ?_, by rwa [List.append_assoc] at hall⟩
    rw [List.foldlM_cons, hnext]
    exact hlast

end Classes

end Cygnus.UnionFind
