import Cygnus.Data.Uuid
import Cygnus.Data.Result

/-! Tables of rows with a primary key. -/

namespace Cygnus

class Row (α : Type*) where
  key : α → Uuid

abbrev Table (α : Type*) := List α

namespace Table

variable {α ε : Type*} [Row α]

def get (t : Table α) (i : Uuid) : Option α := t.find? fun r => Row.key r = i

/-- `INSERT`, refused when the primary key is taken. -/
def insert (taken : ε) (r : α) (t : Table α) : Except ε (Table α) :=
  if (t.get (Row.key r)).isSome then .error taken else .ok (t ++ [r])

/-- `UPDATE` of the row with this primary key. -/
def put (r : α) (t : Table α) : Table α := t.map fun r' => if Row.key r' = Row.key r then r else r'

/-- No two rows share a primary key. -/
def Keyed (t : Table α) : Prop := (t.map Row.key).Nodup

theorem get_key {t : Table α} {i : Uuid} {r : α} (h : t.get i = some r) : Row.key r = i := by
  simpa using List.find?_some h

theorem get_mem {t : Table α} {i : Uuid} {r : α} (h : t.get i = some r) : r ∈ t :=
  List.mem_of_find?_eq_some h

theorem get_eq_none {t : Table α} {i : Uuid} : t.get i = none ↔ ∀ r ∈ t, Row.key r ≠ i := by
  simp [get]

theorem Keyed.get_of_mem {t : Table α} {r : α} (ht : t.Keyed) (h : r ∈ t) :
    t.get (Row.key r) = some r := by
  induction t with
  | nil => cases h
  | cons head t ih =>
    rw [Keyed, List.map_cons, List.nodup_cons] at ht
    rcases List.mem_cons.mp h with rfl | h
    · simp [get]
    · have hne : Row.key head ≠ Row.key r := by
        intro heq
        exact ht.1 (heq ▸ List.mem_map_of_mem h)
      rw [get, List.find?_cons_of_neg (by simpa using hne)]
      exact ih ht.2 h

theorem Keyed.eq_of_key {t : Table α} {r r' : α} (ht : t.Keyed) (hr : r ∈ t) (hr' : r' ∈ t)
    (hkey : Row.key r = Row.key r') : r = r' := by
  have hget := ht.get_of_mem hr
  rw [hkey, ht.get_of_mem hr'] at hget
  exact (Option.some.inj hget).symm

theorem insert_ok {taken : ε} {r : α} {t t' : Table α} (h : t.insert taken r = .ok t') :
    t.get (Row.key r) = none ∧ t' = t ++ [r] := by
  unfold insert at h
  split at h
  · cases h
  · rename_i hnone
    simp only [Except.ok.injEq] at h
    exact ⟨by simpa using hnone, h.symm⟩

theorem returns_insert {taken : ε} {r : α} {t : Table α} (h : t.get (Row.key r) = none) :
    Result.Returns (t.insert taken r) := by
  rw [insert, h]
  exact Result.returns_ok _

theorem get_append (t : Table α) (r : α) (i : Uuid) :
    get (t ++ [r]) i = (get t i).or (if Row.key r = i then some r else none) := by
  simp only [get, List.find?_append, List.find?_singleton, decide_eq_true_eq]

theorem get_append_of_some {t : Table α} {i : Uuid} {r added : α} (hget : t.get i = some r) :
    get (t ++ [added]) i = some r := by
  rw [get_append, hget, Option.some_or]

theorem get_append_self {t : Table α} {added : α} (hfree : t.get (Row.key added) = none) :
    get (t ++ [added]) (Row.key added) = some added := by
  rw [get_append, hfree, Option.none_or, if_pos rfl]

theorem get_append_cases {t : Table α} {i : Uuid} {r added : α}
    (hget : get (t ++ [added]) i = some r) : t.get i = some r ∨ Row.key added = i ∧ r = added := by
  rw [get_append] at hget
  cases hold : t.get i with
  | some old =>
    rw [hold] at hget
    exact .inl hget
  | none =>
    rw [hold, Option.none_or] at hget
    split at hget
    · rename_i hkey
      exact .inr ⟨hkey, (Option.some.inj hget).symm⟩
    · cases hget

/-- Tables with the same keys find rows under the same keys. -/
theorem get_of_keys {t t' : Table α} {i : Uuid} {r' : α} (hkeys : t'.map Row.key = t.map Row.key)
    (hget : t'.get i = some r') : ∃ r, t.get i = some r := by
  have hmem : i ∈ t.map Row.key := by
    rw [← hkeys, ← get_key hget]
    exact List.mem_map_of_mem (get_mem hget)
  obtain ⟨r, hr, hkey⟩ := List.mem_map.mp hmem
  cases hfound : t.get i with
  | none => exact absurd hkey (get_eq_none.mp hfound r hr)
  | some r => exact ⟨r, rfl⟩

/-- The new row is found under its key, and every other key still finds what it found. -/
theorem get_insert {taken : ε} {r : α} {t t' : Table α} (h : t.insert taken r = .ok t') (i : Uuid) :
    t'.get i = if Row.key r = i then some r else t.get i := by
  obtain ⟨hnone, rfl⟩ := insert_ok h
  rw [get_append]
  split
  · rename_i hi
    rw [← hi, hnone, Option.none_or]
  · rw [Option.or_none]

theorem get_put (r : α) (t : Table α) (i : Uuid) :
    (t.put r).get i = if Row.key r = i then (t.get i).map fun _ => r else t.get i := by
  induction t with
  | nil => simp [put, get]
  | cons head t ih =>
    simp only [put, get, List.map_cons] at ih ⊢
    by_cases hhead : Row.key head = Row.key r
    · by_cases hi : Row.key r = i
      · simp [hhead, hi]
      · simp only [hhead, if_true, List.find?_cons, hi, decide_false, if_false]
        rw [ih, if_neg hi]
    · by_cases hi : Row.key head = i
      · have : Row.key r ≠ i := fun h => hhead (hi.trans h.symm)
        rw [if_neg hhead, if_neg this, List.find?_cons_of_pos (by simpa using hi),
          List.find?_cons_of_pos (by simpa using hi)]
      · simp only [hhead, if_false, List.find?_cons, hi, decide_false]
        exact ih

@[simp] theorem keys_put (r : α) (t : Table α) : (t.put r).map Row.key = t.map Row.key := by
  rw [put, List.map_map]
  apply List.map_congr_left
  intro r' _
  by_cases h : Row.key r' = Row.key r <;> simp [h]

theorem Keyed.put {t : Table α} (ht : t.Keyed) (r : α) : (t.put r).Keyed := by
  rw [Keyed, keys_put]
  exact ht

theorem Keyed.append {t : Table α} {r : α} (ht : t.Keyed) (hnew : t.get (Row.key r) = none) :
    Keyed (t ++ [r]) := by
  rw [get_eq_none] at hnew
  rw [Keyed, List.map_append, List.nodup_append]
  refine ⟨ht, by simp, ?_⟩
  intro k hk k' hk'
  obtain ⟨r', hr', rfl⟩ := List.mem_map.mp hk
  simp only [List.map_cons, List.map_nil, List.mem_singleton] at hk'
  subst hk'
  exact hnew r' hr'

theorem Keyed.nodup_keys_filter {t : Table α} (ht : t.Keyed) (p : α → Bool) :
    ((t.filter p).map Row.key).Nodup :=
  ht.sublist (List.filter_sublist.map _)

theorem Keyed.filter_key {t : Table α} {r : α} (ht : t.Keyed) (h : r ∈ t) :
    t.filter (fun r' => Row.key r' = Row.key r) = [r] := by
  induction t with
  | nil => cases h
  | cons head t ih =>
    rw [Keyed, List.map_cons, List.nodup_cons] at ht
    rcases List.mem_cons.mp h with rfl | h
    · have hnone : t.filter (fun r' => Row.key r' = Row.key r) = [] := by
        rw [List.filter_eq_nil_iff]
        intro r' hr' heq
        exact ht.1 (List.mem_map.mpr ⟨r', hr', by simpa using heq⟩)
      rw [List.filter_cons_of_pos (by simp), hnone]
    · have hne : Row.key head ≠ Row.key r := by
        intro heq
        exact ht.1 (heq ▸ List.mem_map_of_mem h)
      rw [List.filter_cons_of_neg (by simpa using hne)]
      exact ih ht.2 h

/-- A row that agrees with the one it replaces changes nothing that the columns show. -/
theorem map_put {β : Type*} {t : Table α} {r old : α} {f : α → β} (ht : t.Keyed)
    (hold : t.get (Row.key r) = some old) (h : f r = f old) : (t.put r).map f = t.map f := by
  rw [put, List.map_map]
  apply List.map_congr_left
  intro r' hr'
  rw [Function.comp_apply]
  split
  · rename_i hkey
    have hfound := ht.get_of_mem hr'
    rw [hkey, hold] at hfound
    rw [h, Option.some.inj hfound]
  · rfl

/-- A search by columns that the new row takes over from the old one. -/
theorem find_put {t : Table α} {r old : α} {p : α → Bool} (ht : t.Keyed)
    (hold : t.get (Row.key r) = some old) (h : p r = p old) :
    (t.put r).find? p = (t.find? p).map fun r' => if Row.key r' = Row.key r then r else r' := by
  have hsame : ∀ r' ∈ t, (p ∘ fun r' => if Row.key r' = Row.key r then r else r') r' = p r' := by
    intro r' hr'
    rw [Function.comp_apply]
    split
    · rename_i hkey
      have hfound := ht.get_of_mem hr'
      rw [hkey, hold] at hfound
      rw [h, Option.some.inj hfound]
    · rfl
  rw [put, List.find?_map, ← List.head?_filter, ← List.head?_filter, List.filter_congr hsame]

theorem mem_put {t : Table α} {r r' : α} (h : r' ∈ t.put r) :
    r' = r ∨ r' ∈ t ∧ Row.key r' ≠ Row.key r := by
  obtain ⟨old, hold, rfl⟩ := List.mem_map.mp h
  split
  · exact .inl rfl
  · rename_i hkey
    exact .inr ⟨hold, hkey⟩

theorem mem_put_of_ne {t : Table α} {r r' : α} (h : r' ∈ t) (hne : Row.key r' ≠ Row.key r) :
    r' ∈ t.put r :=
  List.mem_map.mpr ⟨r', h, if_neg hne⟩

theorem mem_put_self {t : Table α} {r old : α} (h : t.get (Row.key r) = some old) : r ∈ t.put r := by
  have hget := get_put r t (Row.key r)
  rw [if_pos rfl, h] at hget
  exact get_mem hget

theorem put_self {t : Table α} {r : α} (ht : t.Keyed) (h : t.get (Row.key r) = some r) :
    t.put r = t := by
  rw [put]
  conv_rhs => rw [← List.map_id t]
  apply List.map_congr_left
  intro r' hr'
  split
  · rename_i hkey
    have := ht.get_of_mem hr'
    rw [hkey, h] at this
    exact Option.some.inj this
  · rfl

section Map

variable {f : α → α} (hkey : ∀ r, Row.key (f r) = Row.key r)

include hkey

theorem keys_map (t : Table α) : (t.map f).map Row.key = t.map Row.key := by
  rw [List.map_map]
  apply List.map_congr_left
  intro r _
  exact hkey r

theorem Keyed.map {t : Table α} (ht : t.Keyed) : Keyed (t.map f) := by
  rw [Keyed, keys_map hkey]
  exact ht

theorem get_map (t : Table α) (i : Uuid) : get (t.map f) i = (t.get i).map f := by
  rw [get, get, List.find?_map]
  congr 2
  funext r
  rw [Function.comp_apply, hkey]

end Map

theorem Keyed.filter {t : Table α} (ht : t.Keyed) (p : α → Bool) : Keyed (t.filter p) :=
  ht.nodup_keys_filter p

theorem get_filter_ne (t : Table α) (i j : Uuid) :
    get (t.filter fun r => Row.key r ≠ i) j = if i = j then none else t.get j := by
  rw [get, get, List.find?_filter]
  split
  · rename_i heq
    rw [List.find?_eq_none]
    intro r _ h
    simp_all
  · rename_i hne
    congr 1
    funext r
    by_cases hj : Row.key r = j
    · have : Row.key r ≠ i := fun h => hne (h.symm.trans hj)
      simp [hj, Ne.symm hne]
    · simp [hj]

end Table

end Cygnus
