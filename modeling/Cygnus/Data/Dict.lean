import Mathlib.Algebra.Order.Ring.Nat
import Mathlib.Data.List.Nodup

/-! Insertion-ordered dictionaries: assigning to a key that is there keeps its place. -/

namespace Cygnus

abbrev Dict (κ α : Type*) := List (κ × α)

namespace Dict

variable {κ α : Type*}

def keys (d : Dict κ α) : List κ := d.map Prod.fst

def values (d : Dict κ α) : List α := d.map Prod.snd

@[simp] theorem keys_nil : keys ([] : Dict κ α) = [] := rfl

@[simp] theorem keys_cons (item : κ × α) (d : Dict κ α) : keys (item :: d) = item.1 :: keys d := rfl

variable [DecidableEq κ]

def set (key : κ) (value : α) : Dict κ α → Dict κ α
  | [] => [(key, value)]
  | (k, v) :: rest => if k = key then (k, value) :: rest else (k, v) :: set key value rest

/-- A run of assignments, first to last. -/
def update (d : Dict κ α) (items : List (κ × α)) : Dict κ α :=
  items.foldl (fun acc item => set item.1 item.2 acc) d

def ofList (items : List (κ × α)) : Dict κ α := update [] items

theorem mem_keys_set (key k : κ) (value : α) (d : Dict κ α) :
    k ∈ keys (set key value d) ↔ k = key ∨ k ∈ keys d := by
  induction d with
  | nil => simp [set]
  | cons item d ih =>
    unfold set
    split
    · rename_i h
      simp [h]
    · simp only [keys_cons, List.mem_cons, ih]
      tauto

theorem nodup_keys_set {d : Dict κ α} (key : κ) (value : α) (h : (keys d).Nodup) :
    (keys (set key value d)).Nodup := by
  induction d with
  | nil => simp [set]
  | cons item d ih =>
    rw [keys_cons, List.nodup_cons] at h
    unfold set
    split
    · simpa using h
    · rename_i hne
      rw [keys_cons, List.nodup_cons, mem_keys_set]
      exact ⟨by rintro (rfl | hmem); exacts [hne rfl, h.1 hmem], ih h.2⟩

theorem mem_set {key : κ} {value : α} {d : Dict κ α} {item : κ × α} (h : item ∈ set key value d) :
    item = (key, value) ∨ item ∈ d := by
  induction d with
  | nil => simpa [set] using h
  | cons head d ih =>
    unfold set at h
    split at h
    · rename_i hk
      rw [List.mem_cons] at h
      rcases h with rfl | h
      · exact .inl (by rw [hk])
      · exact .inr (List.mem_cons_of_mem _ h)
    · rw [List.mem_cons] at h
      rcases h with rfl | h
      · exact .inr List.mem_cons_self
      · exact (ih h).imp_right (List.mem_cons_of_mem _)

@[simp] theorem update_nil (d : Dict κ α) : update d [] = d := rfl

@[simp] theorem update_cons (d : Dict κ α) (item : κ × α) (items : List (κ × α)) :
    update d (item :: items) = update (set item.1 item.2 d) items := rfl

theorem mem_update {d : Dict κ α} {items : List (κ × α)} {item : κ × α}
    (h : item ∈ update d items) : item ∈ d ∨ item ∈ items := by
  induction items generalizing d with
  | nil => exact .inl h
  | cons head items ih =>
    rw [update_cons] at h
    rcases ih h with h | h
    · rcases mem_set h with rfl | h
      · exact .inr List.mem_cons_self
      · exact .inl h
    · exact .inr (List.mem_cons_of_mem _ h)

theorem mem_ofList {items : List (κ × α)} {item : κ × α} (h : item ∈ ofList items) :
    item ∈ items := by
  simpa using mem_update h

@[simp] theorem mem_keys_update (d : Dict κ α) (items : List (κ × α)) (k : κ) :
    k ∈ keys (update d items) ↔ k ∈ keys d ∨ k ∈ keys items := by
  induction items generalizing d with
  | nil => simp
  | cons item items ih =>
    rw [update_cons, ih, mem_keys_set, keys_cons, List.mem_cons]
    tauto

@[simp] theorem mem_keys_ofList (items : List (κ × α)) (k : κ) :
    k ∈ keys (ofList items) ↔ k ∈ keys items := by
  simp [ofList]

theorem lookup_set (key : κ) (value : α) (d : Dict κ α) (k : κ) :
    (set key value d).lookup k = if k = key then some value else d.lookup k := by
  induction d with
  | nil =>
    by_cases h : k = key
    · simp [set, h]
    · simp [set, h]
  | cons item d ih =>
    unfold set
    by_cases hitem : item.1 = key
    · rw [if_pos hitem, List.lookup_cons, List.lookup_cons, hitem]
      by_cases h : k = key
      · simp [h]
      · rw [if_neg h, beq_eq_false_iff_ne.mpr h]
    · rw [if_neg hitem, List.lookup_cons, List.lookup_cons, ih]
      by_cases h : k = key
      · have hne : k ≠ item.1 := fun heq => hitem (heq.symm.trans h)
        rw [beq_eq_false_iff_ne.mpr hne, if_pos h]
      · rw [if_neg h, if_neg h]

theorem set_of_not_mem {d : Dict κ α} {key : κ} (value : α) (h : key ∉ keys d) :
    set key value d = d ++ [(key, value)] := by
  induction d with
  | nil => rfl
  | cons item d ih =>
    rw [keys_cons, List.mem_cons, not_or] at h
    rw [set, if_neg (Ne.symm h.1), ih h.2, List.cons_append]

theorem keys_set_of_mem {d : Dict κ α} {key : κ} (value : α) (h : key ∈ keys d) :
    keys (set key value d) = keys d := by
  induction d with
  | nil => cases h
  | cons item d ih =>
    unfold set
    split
    · rfl
    · rename_i hne
      rw [keys_cons, List.mem_cons] at h
      rw [keys_cons, keys_cons, ih (h.resolve_left (Ne.symm hne))]

theorem update_of_nodup {d : Dict κ α} {items : List (κ × α)} (h : (keys (d ++ items)).Nodup) :
    update d items = d ++ items := by
  induction items generalizing d with
  | nil => simp
  | cons item items ih =>
    have hkeys : keys (d ++ item :: items) = keys (d ++ [item] ++ items) := by simp
    have hnot : item.1 ∉ keys d := by
      rw [keys, List.map_append, List.map_cons, List.nodup_append] at h
      intro hmem
      exact h.2.2 item.1 hmem item.1 List.mem_cons_self rfl
    rw [update_cons, set_of_not_mem _ hnot, ih (by rwa [← hkeys])]
    simp

theorem ofList_of_nodup {items : List (κ × α)} (h : (keys items).Nodup) : ofList items = items := by
  simpa [ofList] using update_of_nodup (d := []) (by simpa using h)

theorem length_set_le (key : κ) (value : α) (d : Dict κ α) :
    (set key value d).length ≤ d.length + 1 := by
  induction d with
  | nil => simp [set]
  | cons item d ih =>
    unfold set
    split <;> simp [ih]

theorem length_update_le (d : Dict κ α) (items : List (κ × α)) :
    (update d items).length ≤ d.length + items.length := by
  induction items generalizing d with
  | nil => simp
  | cons item items ih =>
    have hset := length_set_le item.1 item.2 d
    have hrest := ih (set item.1 item.2 d)
    rw [update_cons, List.length_cons]
    omega

theorem length_ofList_le (items : List (κ × α)) : (ofList items).length ≤ items.length := by
  simpa [ofList] using length_update_le [] items

theorem nodup_keys_update {d : Dict κ α} (items : List (κ × α)) (h : (keys d).Nodup) :
    (keys (update d items)).Nodup := by
  induction items generalizing d with
  | nil => exact h
  | cons item items ih =>
    rw [update_cons]
    exact ih (nodup_keys_set _ _ h)

theorem nodup_keys_ofList (items : List (κ × α)) : (keys (ofList items)).Nodup :=
  nodup_keys_update items .nil

/-- A run of assignments that ends with as many entries as it made never wrote a key twice. -/
theorem nodup_of_length_update {d : Dict κ α} {items : List (κ × α)} (hd : (keys d).Nodup)
    (h : (update d items).length = d.length + items.length) : (keys (d ++ items)).Nodup := by
  induction items generalizing d with
  | nil => simpa using hd
  | cons item items ih =>
    have hrest := length_update_le (set item.1 item.2 d) items
    rw [update_cons, List.length_cons] at h
    by_cases hmem : item.1 ∈ keys d
    · have hlen : (set item.1 item.2 d).length = d.length := by
        simpa [keys] using congrArg List.length (keys_set_of_mem item.2 hmem)
      omega
    · rw [set_of_not_mem _ hmem] at h hrest
      have hnext := ih (d := d ++ [item]) (by
        rw [← set_of_not_mem _ hmem]
        exact nodup_keys_set _ _ hd) (by
        rw [h, List.length_append, List.length_singleton]
        omega)
      simpa using hnext

theorem nodup_of_length_ofList {items : List (κ × α)} (h : (ofList items).length = items.length) :
    (keys items).Nodup := by
  simpa using nodup_of_length_update (d := []) (by simp) (by simpa [ofList] using h)

theorem sum_set_le (w : κ × α → Nat) (key : κ) (value : α) (d : Dict κ α) :
    ((set key value d).map w).sum ≤ (d.map w).sum + w (key, value) := by
  induction d with
  | nil => simp [set]
  | cons item d ih =>
    obtain ⟨k, v⟩ := item
    unfold set
    split
    · rename_i hkey
      simp only [List.map_cons, List.sum_cons, hkey]
      omega
    · simp only [List.map_cons, List.sum_cons]
      omega

theorem sum_update_le (w : κ × α → Nat) (d : Dict κ α) (items : List (κ × α)) :
    ((update d items).map w).sum ≤ (d.map w).sum + (items.map w).sum := by
  induction items generalizing d with
  | nil => simp
  | cons item items ih =>
    obtain ⟨k, v⟩ := item
    have hset := sum_set_le w k v d
    have hrest := ih (set k v d)
    rw [update_cons, List.map_cons, List.sum_cons]
    dsimp only
    omega

/-- Assignments to one key only count once. -/
theorem sum_ofList_le (w : κ × α → Nat) (items : List (κ × α)) :
    ((ofList items).map w).sum ≤ (items.map w).sum := by
  simpa [ofList] using sum_update_le w [] items

end Dict

end Cygnus
