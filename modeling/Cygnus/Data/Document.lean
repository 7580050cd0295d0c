import Cygnus.Data.Dict
import Cygnus.Data.Sequence
import Mathlib.Data.String.Basic

/-! JSON documents with numbers of both kinds, and the order of their keys. -/

namespace Cygnus

open Sequence

/-- What `json.loads` returns; `R` are the numbers with a fraction. -/
inductive Document (R : Type)
  | null
  | bool (b : Bool)
  | int (n : Int)
  | real (x : R)
  | str (s : String)
  | list (items : List (Document R))
  | object (fields : List (String × Document R))

namespace Document

variable {R : Type}

mutual

/-- The document as `sort_keys` writes it. -/
def sortKeys : Document R → Document R
  | .null => .null
  | .bool b => .bool b
  | .int n => .int n
  | .real x => .real x
  | .str s => .str s
  | .list items => .list (sortItems items)
  | .object fields => .object (sortedBy Prod.fst (sortFields fields))

def sortItems : List (Document R) → List (Document R)
  | [] => []
  | d :: items => d.sortKeys :: sortItems items

def sortFields : List (String × Document R) → List (String × Document R)
  | [] => []
  | (key, d) :: fields => (key, d.sortKeys) :: sortFields fields

end

theorem sortFields_eq_map (fields : List (String × Document R)) :
    sortFields fields = fields.map fun field => (field.1, field.2.sortKeys) := by
  induction fields with
  | nil => rfl
  | cons field fields ih => rw [sortFields, ih, List.map_cons]

theorem sortFields_sorted (fields : List (String × Document R)) :
    sortFields (sortedBy Prod.fst fields) = sortedBy Prod.fst (sortFields fields) := by
  rw [sortFields_eq_map, sortFields_eq_map, sortedBy_fst_map]

mutual

/-- What is written in order is read in order. -/
@[simp] theorem sortKeys_sortKeys : (d : Document R) → d.sortKeys.sortKeys = d.sortKeys
  | .null => rfl
  | .bool _ => rfl
  | .int _ => rfl
  | .real _ => rfl
  | .str _ => rfl
  | .list items => by rw [sortKeys, sortKeys, sortItems_sortItems]
  | .object fields => by
    rw [sortKeys, sortKeys, sortFields_sorted, sortFields_sortFields, sortedBy_sortedBy]

theorem sortItems_sortItems : (items : List (Document R)) →
    sortItems (sortItems items) = sortItems items
  | [] => rfl
  | d :: items => by rw [sortItems, sortItems, sortKeys_sortKeys, sortItems_sortItems]

theorem sortFields_sortFields : (fields : List (String × Document R)) →
    sortFields (sortFields fields) = sortFields fields
  | [] => rfl
  | (key, d) :: fields => by
    rw [sortFields, sortFields, sortKeys_sortKeys, sortFields_sortFields]

end

/-- Looking a key up does not depend on the order of distinct keys. -/
theorem lookup_perm {α : Type*} {fields fields' : List (String × α)} (h : fields.Perm fields')
    (hkeys : (fields.map Prod.fst).Nodup) (key : String) :
    fields.lookup key = fields'.lookup key := by
  induction h with
  | nil => rfl
  | cons field _ ih =>
    rw [List.map_cons, List.nodup_cons] at hkeys
    rw [List.lookup_cons, List.lookup_cons, ih hkeys.2]
  | swap first second rest =>
    have hne : first.1 ≠ second.1 := by
      rw [List.map_cons, List.map_cons, List.nodup_cons, List.mem_cons] at hkeys
      exact fun heq => hkeys.1 (.inl heq.symm)
    rw [List.lookup_cons, List.lookup_cons, List.lookup_cons, List.lookup_cons]
    by_cases hfirst : key = first.1
    · have hsecond : (first.1 == second.1) = false := beq_eq_false_iff_ne.mpr hne
      rw [hfirst, hsecond, beq_self_eq_true]
    · simp [beq_eq_false_iff_ne.mpr hfirst]
  | trans hfirst _ ihfirst ihsecond =>
    exact (ihfirst hkeys).trans (ihsecond ((hfirst.map Prod.fst).nodup_iff.mp hkeys))

theorem lookup_sortedBy {α : Type*} {fields : List (String × α)}
    (hkeys : (fields.map Prod.fst).Nodup) (key : String) :
    (sortedBy Prod.fst fields).lookup key = fields.lookup key :=
  (lookup_perm (perm_sortedBy Prod.fst fields).symm hkeys key).symm

theorem lookup_sortFields (fields : List (String × Document R)) (key : String) :
    (sortFields fields).lookup key = (fields.lookup key).map sortKeys := by
  induction fields with
  | nil => rfl
  | cons field fields ih =>
    rw [sortFields, List.lookup_cons, List.lookup_cons, ih]
    split <;> rfl

end Document

end Cygnus
