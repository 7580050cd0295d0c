import Cygnus.Data.Dict

/-! JSON documents as the code sees them after decoding: objects keep their insertion order, and
equality is that of the decoded Python values. Numbers with a fraction do not occur here. -/

namespace Cygnus

inductive Json
  | null
  | bool (b : Bool)
  | int (n : Int)
  | str (s : String)
  | list (items : List Json)
  | object (fields : List (String × Json))

abbrev JsonObject := Dict String Json

namespace Json

mutual

/-- `==` on decoded documents: a boolean equals the integer it stands for, and objects are compared
without regard to order. -/
def eq : Json → Json → Bool
  | .null, .null => true
  | .bool a, .bool b => a == b
  | .bool a, .int n => a.toInt == n
  | .int n, .bool b => n == b.toInt
  | .int n, .int m => n == m
  | .str s, .str t => s == t
  | .list xs, .list ys => eqItems xs ys
  | .object xs, .object ys => xs.length == ys.length && eqFields xs ys
  | _, _ => false

def eqItems : List Json → List Json → Bool
  | [], [] => true
  | x :: xs, y :: ys => x.eq y && eqItems xs ys
  | _, _ => false

def eqFields : List (String × Json) → List (String × Json) → Bool
  | [], _ => true
  | (k, x) :: xs, ys =>
    (match ys.lookup k with
      | some y => x.eq y
      | none => false) && eqFields xs ys

end

/-- A decoded object holds each key once, at every depth. -/
inductive DistinctKeys : Json → Prop
  | null : DistinctKeys .null
  | bool (b) : DistinctKeys (.bool b)
  | int (n) : DistinctKeys (.int n)
  | str (s) : DistinctKeys (.str s)
  | list {items} : (∀ x ∈ items, DistinctKeys x) → DistinctKeys (.list items)
  | object {fields} : (fields.map Prod.fst).Nodup → (∀ f ∈ fields, DistinctKeys f.2) →
      DistinctKeys (.object fields)

theorem eqItems_refl {items : List Json} (h : ∀ x ∈ items, x.eq x = true) :
    eqItems items items = true := by
  induction items with
  | nil => rw [eqItems]
  | cons x items ih =>
    rw [eqItems, h x List.mem_cons_self, ih fun y hy => h y (List.mem_cons_of_mem _ hy)]
    rfl

theorem lookup_of_mem {fields : List (String × Json)} (hkeys : (fields.map Prod.fst).Nodup)
    {f : String × Json} (hf : f ∈ fields) : fields.lookup f.1 = some f.2 := by
  induction fields with
  | nil => cases hf
  | cons head fields ih =>
    rw [List.map_cons, List.nodup_cons] at hkeys
    rcases List.mem_cons.mp hf with rfl | hf
    · exact List.lookup_cons_self
    · have hne : (f.1 == head.1) = false := by
        rw [beq_eq_false_iff_ne]
        rintro heq
        exact hkeys.1 (heq ▸ List.mem_map_of_mem hf)
      rw [List.lookup_cons, hne]
      exact ih hkeys.2 hf

theorem eqFields_of_lookup {xs ys : List (String × Json)}
    (h : ∀ f ∈ xs, ys.lookup f.1 = some f.2 ∧ f.2.eq f.2 = true) : eqFields xs ys = true := by
  induction xs with
  | nil => rw [eqFields]
  | cons f xs ih =>
    obtain ⟨hlookup, hself⟩ := h f List.mem_cons_self
    rw [eqFields, hlookup, ih fun g hg => h g (List.mem_cons_of_mem _ hg), Bool.and_true]
    exact hself

theorem DistinctKeys.eq_self {document : Json} (h : document.DistinctKeys) :
    document.eq document = true := by
  induction h with
  | null => rw [eq]
  | bool b => rw [eq, beq_self_eq_true]
  | int n => rw [eq, beq_self_eq_true]
  | str s => rw [eq, beq_self_eq_true]
  | list _ ih => rw [eq, eqItems_refl ih]
  | object hkeys _ ih =>
    rw [eq, beq_self_eq_true, Bool.true_and]
    exact eqFields_of_lookup fun f hf => ⟨lookup_of_mem hkeys hf, ih f hf⟩

/-- `bool(value)`. -/
def truthy : Json → Bool
  | .null => false
  | .bool b => b
  | .int n => n ≠ 0
  | .str s => s ≠ ""
  | .list items => items ≠ []
  | .object fields => fields ≠ []

/-- `isinstance(value, int)`, under which a boolean counts. -/
def asInt : Json → Option Int
  | .bool b => some b.toInt
  | .int n => some n
  | _ => none

def asStr : Json → Option String
  | .str s => some s
  | _ => none

/-- `mapping.get(key)`. -/
def lookup (fields : JsonObject) (key : String) : Json := (List.lookup key fields).getD .null

/-- `left or right`. -/
def orElse (left right : Json) : Json := if left.truthy then left else right

def ofOption (f : α → Json) : Option α → Json
  | none => .null
  | some a => f a

end Json

end Cygnus
