namespace Cygnus.Sql

/-- A SQL condition is true, false or unknown; a `WHERE` keeps the rows where it is true. -/
inductive Truth
  | false
  | unknown
  | true
  deriving DecidableEq

def Truth.ofBool (b : Bool) : Truth := if b then .true else .false

def Truth.not : Truth → Truth
  | .false => .true
  | .unknown => .unknown
  | .true => .false

def Truth.and : Truth → Truth → Truth
  | .false, _ => .false
  | _, .false => .false
  | .true, .true => .true
  | _, _ => .unknown

def Truth.or : Truth → Truth → Truth
  | .true, _ => .true
  | _, .true => .true
  | .false, .false => .false
  | _, _ => .unknown

/-- `and_(..)` -/
def all (conditions : List Truth) : Truth := conditions.foldr .and .true

/-- `or_(..)` -/
def any (conditions : List Truth) : Truth := conditions.foldr .or .false

section Column

variable {α : Type _} [DecidableEq α]

/-- `=` on nullable values: unknown as soon as one side is null. -/
def equals : Option α → Option α → Truth
  | some a, some b => .ofBool (a = b)
  | _, _ => .unknown

def isNull (column : Option α) : Truth := .ofBool column.isNone

/-- `column IN (..)` over values that are not null -/
def isIn (column : Option α) (values : List α) : Truth :=
  any (values.map (equals column ∘ some))

end Column

/-- `EXISTS (SELECT .. FROM rows WHERE condition)` is never unknown. -/
def existsIn {ρ : Type _} (rows : List ρ) (condition : ρ → Truth) : Truth :=
  .ofBool (rows.any (condition · = .true))

@[simp] theorem ofBool_eq_true {b : Bool} : Truth.ofBool b = .true ↔ b = true := by
  cases b <;> simp [Truth.ofBool]

@[simp] theorem ofBool_not (b : Bool) : (Truth.ofBool b).not = .ofBool !b := by
  cases b <;> rfl

@[simp] theorem and_eq_true {a b : Truth} : a.and b = .true ↔ a = .true ∧ b = .true := by
  cases a <;> cases b <;> simp [Truth.and]

@[simp] theorem or_eq_true {a b : Truth} : a.or b = .true ↔ a = .true ∨ b = .true := by
  cases a <;> cases b <;> simp [Truth.or]

@[simp] theorem all_nil : all [] = .true := rfl

@[simp] theorem all_cons (c : Truth) (cs : List Truth) : all (c :: cs) = c.and (all cs) := rfl

@[simp] theorem any_nil : any [] = .false := rfl

@[simp] theorem any_cons (c : Truth) (cs : List Truth) : any (c :: cs) = c.or (any cs) := rfl

theorem any_eq_true {conditions : List Truth} :
    any conditions = .true ↔ .true ∈ conditions := by
  induction conditions with
  | nil => simp
  | cons c cs ih =>
    simp only [any_cons, or_eq_true, ih, List.mem_cons]
    constructor
    · rintro (h | h)
      · exact .inl h.symm
      · exact .inr h
    · rintro (h | h)
      · exact .inl h.symm
      · exact .inr h

section Column

variable {α : Type _} [DecidableEq α]

@[simp] theorem equals_some_eq_true {column : Option α} {a : α} :
    equals column (some a) = .true ↔ column = some a := by
  cases column <;> simp [equals]

theorem equals_eq_true {a b : Option α} : equals a b = .true ↔ ∃ x, a = some x ∧ b = some x := by
  cases a with
  | none => simp [equals]
  | some x =>
    cases b with
    | none => simp [equals]
    | some y =>
      rw [equals_some_eq_true]
      constructor
      · rintro ⟨rfl⟩
        exact ⟨x, rfl, rfl⟩
      · rintro ⟨z, ⟨rfl⟩, ⟨rfl⟩⟩
        rfl

omit [DecidableEq α] in
@[simp] theorem isNull_eq_true {column : Option α} : isNull column = .true ↔ column = none := by
  simp [isNull]

@[simp] theorem isIn_eq_true {column : Option α} {values : List α} :
    isIn column values = .true ↔ ∃ a ∈ values, column = some a := by
  simp only [isIn, any_eq_true, List.mem_map, Function.comp_apply]
  constructor
  · rintro ⟨a, hmem, heq⟩
    exact ⟨a, hmem, equals_some_eq_true.mp heq⟩
  · rintro ⟨a, hmem, heq⟩
    exact ⟨a, hmem, equals_some_eq_true.mpr heq⟩

end Column

section Exists

variable {ρ : Type _} {rows : List ρ} {condition : ρ → Truth}

@[simp] theorem existsIn_eq_true :
    existsIn rows condition = .true ↔ ∃ row ∈ rows, condition row = .true := by
  simp [existsIn]

/-- `NOT EXISTS` is the plain negation: a row whose condition is unknown does not count. -/
@[simp] theorem not_existsIn_eq_true :
    (existsIn rows condition).not = .true ↔ ∀ row ∈ rows, condition row ≠ .true := by
  simp [existsIn]

end Exists

end Cygnus.Sql
