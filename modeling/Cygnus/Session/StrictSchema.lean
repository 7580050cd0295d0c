import Cygnus.Session.Protocol

/-! Input schemas as tools give them, and as they are closed before calls are checked by them. -/

namespace Cygnus.Session

section Closing

mutual

/-- The rewriting of a value inside of a schema, such as a constant. -/
def closeValue : Value → Value
  | .object fields =>
    let normalized := closeFields fields
    if normalized.lookup "type" matches some (.str "object") ∧
        (normalized.lookup "properties").isSome ∧
        (normalized.lookup "additionalProperties").isNone then
      .object (normalized ++ [("additionalProperties", .bool false)])
    else .object normalized
  | .list items => .list (closeItems items)
  | value => value

def closeFields : List (String × Value) → List (String × Value)
  | [] => []
  | (key, item) :: fields => (key, closeValue item) :: closeFields fields

def closeItems : List Value → List Value
  | [] => []
  | item :: items => closeValue item :: closeItems items

end

/-- A schema as a tool gives it: whether it has `properties`, and its `additionalProperties`, if it sets
them, as whether they are anything but `False`. -/
inductive InputSchema
  | mk (spec : SchemaSpec InputSchema) (declaresProperties : Bool) (additional : Option Bool)

namespace InputSchema

def spec : InputSchema → SchemaSpec InputSchema
  | mk spec _ _ => spec

def declaresProperties : InputSchema → Bool
  | mk _ declares _ => declares

def additional : InputSchema → Option Bool
  | mk _ _ additional => additional

end InputSchema

def SchemaType.isObject : Option SchemaType → Bool
  | some (.one "object") => true
  | _ => false

mutual

/-- `visit` of `_strict_input_schema`. -/
def InputSchema.visit : InputSchema → InputSchema
  | .mk ⟨type, const, enum, minLength, maxLength, pattern, format, minimum, maximum, properties,
      required, minProperties, maxProperties, additionalProperties, minItems, maxItems, items⟩
      declares additional =>
    .mk ⟨type, const.map closeValue, enum.map closeItems, minLength, maxLength, pattern, format,
        minimum, maximum, visitProperties properties, required, minProperties, maxProperties,
        additionalProperties, minItems, maxItems, visitItems items⟩
      declares
      (if SchemaType.isObject type ∧ declares ∧ additional = none then some false else additional)

def visitProperties : List (String × InputSchema) → List (String × InputSchema)
  | [] => []
  | (key, schema) :: rest => (key, schema.visit) :: visitProperties rest

def visitItems : Option InputSchema → Option InputSchema
  | none => none
  | some schema => some schema.visit

end

/-- `_strict_input_schema`. -/
def strictInputSchema (schema : InputSchema) : Except String InputSchema :=
  let normalized := schema.visit
  if SchemaType.isObject normalized.spec.type then
    .ok (.mk normalized.spec normalized.declaresProperties (some (normalized.additional.getD false)))
  else .error "tool input schema root must be an object"

mutual

/-- What the validator reads of a schema. -/
def InputSchema.read : InputSchema → Schema
  | .mk ⟨type, const, enum, minLength, maxLength, pattern, format, minimum, maximum, properties,
      required, minProperties, maxProperties, _, minItems, maxItems, items⟩ declares additional =>
    .mk ⟨type, const, enum, minLength, maxLength, pattern, format, minimum, maximum,
      if declares then readProperties properties else [], required, minProperties, maxProperties,
      additional ≠ some false, minItems, maxItems, readItems items⟩

def readProperties : List (String × InputSchema) → List (String × Schema)
  | [] => []
  | (key, schema) :: rest => (key, schema.read) :: readProperties rest

def readItems : Option InputSchema → Option Schema
  | none => none
  | some schema => some schema.read

end

end Closing

section Reading

variable {schema strict : InputSchema}

theorem lookup_readProperties (properties : List (String × InputSchema)) (key : String) :
    (readProperties properties).lookup key = (properties.lookup key).map InputSchema.read := by
  induction properties with
  | nil => rfl
  | cons property rest ih =>
    rw [readProperties, List.lookup_cons, List.lookup_cons, ih]
    cases key == property.1 <;> rfl

theorem lookup_visitProperties (properties : List (String × InputSchema)) (key : String) :
    (visitProperties properties).lookup key = (properties.lookup key).map InputSchema.visit := by
  induction properties with
  | nil => rfl
  | cons property rest ih =>
    rw [visitProperties, List.lookup_cons, List.lookup_cons, ih]
    cases key == property.1 <;> rfl

/-- The properties that a schema declares. -/
def InputSchema.declared (schema : InputSchema) (key : String) : Option InputSchema :=
  if schema.declaresProperties then schema.spec.properties.lookup key else none

theorem read_properties (schema : InputSchema) (key : String) :
    schema.read.spec.properties.lookup key = (schema.declared key).map InputSchema.read := by
  obtain ⟨spec, declares, additional⟩ := schema
  cases declares with
  | false => rfl
  | true => exact lookup_readProperties _ _

theorem read_items (schema : InputSchema) :
    schema.read.spec.items = schema.spec.items.map InputSchema.read := by
  have hitems : ∀ items, readItems items = items.map InputSchema.read := by
    intro items
    cases items <;> rfl
  obtain ⟨spec, declares, additional⟩ := schema
  exact hitems spec.items

theorem read_additional (schema : InputSchema) :
    schema.read.spec.additionalProperties = decide (schema.additional ≠ some false) := by
  obtain ⟨spec, declares, additional⟩ := schema
  rfl

theorem visit_declared (schema : InputSchema) (key : String) :
    schema.visit.declared key = (schema.declared key).map InputSchema.visit := by
  obtain ⟨spec, declares, additional⟩ := schema
  cases declares with
  | false => rfl
  | true => exact lookup_visitProperties _ _

theorem visit_items (schema : InputSchema) :
    schema.visit.spec.items = schema.spec.items.map InputSchema.visit := by
  have hitems : ∀ items, visitItems items = items.map InputSchema.visit := by
    intro items
    cases items <;> rfl
  obtain ⟨spec, declares, additional⟩ := schema
  exact hitems spec.items

theorem visit_additional (schema : InputSchema) : schema.visit.additional =
    if SchemaType.isObject schema.spec.type ∧ schema.declaresProperties ∧ schema.additional = none
    then some false else schema.additional := by
  obtain ⟨spec, declares, additional⟩ := schema
  rfl

end Reading

section Validated

/-- A value of the arguments that the validation gets to, and the schema it has there: by declared
properties and by the items of lists. -/
inductive Reached (schema : InputSchema) (value : Value) : InputSchema → Value → Prop
  | root : Reached schema value schema value
  | property {outer inner : InputSchema} {fields : List (String × Value)} {key : String}
      {item : Value} : Reached schema value outer (.object fields) → (key, item) ∈ fields →
        outer.declared key = some inner → Reached schema value inner item
  | item {outer inner : InputSchema} {items : List Value} {item : Value} :
      Reached schema value outer (.list items) → item ∈ items → outer.spec.items = some inner →
        Reached schema value inner item

/-- The schema has properties and leaves it open what else there may be. -/
def InputSchema.leavesOpen (schema : InputSchema) : Prop :=
  schema.declaresProperties = true ∧ schema.additional = none

/-- Every key of the objects reached is declared by their schema, where it has properties and does not
set `additionalProperties` itself. -/
def KeysDeclared (schema : InputSchema) (value : Value) : Prop :=
  ∀ inner fields, Reached schema value inner (.object fields) → inner.leavesOpen →
    ∀ field ∈ fields, (inner.declared field.1).isSome

/-- Every key of these objects that is not declared has a value other than null, and is under a schema
whose type is just an object. -/
def UndeclaredRefusable (schema : InputSchema) (value : Value) : Prop :=
  ∀ inner fields, Reached schema value inner (.object fields) → inner.leavesOpen →
    ∀ field ∈ fields, inner.declared field.1 = none →
      field.2.isNull = false ∧ SchemaType.isObject inner.spec.type = true

variable {py : Python} {schema strict inner : InputSchema} {spec : SchemaSpec Schema}
  {checked : Schema} {path : String}

/-- What the validator has for a schema of the tool. -/
structure Checks (schema : InputSchema) (checked : Schema) : Prop where
  properties : ∀ key, checked.spec.properties.lookup key =
    (schema.declared key).map fun inner => inner.visit.read
  items : checked.spec.items = schema.spec.items.map fun inner => inner.visit.read
  closed : schema.leavesOpen →
    (checked.spec.additionalProperties = false ↔ SchemaType.isObject schema.spec.type = true)

theorem checks_visit (schema : InputSchema) : Checks schema schema.visit.read where
  properties key := by
    rw [read_properties, visit_declared, Option.map_map]
    rfl
  items := by
    rw [read_items, visit_items, Option.map_map]
    rfl
  closed := by
    rintro ⟨hdeclares, hadditional⟩
    rw [read_additional, visit_additional, hdeclares, hadditional]
    simp

theorem checks_strict (h : strictInputSchema schema = .ok strict) : Checks schema strict.read := by
  have hvisit := checks_visit schema
  unfold strictInputSchema at h
  dsimp only at h
  split at h
  · rename_i hobject
    obtain rfl := Except.ok.inj h
    refine ⟨?_, ?_, ?_⟩
    · intro key
      rw [← hvisit.properties, read_properties, read_properties]
      rfl
    · rw [← hvisit.items, read_items, read_items]
      rfl
    · rintro ⟨hdeclares, hadditional⟩
      have htype : schema.visit.spec.type = schema.spec.type := by
        cases schema
        rfl
      rw [htype] at hobject
      have hclosed : schema.visit.additional = some false := by
        rw [visit_additional, if_pos ⟨hobject, hdeclares, hadditional⟩]
      rw [read_additional]
      change decide (some (schema.visit.additional.getD false) ≠ some false) = false ↔ _
      rw [hclosed]
      exact iff_of_true rfl hobject
  · cases h

/-- A field with a value is validated by the schema of its key, or may be there without one. -/
theorem mem_validateFields {fields : List (String × Value)}
    (h : validateFields py spec path fields = []) {field : String × Value} (hmem : field ∈ fields)
    (hnull : field.2.isNull = false) :
    (∀ schema, spec.properties.lookup field.1 = some schema →
      ∃ path, validateSchema py schema path field.2 = []) ∧
    (spec.properties.lookup field.1 = none → spec.additionalProperties = true) := by
  induction fields with
  | nil => cases hmem
  | cons first fields ih =>
    obtain ⟨key, item⟩ := first
    rw [validateFields, List.append_eq_nil_iff] at h
    rcases List.mem_cons.mp hmem with rfl | hlater
    · have hfirst := h.1
      rw [if_neg (by simpa using hnull)] at hfirst
      constructor
      · intro schema hlookup
        rw [hlookup] at hfirst
        exact ⟨_, hfirst⟩
      · intro hlookup
        rw [hlookup] at hfirst
        dsimp only at hfirst
        split at hfirst
        · assumption
        · cases hfirst
    · exact ih h.2 hlater

theorem mem_validateItems {items : List Value} {index : Nat}
    (h : validateItems py spec path index items = []) {item : Value} (hmem : item ∈ items)
    {schema : Schema} (hitems : spec.items = some schema) :
    ∃ path, validateSchema py schema path item = [] := by
  induction items generalizing index with
  | nil => cases hmem
  | cons first items ih =>
    rw [validateItems, List.append_eq_nil_iff] at h
    rcases List.mem_cons.mp hmem with rfl | hlater
    · have hfirst := h.1
      rw [hitems] at hfirst
      exact ⟨_, hfirst⟩
    · exact ih h.2 hlater

theorem validateSchema_object {fields : List (String × Value)}
    (h : validateSchema py checked path (.object fields) = []) :
    validateFields py checked.spec path fields = [] := by
  rw [validateSchema] at h
  split at h
  · contradiction
  · exact (List.append_eq_nil_iff.mp h).2

theorem validateSchema_list {items : List Value}
    (h : validateSchema py checked path (.list items) = []) :
    validateItems py checked.spec path 0 items = [] := by
  rw [validateSchema] at h
  split at h
  · contradiction
  · exact (List.append_eq_nil_iff.mp h).2

/-- A value that is reached has passed the validation with its schema, unless it is null. -/
theorem validated_reached {value item : Value} (hchecks : Checks schema checked)
    (hvalid : validateSchema py checked path value = [])
    (h : Reached schema value inner item) :
    item.isNull = true ∨ ∃ checked path, Checks inner checked ∧
      validateSchema py checked path item = [] := by
  induction h with
  | root => exact .inr ⟨checked, path, hchecks, hvalid⟩
  | @property outer inner fields key item _ hmem hdeclared ih =>
    cases hnull : item.isNull with
    | true => exact .inl rfl
    | false =>
      obtain hobject | ⟨checked, path, hchecks, hvalid⟩ := ih
      · cases hobject
      · obtain ⟨path, hitem⟩ := (mem_validateFields (validateSchema_object hvalid) hmem hnull).1
          inner.visit.read (by rw [hchecks.properties, hdeclared]; rfl)
        exact .inr ⟨_, path, checks_visit inner, hitem⟩
  | @item outer inner items item _ hmem hitems ih =>
    obtain hlist | ⟨checked, path, hchecks, hvalid⟩ := ih
    · cases hlist
    · have hread : checked.spec.items = some inner.visit.read := by
        rw [hchecks.items, hitems]
        rfl
      obtain ⟨path, hitem⟩ := mem_validateItems (validateSchema_list hvalid) hmem hread
      exact .inr ⟨_, path, checks_visit inner, hitem⟩

/-- Validated arguments have no key that is not declared exactly if none is null or under a schema that
is not closed. -/
theorem validated_keysDeclared_iff {arguments : List (String × Value)}
    (hstrict : strictInputSchema schema = .ok strict)
    (hvalid : validateArguments py strict.read arguments = []) :
    KeysDeclared schema (.object arguments) ↔ UndeclaredRefusable schema (.object arguments) := by
  constructor
  · intro hdeclared inner fields hreached hopen field hfield hnone
    have hsome := hdeclared inner fields hreached hopen field hfield
    rw [hnone] at hsome
    cases hsome
  · intro hrefusable inner fields hreached hopen field hfield
    cases hnone : inner.declared field.1 with
    | some _ => rfl
    | none =>
      obtain ⟨hnull, hobject⟩ := hrefusable inner fields hreached hopen field hfield hnone
      have hroot := List.map_eq_nil_iff.mp hvalid
      obtain hisNull | ⟨checked, path, hchecks, hvalid⟩ :=
        validated_reached (checks_strict hstrict) hroot hreached
      · cases hisNull
      · have hopened := (mem_validateFields (validateSchema_object hvalid) hfield hnull).2
          (by rw [hchecks.properties, hnone]; rfl)
        rw [(hchecks.closed hopen).mpr hobject] at hopened
        cases hopened

/-- A schema of the type with one property, a text. -/
def querySchema (type : SchemaType) : InputSchema :=
  .mk { type := some type, properties := [("q", .mk { type := some (.one "string") } false none)] }
    true none

/-- A schema with one property of this schema. -/
def filterSchema (filter : InputSchema) : InputSchema :=
  .mk { type := some (.one "object"), properties := [("filter", filter)] } true none

theorem validated_keysDeclared_query :
    KeysDeclared (querySchema (.one "object")) (.object [("q", .str "a")]) ↔
      UndeclaredRefusable (querySchema (.one "object")) (.object [("q", .str "a")]) := by
  have hvalid : validateArguments ⟨fun _ _ => some true, id⟩
      (InputSchema.mk (querySchema (.one "object")).visit.spec true (some false)).read
      [("q", .str "a")] = [] := by decide
  exact validated_keysDeclared_iff rfl hvalid

/-- A nested object that may be null instead is not closed. -/
theorem not_keysDeclared_nullable :
    ∃ strict, strictInputSchema (filterSchema (querySchema (.anyOf ["object", "null"]))) = .ok strict ∧
      validateArguments ⟨fun _ _ => some true, id⟩ strict.read
        [("filter", .object [("other", .int 1)])] = [] ∧
      ¬KeysDeclared (filterSchema (querySchema (.anyOf ["object", "null"])))
        (.object [("filter", .object [("other", .int 1)])]) := by
  refine ⟨_, rfl, by decide, fun hdeclared => ?_⟩
  have hnested : Reached (filterSchema (querySchema (.anyOf ["object", "null"])))
      (.object [("filter", .object [("other", .int 1)])]) (querySchema (.anyOf ["object", "null"]))
      (.object [("other", .int 1)]) := .property .root List.mem_cons_self rfl
  exact absurd (hdeclared _ _ hnested ⟨rfl, rfl⟩ _ List.mem_cons_self) (by decide)

end Validated

end Cygnus.Session
