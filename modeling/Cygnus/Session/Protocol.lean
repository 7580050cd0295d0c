import Cygnus.Data.Sequence
import Cygnus.Data.Text
import Cygnus.Data.Uuid
import Mathlib.Data.Rat.Defs
import Mathlib.Algebra.Order.Ring.Unbundled.Rat
import Mathlib.Data.String.Basic

/-! The contract of the governed session tools: versions, actors, and the schemas that the arguments of
a call have to meet. -/

namespace Cygnus.Session

open Text Sequence

/-- Decoded arguments and results. A float is given by the rational it stands for. -/
inductive Value
  | null
  | bool (b : Bool)
  | int (n : Int)
  | float (q : ℚ)
  | str (s : String)
  | list (items : List Value)
  | object (fields : List (String × Value))

namespace Value

/-- The number that `==` and `<` compare by; a boolean counts as one. -/
def numeric : Value → Option ℚ
  | .bool b => some b.toInt
  | .int n => some n
  | .float q => some q
  | _ => none

def isNull : Value → Bool
  | .null => true
  | _ => false

mutual

/-- `value == constant` for a constant of a frozen schema, whose lists are tuples and equal no
list. -/
def eqFrozen : Value → Value → Bool
  | .null, .null => true
  | .str s, .str t => s == t
  | .object xs, .object ys => xs.length == ys.length && eqFields xs ys
  | x, y =>
    match x.numeric, y.numeric with
    | some p, some q => p == q
    | _, _ => false

def eqFields : List (String × Value) → List (String × Value) → Bool
  | [], _ => true
  | (k, x) :: xs, ys =>
    (match ys.lookup k with
      | some y => x.eqFrozen y
      | none => false) && eqFields xs ys

end

end Value

section Schema

/-- The `type` of a schema. -/
inductive SchemaType
  | one (name : String)
  | anyOf (names : List String)

/-- A number of a schema, with the text that `str` gives it. -/
structure SchemaNumber where
  value : ℚ
  text : String

/-- The constructs that the validator reads; the subschemas are of type `σ`. -/
structure SchemaSpec (σ : Type) where
  type : Option SchemaType := none
  const : Option Value := none
  enum : Option (List Value) := none
  minLength : Option Nat := none
  maxLength : Option Nat := none
  pattern : Option String := none
  format : Option String := none
  minimum : Option SchemaNumber := none
  maximum : Option SchemaNumber := none
  properties : List (String × σ) := []
  required : List String := []
  minProperties : Option Nat := none
  maxProperties : Option Nat := none
  additionalProperties : Bool := true
  minItems : Option Nat := none
  maxItems : Option Nat := none
  items : Option σ := none

inductive Schema
  | mk (spec : SchemaSpec Schema)

def Schema.spec : Schema → SchemaSpec Schema
  | mk spec => spec

/-- What the validator takes from the interpreter: `re.fullmatch`, with none for a pattern that does
not compile, and `repr` of a string. -/
structure Python where
  fullmatch : String → String → Option Bool
  repr : String → String

def typeMatches (value : Value) (expected : String) : Bool :=
  match expected, value with
  | "string", .str _ => true
  | "integer", .int _ => true
  | "number", .int _ => true
  | "number", .float _ => true
  | "boolean", .bool _ => true
  | "object", .object _ => true
  | "array", .list _ => true
  | "null", .null => true
  | _, _ => false

def SchemaType.admits (value : Value) : SchemaType → Bool
  | one name => typeMatches value name
  | anyOf names => names.any (typeMatches value)

def SchemaType.label : SchemaType → String
  | one name => name
  | anyOf names => " or ".intercalate names

/-- An error when a bound is given and broken. -/
def boundError {α : Type} (bound : Option α) (broken : α → Bool) (message : α → String) :
    List String :=
  match bound with
  | none => []
  | some limit => if broken limit then [message limit] else []

variable (py : Python)

def stringErrors (spec : SchemaSpec Schema) (value path : String) : List String :=
  boundError spec.minLength (value.length < ·) (fun n => s!"{path}: shorter than {n} characters") ++
    boundError spec.maxLength (· < value.length) (fun n => s!"{path}: longer than {n} characters") ++
    boundError spec.pattern (fun pattern => py.fullmatch pattern value ≠ some true)
      (fun _ => s!"{path}: does not match the required pattern") ++
    if spec.format = some "uuid" ∧ Uuid.parse value = none then [s!"{path}: not a valid uuid"] else []

def numberErrors (spec : SchemaSpec Schema) (value : ℚ) (path : String) : List String :=
  boundError spec.minimum (value < ·.value) (fun n => s!"{path}: below the minimum of {n.text}") ++
    boundError spec.maximum (·.value < value) (fun n => s!"{path}: above the maximum of {n.text}")

/-- The sizes and required fields of an object. -/
def objectErrors (spec : SchemaSpec Schema) (fields : List (String × Value)) (path : String) :
    List String :=
  let present := (fields.filter fun field => !field.2.isNull).length
  boundError spec.minProperties (present < ·) (fun n => s!"{path}: fewer than {n} properties") ++
    boundError spec.maxProperties (· < present) (fun n => s!"{path}: more than {n} properties") ++
    (sortedBy id spec.required.eraseDups).flatMap fun required =>
      match fields.lookup required with
      | none => [s!"{path}: missing required field {py.repr required}"]
      | some .null => [s!"{path}.{required}: required field must not be null"]
      | some _ => []

def listErrors (spec : SchemaSpec Schema) (items : List Value) (path : String) : List String :=
  boundError spec.minItems (items.length < ·) (fun n => s!"{path}: fewer than {n} items") ++
    boundError spec.maxItems (· < items.length) (fun n => s!"{path}: more than {n} items")

/-- The checks that end the validation of a value at once. -/
def mismatch (spec : SchemaSpec Schema) (value : Value) (path : String) : List String :=
  match spec.type with
  | some type =>
    if type.admits value then constErrors else [s!"{path}: expected {type.label}"]
  | none => constErrors
where
  constErrors : List String :=
    if spec.const.any fun constant => !value.eqFrozen constant then
      [s!"{path}: must equal the declared constant"]
    else if spec.enum.any fun allowed => allowed.all fun constant => !value.eqFrozen constant then
      [s!"{path}: not one of the allowed values"]
    else []

mutual

def validateSchema (schema : Schema) (path : String) : Value → List String
  | .object fields =>
    let spec := schema.spec
    let early := mismatch spec (.object fields) path
    if early ≠ [] then early
    else objectErrors py spec fields path ++ validateFields spec path fields
  | .list items =>
    let spec := schema.spec
    let early := mismatch spec (.list items) path
    if early ≠ [] then early
    else listErrors spec items path ++ validateItems spec path 0 items
  | .str s =>
    let early := mismatch schema.spec (.str s) path
    if early ≠ [] then early else stringErrors py schema.spec s path
  | .int n =>
    let early := mismatch schema.spec (.int n) path
    if early ≠ [] then early else numberErrors schema.spec n path
  | .float q =>
    let early := mismatch schema.spec (.float q) path
    if early ≠ [] then early else numberErrors schema.spec q path
  | .bool b => mismatch schema.spec (.bool b) path
  | .null => mismatch schema.spec .null path

def validateFields (spec : SchemaSpec Schema) (path : String) : List (String × Value) → List String
  | [] => []
  | (key, item) :: fields =>
    (if item.isNull then []
      else match spec.properties.lookup key with
        | none =>
          if spec.additionalProperties then [] else [s!"{path}: unexpected field {py.repr key}"]
        | some schema => validateSchema schema s!"{path}.{key}" item) ++
      validateFields spec path fields

def validateItems (spec : SchemaSpec Schema) (path : String) (index : Nat) :
    List Value → List String
  | [] => []
  | item :: items =>
    (match spec.items with
      | none => []
      | some schema => validateSchema schema s!"{path}[{index}]" item) ++
      validateItems spec path (index + 1) items

end

/-- `str.removeprefix`. -/
def removeLead (lead s : String) : String :=
  if lead.toList.isPrefixOf s.toList then String.ofList (s.toList.drop lead.length) else s

def validateArguments (schema : Schema) (arguments : List (String × Value)) : List String :=
  (validateSchema py schema "arguments" (.object arguments)).map fun error =>
    removeLead "arguments." (removeLead "arguments: " error)

end Schema

section Contract

def sessionContractVersion : String := "1.0"

/-- A number of a version: no leading zero. -/
def isVersionNumber (s : String) : Bool :=
  s = "0" || (s ≠ "" && s.toList.all (fun c => '0' ≤ c && c ≤ '9') && s.toList.head? ≠ some '0')

/-- The major of a version of one, two or three numbers. -/
def versionMajor (s : String) : Option String :=
  let numbers := split '.' s
  if numbers.length ≤ 3 && numbers.all isVersionNumber then numbers.head? else none

structure SessionContractVersionError where
  requestedVersion : Value
  code : String

def SessionContractVersionError.message (error : SessionContractVersionError) : String :=
  if error.code = "missing_contract_version" then "A session contract version is required."
  else "The requested session contract major is not supported."

def negotiateSessionContractVersion (requested : Value) :
    Except SessionContractVersionError String :=
  match requested with
  | .str version =>
    if strip version = "" then .error ⟨requested, "missing_contract_version"⟩
    else match versionMajor (strip version), versionMajor sessionContractVersion with
      | some major, some active =>
        if major = active then .ok sessionContractVersion
        else .error ⟨requested, "incompatible_contract_version"⟩
      | _, _ => .error ⟨requested, "incompatible_contract_version"⟩
  | _ => .error ⟨requested, "missing_contract_version"⟩

inductive SessionToolPermission
  | authenticated
  | wikiContribute
  | administrator
  deriving DecidableEq

def SessionToolPermission.value : SessionToolPermission → String
  | authenticated => "authenticated"
  | wikiContribute => "wiki:write:*"
  | administrator => "administrator"

structure SessionActorScope where
  authenticated : Bool := true
  isAdmin : Bool := false
  permissions : List String := []

/-- What a caller hands over as the actor: nothing, a scope, or an object with some attributes. -/
inductive SessionActor
  | none
  | scope (scope : SessionActorScope)
  | object (permissions : Option (List Value)) (role : Value) (isAdmin : Bool)

def SessionActorScope.fromActor : SessionActor → SessionActorScope
  | .none => { authenticated := false }
  | .scope scope => scope
  | .object permissions role isAdmin =>
    { isAdmin := isAdmin || role.eqFrozen (.str "admin"),
      permissions := (permissions.getD []).filterMap fun item =>
        match item with
        | .str permission => some permission
        | _ => none }

def SessionActorScope.allows (scope : SessionActorScope) (requirement : SessionToolPermission) :
    Bool :=
  if !scope.authenticated then false
  else if requirement = .authenticated then true
  else if scope.isAdmin then true
  else if requirement = .wikiContribute then
    scope.permissions.any (· ∈ ["wiki:write:own_dept", "wiki:write:all"])
  else false

inductive RetryMode
  | never
  | transientOnly
  deriving DecidableEq

structure SessionRetryPolicy where
  mode : RetryMode
  maxAttempts : Nat
  backoffMs : Nat := 0
  retryableErrorCodes : List String := []
  attempts_pos : 1 ≤ maxAttempts

/-- The fields that execution reads. -/
structure SessionToolManifest where
  name : String
  inputSchema : Schema
  permissionRequirement : SessionToolPermission
  sideEffectClass : String
  timeoutSeconds : Nat
  retryPolicy : SessionRetryPolicy
  timeout_pos : 1 ≤ timeoutSeconds

abbrev SessionManifest := List SessionToolManifest

/-- `SessionManifest.tool`. -/
def SessionManifest.tool (manifest : SessionManifest) (name : String) : Option SessionToolManifest :=
  manifest.find? (·.name = name)

structure ToolCall where
  id : String
  name : String
  arguments : List (String × Value)

abbrev Envelope := List (String × Value)

def resultEnvelope (status summary : String) (data : Envelope) (errors : List String)
    (contractVersion : String) : Envelope :=
  [("contract_version", .str contractVersion), ("status", .str status), ("summary", .str summary),
    ("data", .object data), ("warnings", .list []), ("errors", .list (errors.map .str))]

def sessionContractErrorEnvelope (error : SessionContractVersionError) : Envelope :=
  [("contract_version", .str sessionContractVersion),
    ("status", .str "incompatible_contract_version"), ("summary", .str error.message),
    ("data", .object [("requested_contract_version", error.requestedVersion),
      ("supported_major", .str "1")]),
    ("warnings", .list []), ("errors", .list [.str error.code])]

end Contract

end Cygnus.Session
