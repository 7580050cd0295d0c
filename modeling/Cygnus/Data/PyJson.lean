import Cygnus.Data.JsonText
import Cygnus.Data.Utf8

/-! JSON documents as the `json` module of the interpreter reads and writes them: strings hold any
code points, and objects keep the order in which their keys came. -/

namespace Cygnus

open Sequence

/-- What `json.loads` returns; `R` are the floats. -/
inductive PyJson (R : Type)
  | null
  | bool (b : Bool)
  | int (n : Int)
  | real (x : R)
  | str (s : PyStr)
  | list (items : List (PyJson R))
  | object (fields : List (PyStr × PyJson R))

/-- `float(literal)`, the three constants outside the grammar, and `float.__repr__`. -/
structure Floats (R : Type) where
  parse : List Char → R
  nan : R
  infinity : R
  negInfinity : R
  repr : R → List Char

namespace PyJson

variable {R : Type}

section Write

/-- What stands for a code point between the quotes. -/
def escape (c : CodePoint) : List Char :=
  match Utf8.toChar? c with
  | some ch => Json.escape ch
  | none => Json.unicodeEscape c.1

def quote (s : PyStr) : List Char := '"' :: s.flatMap escape ++ ['"']

variable (floats : Floats R)

mutual

/-- The compact ASCII text. -/
def write : PyJson R → List Char
  | .null => ['n', 'u', 'l', 'l']
  | .bool true => ['t', 'r', 'u', 'e']
  | .bool false => ['f', 'a', 'l', 's', 'e']
  | .int n => (toString n).toList
  | .real x => floats.repr x
  | .str s => quote s
  | .list items => '[' :: writeItems items
  | .object fields => '{' :: writeFields fields

def writeItems : List (PyJson R) → List Char
  | [] => [']']
  | [item] => write item ++ [']']
  | item :: next :: items => write item ++ ',' :: writeItems (next :: items)

def writeFields : List (PyStr × PyJson R) → List Char
  | [] => ['}']
  | [(key, value)] => quote key ++ ':' :: write value ++ ['}']
  | (key, value) :: next :: fields =>
    quote key ++ ':' :: write value ++ ',' :: writeFields (next :: fields)

end

mutual

/-- The document as `sort_keys` writes it. -/
def sortKeys : PyJson R → PyJson R
  | .list items => .list (sortItems items)
  | .object fields => .object (sortedBy Prod.fst (sortFields fields))
  | document => document

def sortItems : List (PyJson R) → List (PyJson R)
  | [] => []
  | item :: items => item.sortKeys :: sortItems items

def sortFields : List (PyStr × PyJson R) → List (PyStr × PyJson R)
  | [] => []
  | (key, value) :: fields => (key, value.sortKeys) :: sortFields fields

end

def maxIntDigits : Nat := 4300

def intFits (n : Int) : Bool := (Nat.toDigits 10 n.natAbs).length ≤ maxIntDigits

mutual

/-- No integer is too long to be written, and lists and objects are nested at most `depth` deep. -/
def writable (depth : Nat) : PyJson R → Bool
  | .int n => intFits n
  | .list items => 0 < depth && itemsWritable (depth - 1) items
  | .object fields => 0 < depth && fieldsWritable (depth - 1) fields
  | _ => true

def itemsWritable (depth : Nat) : List (PyJson R) → Bool
  | [] => true
  | item :: items => writable depth item && itemsWritable depth items

def fieldsWritable (depth : Nat) : List (PyStr × PyJson R) → Bool
  | [] => true
  | (_, value) :: fields => writable depth value && fieldsWritable depth fields

end

/-- `json.dumps(document, sort_keys=True, separators=(",", ":"))`, where `none` is a `RecursionError`
or a `ValueError`. -/
def dumps (depth : Nat) (document : PyJson R) : Option (List Char) :=
  if document.writable depth then some (write floats document.sortKeys) else none

end Write

section Read

def isSpace (c : Char) : Bool := c = ' ' || c = '\t' || c = '\n' || c = '\r'

def skipSpace (cs : List Char) : List Char := cs.dropWhile isSpace

def isHigh (n : Nat) : Bool := 0xd800 ≤ n && n ≤ 0xdbff

def isLow (n : Nat) : Bool := 0xdc00 ≤ n && n ≤ 0xdfff

def point (n : Nat) : CodePoint := Fin.ofNat 0x110000 n

def hexDigit? (c : Char) : Option Nat :=
  if '0' ≤ c ∧ c ≤ '9' then some (c.toNat - '0'.toNat)
  else if 'a' ≤ c ∧ c ≤ 'f' then some (c.toNat - 'a'.toNat + 10)
  else if 'A' ≤ c ∧ c ≤ 'F' then some (c.toNat - 'A'.toNat + 10)
  else none

def readUnit : List Char → Option (Nat × List Char)
  | a :: b :: c :: d :: rest => do
    let a ← hexDigit? a
    let b ← hexDigit? b
    let c ← hexDigit? c
    let d ← hexDigit? d
    return (((a * 16 + b) * 16 + c) * 16 + d, rest)
  | _ => none

/-- The low surrogate whose escape comes next. -/
def readLow : List Char → Option (Nat × List Char)
  | '\\' :: 'u' :: rest => (readUnit rest).filter fun unit => isLow unit.1
  | _ => none

def readUnicode (cs : List Char) : Option (CodePoint × List Char) := do
  let (unit, rest) ← readUnit cs
  match if isHigh unit then readLow rest else none with
  | some (low, rest) => return (point (0x10000 + (unit - 0xd800) * 1024 + (low - 0xdc00)), rest)
  | none => return (point unit, rest)

def simpleEscape : Char → Option Char
  | '"' => some '"'
  | '\\' => some '\\'
  | '/' => some '/'
  | 'b' => some '\x08'
  | 'f' => some '\x0c'
  | 'n' => some '\n'
  | 'r' => some '\r'
  | 't' => some '\t'
  | _ => none

def readEscape : List Char → Option (CodePoint × List Char)
  | [] => none
  | 'u' :: rest => readUnicode rest
  | c :: rest => (simpleEscape c).map fun c => (Utf8.ofChar c, rest)

/-- A string after its opening quote. -/
def readChars : Nat → List Char → Option (PyStr × List Char)
  | 0, _ => none
  | _, [] => none
  | _ + 1, '"' :: rest => some ([], rest)
  | fuel + 1, '\\' :: rest => do
    let (c, rest) ← readEscape rest
    let (s, rest) ← readChars fuel rest
    return (c :: s, rest)
  | fuel + 1, c :: rest =>
    if c.toNat < 32 then none
    else do
      let (s, rest) ← readChars fuel rest
      return (Utf8.ofChar c :: s, rest)

def readInteger : List Char → List Char × List Char
  | '0' :: rest => (['0'], rest)
  | cs => cs.span Char.isDigit

def readFraction : List Char → List Char × List Char
  | '.' :: rest =>
    match rest.span Char.isDigit with
    | ([], _) => ([], '.' :: rest)
    | (digits, rest) => ('.' :: digits, rest)
  | cs => ([], cs)

def readSign : List Char → List Char × List Char
  | '-' :: rest => (['-'], rest)
  | '+' :: rest => (['+'], rest)
  | cs => ([], cs)

def readExponent : List Char → List Char × List Char
  | e :: rest =>
    if e = 'e' ∨ e = 'E' then
      let (sign, digits) := readSign rest
      match digits.span Char.isDigit with
      | ([], _) => ([], e :: rest)
      | (digits, rest) => (e :: sign ++ digits, rest)
    else ([], e :: rest)
  | [] => ([], [])

variable (floats : Floats R)

def readNumber (cs : List Char) : Option (PyJson R × List Char) :=
  let (sign, cs) := match cs with
    | '-' :: rest => (['-'], rest)
    | cs => ([], cs)
  let (digits, cs) := readInteger cs
  if digits = [] then none
  else
    let (fraction, cs) := readFraction cs
    let (exponent, cs) := readExponent cs
    if fraction = [] ∧ exponent = [] then
      let value : Int := Nat.ofDigitChars 10 digits 0
      if digits.length ≤ maxIntDigits then
        some (.int (if sign = [] then value else -value), cs)
      else none
    else some (.real (floats.parse (sign ++ digits ++ fraction ++ exponent)), cs)

/-- `true`, `false`, `null` and, unless they are refused, the constants outside the grammar. -/
def readConstant (constants : Bool) (cs : List Char) : Option (PyJson R × List Char) :=
  match cs with
  | 'n' :: 'u' :: 'l' :: 'l' :: rest => some (.null, rest)
  | 't' :: 'r' :: 'u' :: 'e' :: rest => some (.bool true, rest)
  | 'f' :: 'a' :: 'l' :: 's' :: 'e' :: rest => some (.bool false, rest)
  | 'N' :: 'a' :: 'N' :: rest => if constants then some (.real floats.nan, rest) else none
  | 'I' :: 'n' :: 'f' :: 'i' :: 'n' :: 'i' :: 't' :: 'y' :: rest =>
    if constants then some (.real floats.infinity, rest) else none
  | '-' :: 'I' :: 'n' :: 'f' :: 'i' :: 'n' :: 'i' :: 't' :: 'y' :: rest =>
    if constants then some (.real floats.negInfinity, rest) else none
  | _ => none

variable (constants : Bool)

mutual

def readValue : Nat → Nat → List Char → Option (PyJson R × List Char)
  | 0, _, _ => none
  | _, _, '"' :: rest => (readChars (rest.length + 1) rest).map fun (s, rest) => (.str s, rest)
  | _, 0, '[' :: _ => none
  | fuel + 1, depth + 1, '[' :: rest =>
    match skipSpace rest with
    | ']' :: rest => some (.list [], rest)
    | rest => (readItems fuel depth rest).map fun (items, rest) => (.list items, rest)
  | _, 0, '{' :: _ => none
  | fuel + 1, depth + 1, '{' :: rest =>
    match skipSpace rest with
    | '}' :: rest => some (.object [], rest)
    | rest => (readFields fuel depth rest).map fun (fields, rest) =>
        (.object (Dict.ofList fields), rest)
  | _, _, cs => (readConstant floats constants cs).or (readNumber floats cs)

def readItems : Nat → Nat → List Char → Option (List (PyJson R) × List Char)
  | 0, _, _ => none
  | fuel + 1, depth, cs => do
    let (item, rest) ← readValue fuel depth cs
    match skipSpace rest with
    | ']' :: rest => return ([item], rest)
    | ',' :: rest => do
      let (items, rest) ← readItems fuel depth (skipSpace rest)
      return (item :: items, rest)
    | _ => none

def readFields : Nat → Nat → List Char → Option (List (PyStr × PyJson R) × List Char)
  | 0, _, _ => none
  | fuel + 1, depth, '"' :: rest => do
    let (key, rest) ← readChars (rest.length + 1) rest
    match skipSpace rest with
    | ':' :: rest => do
      let (value, rest) ← readValue fuel depth (skipSpace rest)
      match skipSpace rest with
      | '}' :: rest => return ([(key, value)], rest)
      | ',' :: rest => do
        let (fields, rest) ← readFields fuel depth (skipSpace rest)
        return ((key, value) :: fields, rest)
      | _ => none
    | _ => none
  | _, _, _ => none

end

/-- `json.loads` of a text without surrogates, where `none` is a `ValueError` or a
`RecursionError`. -/
def loads (depth : Nat) (text : List Char) : Option (PyJson R) :=
  if text.head? = some '\ufeff' then none
  else do
    let (document, rest) ← readValue floats constants (text.length + 1) depth (skipSpace text)
    if skipSpace rest = [] then return document else none

end Read

end PyJson

end Cygnus
