import Cygnus.Data.Dict
import Cygnus.Data.Sequence
import Cygnus.Data.Utf8

/-! The objects handed to the queue encoder and the values its decoder builds. -/

namespace Cygnus.Queue

open Sequence

abbrev Bytes := List UInt8

inductive ExceptionClass
  | runtimeError
  | valueError
  | keyError
  | typeError
  | lookupError
  | timeoutError
  | osError
  | cancelledError
  | exception
  deriving DecidableEq

/-- `_SAFE_EXCEPTION_CLASSES.get(name, Exception)`. -/
def ExceptionClass.ofName (name : PyStr) : ExceptionClass :=
  let table := [("RuntimeError", runtimeError), ("ValueError", valueError), ("KeyError", keyError),
    ("TypeError", typeError), ("LookupError", lookupError), ("TimeoutError", timeoutError),
    ("OSError", osError), ("CancelledError", cancelledError),
    ("asyncio.CancelledError", cancelledError)]
  ((table.find? fun entry => Utf8.ofString entry.1 = name).map Prod.snd).getD exception

/-- `cls.__name__`. -/
def ExceptionClass.name : ExceptionClass → PyStr
  | runtimeError => Utf8.ofString "RuntimeError"
  | valueError => Utf8.ofString "ValueError"
  | keyError => Utf8.ofString "KeyError"
  | typeError => Utf8.ofString "TypeError"
  | lookupError => Utf8.ofString "LookupError"
  | timeoutError => Utf8.ofString "TimeoutError"
  | osError => Utf8.ofString "OSError"
  | cancelledError => Utf8.ofString "CancelledError"
  | exception => Utf8.ofString "Exception"

/-- A decoded value. An exception keeps its class and positional arguments. -/
inductive Value
  | none
  | bool (b : Bool)
  | int (i : Int)
  | str (s : PyStr)
  | bytes (bs : Bytes)
  | list (items : List Value)
  | tuple (items : List Value)
  | map (entries : List (PyStr × Value))
  | exc (cls : ExceptionClass) (args : List Value)

inductive DictKey
  | str (s : PyStr)
  | other

/-- An object offered to the encoder. An exception also carries its text, `str(exc)`; `other` is an
object of a type outside the allowlist. -/
inductive PyObj
  | none
  | bool (b : Bool)
  | int (i : Int)
  | str (s : PyStr)
  | bytes (bs : Bytes)
  | bytearray (bs : Bytes)
  | list (items : List PyObj)
  | tuple (items : List PyObj)
  | dict (entries : List (DictKey × PyObj))
  | exc (name text : PyStr) (args : List PyObj)
  | other (typeName : String)

section ToObj

-- `str(exc)` of a reconstructed exception
variable (text : ExceptionClass → List Value → PyStr)

mutual

def Value.toObj : Value → PyObj
  | .none => .none
  | .bool b => .bool b
  | .int i => .int i
  | .str s => .str s
  | .bytes bs => .bytes bs
  | .list items => .list (itemsToObj items)
  | .tuple items => .tuple (itemsToObj items)
  | .map entries => .dict (entriesToObj entries)
  | .exc cls args => .exc cls.name (text cls args) (itemsToObj args)

def itemsToObj : List Value → List PyObj
  | [] => []
  | v :: vs => v.toObj :: itemsToObj vs

def entriesToObj : List (PyStr × Value) → List (DictKey × PyObj)
  | [] => []
  | (k, v) :: rest => (.str k, v.toObj) :: entriesToObj rest

end

@[simp] theorem itemsToObj_eq (vs : List Value) :
    itemsToObj text vs = vs.map (Value.toObj text) := by
  induction vs with
  | nil => rfl
  | cons v vs ih => rw [itemsToObj, ih, List.map_cons]

@[simp] theorem entriesToObj_eq (entries : List (PyStr × Value)) :
    entriesToObj text entries = entries.map fun e => (.str e.1, e.2.toObj text) := by
  induction entries with
  | nil => rfl
  | cons e entries ih => rw [entriesToObj, ih, List.map_cons]

end ToObj

mutual

/-- The value with every map in key order: equal values in the sense of Python, types
distinguished, are those with one canonical form. -/
def Value.canon : Value → Value
  | .none => .none
  | .bool b => .bool b
  | .int i => .int i
  | .str s => .str s
  | .bytes bs => .bytes bs
  | .list items => .list (canonItems items)
  | .tuple items => .tuple (canonItems items)
  | .map entries => .map (sortedBy Prod.fst (canonEntries entries))
  | .exc cls args => .exc cls (canonItems args)

def canonItems : List Value → List Value
  | [] => []
  | v :: vs => v.canon :: canonItems vs

def canonEntries : List (PyStr × Value) → List (PyStr × Value)
  | [] => []
  | (k, v) :: rest => (k, v.canon) :: canonEntries rest

end

@[simp] theorem canonItems_eq (vs : List Value) : canonItems vs = vs.map Value.canon := by
  induction vs with
  | nil => rfl
  | cons v vs ih => rw [canonItems, ih, List.map_cons]

@[simp] theorem canonEntries_eq (entries : List (PyStr × Value)) :
    canonEntries entries = entries.map fun e => (e.1, e.2.canon) := by
  induction entries with
  | nil => rfl
  | cons e entries ih => rw [canonEntries, ih, List.map_cons]

mutual

def Value.depth : Value → Nat
  | .list items | .tuple items | .exc _ items => depthItems items
  | .map entries => depthEntries entries
  | _ => 0

def depthItems : List Value → Nat
  | [] => 0
  | v :: vs => max (v.depth + 1) (depthItems vs)

def depthEntries : List (PyStr × Value) → Nat
  | [] => 0
  | (_, v) :: rest => max (v.depth + 1) (depthEntries rest)

end

theorem depthItems_le_iff (vs : List Value) (n : Nat) :
    depthItems vs ≤ n ↔ ∀ v ∈ vs, v.depth + 1 ≤ n := by
  induction vs with
  | nil => simp [depthItems]
  | cons v vs ih => simp [depthItems, ih]

theorem depthEntries_le_iff (entries : List (PyStr × Value)) (n : Nat) :
    depthEntries entries ≤ n ↔ ∀ e ∈ entries, e.2.depth + 1 ≤ n := by
  induction entries with
  | nil => simp [depthEntries]
  | cons e entries ih => simp [depthEntries, ih]

def Value.children : Value → List Value
  | .list items | .tuple items | .exc _ items => items
  | .map entries => entries.map Prod.snd
  | _ => []

/-- A property of the value and of everything inside it. -/
inductive Value.Everywhere (P : Value → Prop) : Value → Prop
  | intro {v : Value} : P v → (∀ c ∈ v.children, Everywhere P c) → Everywhere P v

theorem Value.everywhere_iff {P : Value → Prop} {v : Value} :
    v.Everywhere P ↔ P v ∧ ∀ c ∈ v.children, c.Everywhere P := by
  constructor
  · rintro ⟨h, hchildren⟩
    exact ⟨h, hchildren⟩
  · rintro ⟨h, hchildren⟩
    exact ⟨h, hchildren⟩

theorem Value.everywhere_leaf {P : Value → Prop} {v : Value} (hleaf : v.children = []) (h : P v) :
    v.Everywhere P := by
  refine .intro h ?_
  rw [hleaf]
  intro c hc
  cases hc

/-- No exception occurs in the value. -/
def Value.NoException (v : Value) : Prop := v.Everywhere fun
  | .exc _ _ => False
  | _ => True

/-- A Python dict holds each key once. -/
def Value.DistinctKeys (v : Value) : Prop := v.Everywhere fun
  | .map entries => (entries.map Prod.fst).Nodup
  | _ => True

end Cygnus.Queue
