import Cygnus.Data.Json
import Cygnus.Data.Sequence
import Cygnus.Data.Uuid
import Mathlib.Data.String.Basic

/-! The compact ASCII text of a document with its keys in order. -/

namespace Cygnus.Json

open Sequence

section Strings

def hexDigits (n : Nat) : List Char :=
  [n / 4096 % 16, n / 256 % 16, n / 16 % 16, n % 16].map Uuid.hexDigit

def unicodeEscape (n : Nat) : List Char := '\\' :: 'u' :: hexDigits n

/-- What stands for a character between the quotes: outside ASCII its UTF-16 units. -/
def escape (c : Char) : List Char :=
  if c = '"' ∨ c = '\\' then ['\\', c]
  else if c = '\n' then ['\\', 'n']
  else if c = '\r' then ['\\', 'r']
  else if c = '\t' then ['\\', 't']
  else if c = '\x0c' then ['\\', 'f']
  else if c = '\x08' then ['\\', 'b']
  else if ' ' ≤ c ∧ c ≤ '~' then [c]
  else if c.toNat < 65536 then unicodeEscape c.toNat
  else
    let n := c.toNat - 65536
    unicodeEscape (55296 + n / 1024) ++ unicodeEscape (56320 + n % 1024)

def quote (s : String) : List Char := '"' :: s.toList.flatMap escape ++ ['"']

end Strings

mutual

def render : Json → List Char
  | .null => "null".toList
  | .bool true => "true".toList
  | .bool false => "false".toList
  | .int n => (toString n).toList
  | .str s => quote s
  | .list items => '[' :: [','].intercalate (renderItems items) ++ [']']
  | .object fields =>
    '{' :: [','].intercalate ((sortedBy Prod.fst (renderFields fields)).map fun field =>
      quote field.1 ++ ':' :: field.2) ++ ['}']

def renderItems : List Json → List (List Char)
  | [] => []
  | item :: items => render item :: renderItems items

def renderFields : List (String × Json) → List (String × List Char)
  | [] => []
  | (key, value) :: fields => (key, render value) :: renderFields fields

end

/-- `json.dumps(document, sort_keys=True, separators=(",", ":"))`. -/
def dumps (document : Json) : String := String.ofList (render document)

end Cygnus.Json
