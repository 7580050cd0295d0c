import Mathlib.Data.List.Infix

/-! The `LIKE` operator of SQL: `%` stands for any text, `_` for any character, and a backslash takes
the next character literally. -/

namespace Cygnus.Like

def like : List Char → List Char → Bool
  | [], text => text.isEmpty
  | '%' :: pattern, text => text.tails.any (like pattern)
  | '_' :: pattern, text =>
    match text with
    | [] => false
    | _ :: text => like pattern text
  | '\\' :: c :: pattern, text =>
    match text with
    | [] => false
    | d :: text => c = d && like pattern text
  | c :: pattern, text =>
    match text with
    | [] => false
    | d :: text => c = d && like pattern text

/-- `column.contains(needle)`, which does not escape the needle. -/
def contains (column needle : String) : Bool :=
  like ('%' :: needle.toList ++ ['%']) column.toList

end Cygnus.Like
