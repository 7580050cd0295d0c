import Cygnus.Data.Result
import Cygnus.Data.Sequence
import Mathlib.Data.List.DropRight

/-! Python's `str.strip`, and the strip-and-deduplicate pass that validated records run over their
string lists. -/

namespace Cygnus.Text

open Result Sequence

/-- The code points for which `str.isspace` holds. -/
def isSpace (c : Char) : Bool :=
  let n := c.toNat
  (0x09 ≤ n && n ≤ 0x0D) || (0x1C ≤ n && n ≤ 0x20) || n == 0x85 || n == 0xA0 || n == 0x1680 ||
    (0x2000 ≤ n && n ≤ 0x200A) || n == 0x2028 || n == 0x2029 || n == 0x202F || n == 0x205F ||
    n == 0x3000

def strip (s : String) : String :=
  String.ofList ((s.toList.dropWhile isSpace).rdropWhile isSpace)

def Stripped (s : String) : Prop := strip s = s ∧ s ≠ ""

instance : DecidablePred Stripped := fun s => inferInstanceAs (Decidable (strip s = s ∧ s ≠ ""))

/-- Trimming the right end keeps the left end trimmed. -/
theorem dropWhile_rdropWhile_dropWhile (p : α → Bool) (xs : List α) :
    ((xs.dropWhile p).rdropWhile p).dropWhile p = (xs.dropWhile p).rdropWhile p := by
  rw [List.dropWhile_eq_self_iff]
  intro hlen
  have hne : xs.dropWhile p ≠ [] := by
    intro h
    simp [h] at hlen
  obtain ⟨tail, htail⟩ := List.rdropWhile_prefix p (xs.dropWhile p)
  have hget : (xs.dropWhile p)[0]? = some (((xs.dropWhile p).rdropWhile p).get ⟨0, hlen⟩) := by
    conv_lhs => rw [← htail]
    rw [List.getElem?_append_left hlen, List.getElem?_eq_getElem hlen]
    rfl
  rw [← List.head?_eq_getElem?, List.head?_eq_some_head hne] at hget
  have hhead := List.head_dropWhile_not p hne
  rw [Option.some.inj hget] at hhead
  simpa using hhead

@[simp] theorem strip_strip (s : String) : strip (strip s) = strip s := by
  simp only [strip, String.toList_ofList, dropWhile_rdropWhile_dropWhile,
    List.rdropWhile_idempotent]

theorem stripped_strip {s : String} (h : strip s ≠ "") : Stripped (strip s) := ⟨strip_strip s, h⟩

/-- The loop the record constructors share: strip every value, refuse a blank one with the
caller's error, keep the first occurrence of each. -/
def normalizeStrings (blank : ε) (values : List String) : Except ε (List String) := do
  let stripped ← values.mapM fun raw => do
    require (strip raw ≠ "") blank
    return strip raw
  return stripped.eraseDups

theorem normalizeStrings_ok {blank : ε} {values out : List String}
    (h : normalizeStrings blank values = .ok out) :
    out = (values.map strip).eraseDups ∧ ∀ v ∈ values, strip v ≠ "" := by
  simp only [normalizeStrings, bind_ok, pure_ok] at h
  obtain ⟨stripped, hm, rfl⟩ := h
  constructor
  · rw [mapM_ok_map (g := strip) _ hm]
    intro v _ w hw
    simp only [bind_ok, require_ok, pure_ok] at hw
    obtain ⟨-, -, rfl⟩ := hw
    rfl
  · intro v hv
    obtain ⟨w, -, hw⟩ := exists_of_mapM_ok hm hv
    simp only [bind_ok, require_ok] at hw
    obtain ⟨-, hne, -⟩ := hw
    exact hne

theorem normalizeStrings_of_forall (blank : ε) {values : List String}
    (h : ∀ v ∈ values, strip v ≠ "") :
    normalizeStrings blank values = .ok (values.map strip).eraseDups := by
  have hreturns : Returns (normalizeStrings blank values) := by
    refine Returns.bind (returns_mapM fun v hv => ?_) fun _ _ => returns_pure _
    exact Returns.bind (returns_require.mpr (h v hv)) fun _ _ => returns_pure _
  obtain ⟨out, hout⟩ := hreturns
  rw [hout, (normalizeStrings_ok hout).1]

theorem normalizeStrings_stripped {blank : ε} {values out : List String}
    (h : normalizeStrings blank values = .ok out) : ∀ v ∈ out, Stripped v := by
  obtain ⟨rfl, hall⟩ := normalizeStrings_ok h
  intro v hv
  rw [List.mem_eraseDups, List.mem_map] at hv
  obtain ⟨w, hw, rfl⟩ := hv
  exact stripped_strip (hall w hw)

theorem normalizeStrings_nodup {blank : ε} {values out : List String}
    (h : normalizeStrings blank values = .ok out) : out.Nodup := by
  obtain ⟨rfl, -⟩ := normalizeStrings_ok h
  exact nodup_eraseDups _

/-- The characters of a text with every occurrence of `old`, leftmost first, replaced; `skip` counts
the characters of a match still to be passed over. -/
def replaceChars (old new : List Char) (skip : Nat) : List Char → List Char
  | [] => []
  | c :: cs =>
    if 0 < skip then replaceChars old new (skip - 1) cs
    else if old.isPrefixOf (c :: cs) then new ++ replaceChars old new (old.length - 1) cs
    else c :: replaceChars old new 0 cs

/-- `str.replace`, for a nonempty `old`. -/
def replace (old new s : String) : String :=
  String.ofList (replaceChars old.toList new.toList 0 s.toList)

/-- The leftmost-first substitution of which `str.replace` and `re.sub` are cases: `found` is the text
for the match that starts here and the length of that match. -/
def substitute (found : List Char → Option (List Char × Nat)) (skip : Nat) : List Char → List Char
  | [] => []
  | c :: cs =>
    if 0 < skip then substitute found (skip - 1) cs
    else match found (c :: cs) with
      | some (new, length) => new ++ substitute found (length - 1) cs
      | none => c :: substitute found 0 cs

section Substitute

variable {found : List Char → Option (List Char × Nat)} {skip : Nat} {xs ys : List Char}

theorem substitute_skip (h : xs.length = skip) :
    substitute found skip (xs ++ ys) = substitute found 0 ys := by
  induction xs generalizing skip with
  | nil =>
    subst h
    rfl
  | cons x xs ih =>
    rw [List.length_cons] at h
    rw [List.cons_append, substitute, if_pos (by omega)]
    exact ih (by omega)

theorem substitute_hit {new : List Char} (hne : xs ≠ [])
    (h : found (xs ++ ys) = some (new, xs.length)) :
    substitute found 0 (xs ++ ys) = new ++ substitute found 0 ys := by
  cases xs with
  | nil => exact absurd rfl hne
  | cons x xs =>
    rw [List.cons_append] at h ⊢
    rw [substitute, if_neg (Nat.lt_irrefl 0), h]
    exact congrArg (new ++ ·) (substitute_skip rfl)

theorem substitute_miss (h : ∀ tail, tail <:+ xs → tail ≠ [] → found (tail ++ ys) = none) :
    substitute found 0 (xs ++ ys) = xs ++ substitute found 0 ys := by
  induction xs with
  | nil => rfl
  | cons x xs ih =>
    have hhere := h (x :: xs) List.suffix_rfl (List.cons_ne_nil x xs)
    rw [List.cons_append] at hhere ⊢
    rw [substitute, if_neg (Nat.lt_irrefl 0), hhere]
    exact congrArg (x :: ·) (ih fun tail htail => h tail (htail.trans (List.suffix_cons x xs)))

theorem replaceChars_eq_substitute {old new : List Char} (skip : Nat) (cs : List Char) :
    replaceChars old new skip cs = substitute
      (fun cs => if old.isPrefixOf cs then some (new, old.length) else none) skip cs := by
  induction cs generalizing skip with
  | nil => rfl
  | cons c cs ih =>
    rw [replaceChars, substitute]
    split
    · exact ih _
    · split
      · simp only [ih]
      · simp only [ih]

end Substitute

/-- A text in which `old` starts nowhere is kept. -/
theorem replaceChars_of_forall {old new cs : List Char}
    (h : ∀ tail, tail <:+ cs → ¬ old.isPrefixOf tail) : replaceChars old new 0 cs = cs := by
  induction cs with
  | nil => rfl
  | cons c cs ih =>
    rw [replaceChars, if_neg (Nat.lt_irrefl 0), if_neg (h _ List.suffix_rfl),
      ih fun tail htail => h tail (htail.trans (List.suffix_cons c cs))]

theorem replaceChars_of_not_mem {old new cs : List Char} {c : Char} (hold : old.head? = some c)
    (h : c ∉ cs) : replaceChars old new 0 cs = cs := by
  apply replaceChars_of_forall
  intro tail htail hstart
  cases old with
  | nil => cases hold
  | cons e old =>
    obtain rfl : e = c := by simpa using hold
    cases tail with
    | nil => cases hstart
    | cons d tail =>
      simp only [List.isPrefixOf_cons_cons, Bool.and_eq_true, beq_iff_eq] at hstart
      exact h (htail.subset (hstart.1 ▸ List.mem_cons_self))

theorem replace_of_not_mem {old new s : String} {c : Char} (hold : old.toList.head? = some c)
    (h : c ∉ s.toList) : replace old new s = s := by
  rw [replace, replaceChars_of_not_mem hold h, String.ofList_toList]

/-- Nothing is trimmed from a text without the characters to trim. -/
theorem trim_of_forall {p : Char → Bool} {cs : List Char} (h : ∀ c ∈ cs, p c = false) :
    (cs.dropWhile p).rdropWhile p = cs := by
  have hleft : cs.dropWhile p = cs := by
    rw [List.dropWhile_eq_self_iff]
    intro hlen
    rw [h _ (List.getElem_mem _)]
    exact Bool.false_ne_true
  rw [hleft, List.rdropWhile_eq_self_iff]
  intro hne
  simp [h _ (List.getLast_mem hne)]

theorem strip_of_forall {s : String} (h : ∀ c ∈ s.toList, isSpace c = false) : strip s = s := by
  rw [strip, trim_of_forall h, String.ofList_toList]

section Stops

variable {p : Char → Bool} {c : Char} {first rest : List Char}

theorem takeWhile_append_stop (h : ∀ d ∈ first, p d = true) (hc : p c = false) :
    (first ++ c :: rest).takeWhile p = first := by
  rw [List.takeWhile_append_of_pos h, List.takeWhile_cons_of_neg (by simp [hc]), List.append_nil]

theorem dropWhile_append_stop (h : ∀ d ∈ first, p d = true) (hc : p c = false) :
    (first ++ c :: rest).dropWhile p = c :: rest := by
  rw [List.dropWhile_append_of_pos h, List.dropWhile_cons_of_neg (by simp [hc])]

theorem rdropWhile_append_stop (hc : p c = false) :
    (first ++ c :: rest).rdropWhile p = first ++ c :: rest.rdropWhile p := by
  rw [List.rdropWhile, List.rdropWhile, List.reverse_append, List.reverse_cons, List.append_assoc,
    List.dropWhile_append]
  split
  · rename_i hnil
    rw [List.isEmpty_iff] at hnil
    rw [hnil, List.singleton_append, List.dropWhile_cons_of_neg (by simp [hc])]
    simp
  · simp

end Stops

section Integers

/-- A text with something in it besides blanks is not blank. -/
theorem strip_ne_empty {s : String} {c : Char} (hmem : c ∈ s.toList) (hc : isSpace c = false) :
    strip s ≠ "" := by
  intro hblank
  have hnil : (s.toList.dropWhile isSpace).rdropWhile isSpace = [] := by
    rw [← String.toList_ofList (l := (s.toList.dropWhile isSpace).rdropWhile isSpace)]
    rw [strip] at hblank
    rw [hblank]
    rfl
  rw [List.rdropWhile_eq_nil_iff] at hnil
  have hall : ∀ c ∈ s.toList, isSpace c = true := by
    intro d hd
    rw [← List.takeWhile_append_dropWhile (p := isSpace) (l := s.toList), List.mem_append] at hd
    rcases hd with hd | hd
    · exact List.mem_takeWhile_imp hd
    · exact hnil d hd
  rw [hall c hmem] at hc
  cases hc

theorem mem_intercalate_head {sep head : String} {tail : List String} {c : Char}
    (h : c ∈ head.toList) : c ∈ (sep.intercalate (head :: tail)).toList := by
  cases tail with
  | nil =>
    rw [String.intercalate_singleton]
    exact h
  | cons next tail =>
    rw [String.intercalate_cons_cons, String.toList_append, String.toList_append]
    exact List.mem_append_left _ (List.mem_append_left _ h)

/-- The position that an index of a slice stands for in a text of `n` characters. -/
def sliceIndex (n : Nat) (i : Int) : Nat := if i < 0 then (i + n).toNat else min i.toNat n

/-- `s[start:stop]`. -/
def slice (s : String) (start stop : Int) : String :=
  let first := sliceIndex s.length start
  String.ofList ((s.toList.drop first).take (sliceIndex s.length stop - first))

/-- `str.split` at a single character. -/
def split (sep : Char) (s : String) : List String := (s.toList.splitOn sep).map String.ofList

/-- The pieces of a text between the occurrences of `sep`, the first being `piece` reversed and
continued. -/
def splitPieces (sep : List Char) (skip : Nat) (piece : List Char) : List Char → List (List Char)
  | [] => [piece.reverse]
  | c :: cs =>
    match skip with
    | skip + 1 => splitPieces sep skip piece cs
    | 0 =>
      if sep.isPrefixOf (c :: cs) then piece.reverse :: splitPieces sep (sep.length - 1) [] cs
      else splitPieces sep 0 (c :: piece) cs

/-- `str.split` at a separator that is not empty. -/
def splitOn (sep s : String) : List String :=
  (splitPieces sep.toList 0 [] s.toList).map String.ofList

def isLineBreak (c : Char) : Bool :=
  c.toNat ∈ [0x0A, 0x0B, 0x0C, 0x0D, 0x1C, 0x1D, 0x1E, 0x85, 0x2028, 0x2029]

/-- The lines of a text, the first being `line` reversed and continued. -/
def lines (line : List Char) : List Char → List (List Char)
  | [] => if line = [] then [] else [line.reverse]
  | '\r' :: '\n' :: cs => line.reverse :: lines [] cs
  | c :: cs => if isLineBreak c then line.reverse :: lines [] cs else lines (c :: line) cs

/-- `str.splitlines`. -/
def splitLines (s : String) : List String := (lines [] s.toList).map String.ofList

/-- The digits of an integer literal: single underscores may separate them. -/
def decimalValue (acc : Nat) : List Char → Option Nat
  | [] => some acc
  | '_' :: c :: cs => if c.isDigit then decimalValue (10 * acc + (c.toNat - '0'.toNat)) cs else none
  | c :: cs => if c.isDigit then decimalValue (10 * acc + (c.toNat - '0'.toNat)) cs else none

/-- A literal without its sign starts with a digit. -/
def decimalNumber : List Char → Option Nat
  | [] => none
  | '_' :: _ => none
  | cs => decimalValue 0 cs

/-- `int(text)`. -/
def parseInt (s : String) : Option Int :=
  match (strip s).toList with
  | '-' :: cs => (decimalNumber cs).map fun n => -(n : Int)
  | '+' :: cs => (decimalNumber cs).map fun n => (n : Int)
  | cs => (decimalNumber cs).map fun n => (n : Int)

theorem isDigit_iff {c : Char} : c.isDigit = true ↔ 48 ≤ c.toNat ∧ c.toNat ≤ 57 := by
  simp only [Char.isDigit, Bool.and_eq_true, decide_eq_true_eq, ge_iff_le, UInt32.le_iff_toNat_le]
  rfl

theorem decimalValue_digits {cs : List Char} (h : ∀ c ∈ cs, c.isDigit) (acc : Nat) :
    decimalValue acc cs = some (Nat.ofDigitChars 10 cs acc) := by
  induction cs generalizing acc with
  | nil => rfl
  | cons c cs ih =>
    have hc := h c List.mem_cons_self
    have hne : c ≠ '_' := by
      rintro rfl
      exact absurd hc (by decide)
    rw [decimalValue, if_pos hc, ih (fun d hd => h d (List.mem_cons_of_mem _ hd)),
      Nat.ofDigitChars_cons]
    intro d ds hd
    exact absurd hd hne

theorem parseInt_toString (n : Nat) : parseInt (toString n) = some n := by
  have hdigits : ∀ c ∈ (toString n).toList, c.isDigit := by
    intro c hc
    rw [Nat.toString_eq_repr, Nat.toList_repr] at hc
    exact Nat.isDigit_of_mem_toDigits (by decide) (by decide) hc
  have hspace : ∀ c ∈ (toString n).toList, isSpace c = false := by
    intro c hc
    have := isDigit_iff.mp (hdigits c hc)
    simp [isSpace]
    omega
  have hvalue : decimalValue 0 (toString n).toList = some n := by
    rw [decimalValue_digits hdigits, Nat.toString_eq_repr, Nat.toList_repr,
      Nat.ofDigitChars_ten_toDigits]
  rw [parseInt, strip_of_forall hspace]
  -- the first character is a digit, so no case for a sign or an underscore applies
  cases hchars : (toString n).toList with
  | nil =>
    rw [Nat.toString_eq_repr] at hchars
    exact absurd (String.toList_eq_nil_iff.mp hchars) Nat.repr_ne_empty
  | cons c cs =>
    have hc := hdigits c (hchars ▸ List.mem_cons_self)
    rw [hchars] at hvalue
    have hnumber : decimalNumber (c :: cs) = some n := by
      unfold decimalNumber
      split
      · rename_i h
        cases h
      · rename_i h
        cases h
        exact absurd hc (by decide)
      · exact hvalue
    split
    · rename_i h
      cases h
      exact absurd hc (by decide)
    · rename_i h
      cases h
      exact absurd hc (by decide)
    · rw [hnumber]
      rfl

end Integers

end Cygnus.Text
