import Cygnus.Data.Text
import Mathlib.Algebra.Order.Group.Nat
import Mathlib.Data.List.OfFn
import Mathlib.Data.Nat.Digits.Defs
import Mathlib.Tactic.NormNum

/-! 128-bit identifiers and their text form, eight-four-four-four-twelve hexadecimal digits. -/

namespace Cygnus

abbrev Uuid := Fin (2 ^ 128)

namespace Uuid

instance : NeZero (2 ^ 128) := ⟨by norm_num⟩

instance : LawfulBEq Uuid := inferInstance

def hexDigit (d : Nat) : Char := "0123456789abcdef".toList.getD d '0'

/-- The hexadecimal digit of weight `16 ^ place`. -/
def digitAt (u : Uuid) (place : Nat) : Nat := u.val / 16 ^ place % 16

def digits (u : Uuid) (places : List Nat) : List Char := places.map fun p => hexDigit (u.digitAt p)

/-- `str(uuid)`. -/
def text (u : Uuid) : String :=
  String.ofList (u.digits [31, 30, 29, 28, 27, 26, 25, 24] ++ '-' :: u.digits [23, 22, 21, 20] ++
    '-' :: u.digits [19, 18, 17, 16] ++ '-' :: u.digits [15, 14, 13, 12] ++
    '-' :: u.digits [11, 10, 9, 8, 7, 6, 5, 4, 3, 2, 1, 0])

theorem hexDigit_inj {a b : Nat} (ha : a < 16) (hb : b < 16) (h : hexDigit a = hexDigit b) :
    a = b := by
  have table : ∀ i j : Fin 16, hexDigit i = hexDigit j → i = j := by decide
  have := table ⟨a, ha⟩ ⟨b, hb⟩ h
  simpa using this

theorem eq_of_digits {k : Nat} {a b : Nat} (ha : a < 16 ^ k) (hb : b < 16 ^ k)
    (h : ∀ p < k, a / 16 ^ p % 16 = b / 16 ^ p % 16) : a = b := by
  induction k generalizing a b with
  | zero => omega
  | succ k ih =>
    have low : a % 16 = b % 16 := by simpa using h 0 k.succ_pos
    have high : a / 16 = b / 16 := by
      rw [pow_succ] at ha hb
      apply ih (by omega) (by omega)
      intro p hp
      have := h (p + 1) (by omega)
      rwa [pow_succ', ← Nat.div_div_eq_div_mul, ← Nat.div_div_eq_div_mul] at this
    omega

theorem digits_append_inj {u v : Uuid} {places : List Nat} {r s : List Char}
    (h : u.digits places ++ r = v.digits places ++ s) :
    (∀ p ∈ places, u.digitAt p = v.digitAt p) ∧ r = s := by
  obtain ⟨hdigits, hrest⟩ := List.append_inj h (by simp [digits])
  refine ⟨?_, hrest⟩
  intro p hp
  apply hexDigit_inj (Nat.mod_lt _ (by decide)) (Nat.mod_lt _ (by decide))
  exact List.map_inj_left.mp hdigits p hp

theorem text_injective : Function.Injective text := by
  intro u v h
  simp only [text, String.ofList_inj, List.append_assoc, List.cons_append] at h
  obtain ⟨hfirst, h⟩ := digits_append_inj h
  obtain ⟨hsecond, h⟩ := digits_append_inj (List.cons.inj h).2
  obtain ⟨hthird, h⟩ := digits_append_inj (List.cons.inj h).2
  obtain ⟨hfourth, h⟩ := digits_append_inj (List.cons.inj h).2
  obtain ⟨hfifth, -⟩ := digits_append_inj (r := []) (s := []) (by simpa using (List.cons.inj h).2)
  apply Fin.ext
  apply eq_of_digits (k := 32)
  · exact lt_of_lt_of_eq u.isLt (by norm_num)
  · exact lt_of_lt_of_eq v.isLt (by norm_num)
  · intro p hp
    have : p ∈ [31, 30, 29, 28, 27, 26, 25, 24] ∨ p ∈ [23, 22, 21, 20] ∨ p ∈ [19, 18, 17, 16] ∨
        p ∈ [15, 14, 13, 12] ∨ p ∈ [11, 10, 9, 8, 7, 6, 5, 4, 3, 2, 1, 0] := by
      simp only [List.mem_cons, List.not_mem_nil, or_false]
      omega
    rcases this with hp | hp | hp | hp | hp
    exacts [hfirst p hp, hsecond p hp, hthird p hp, hfourth p hp, hfifth p hp]

/-- The digits of an integer literal: single underscores may separate them. -/
def hexValue (acc : Nat) : List Char → Option Nat
  | [] => some acc
  | '_' :: c :: cs => (hexDigitValue c).bind fun d => hexValue (16 * acc + d) cs
  | c :: cs => (hexDigitValue c).bind fun d => hexValue (16 * acc + d) cs
where
  hexDigitValue (c : Char) : Option Nat :=
    let d := "0123456789abcdef".toList.idxOf c.toLower
    if d < 16 then some d else none

/-- `int(text, 16)` without its sign; a leading underscore is only allowed after the base prefix. -/
def hexNumber (cs : List Char) : Option Nat :=
  match cs with
  | [] => none
  | ['0', 'x'] => none
  | ['0', 'X'] => none
  | '0' :: 'x' :: cs => hexValue 0 cs
  | '0' :: 'X' :: cs => hexValue 0 cs
  | '_' :: _ => none
  | cs => hexValue 0 cs

/-- `uuid.UUID(text)`. -/
def parse (s : String) : Option Uuid :=
  let bare := Text.replace "uuid:" "" (Text.replace "urn:" "" s)
  let hex := (bare.toList.dropWhile (· ∈ ['{', '}'])).rdropWhile (· ∈ ['{', '}'])
  let hex := hex.filter (· ≠ '-')
  if hex.length ≠ 32 then none
  else
    let number := match (Text.strip (String.ofList hex)).toList with
      | '+' :: cs => hexNumber cs
      | cs => hexNumber cs
    number.bind fun n => if h : n < 2 ^ 128 then some ⟨n, h⟩ else none

/-- The characters of a text form. -/
def IsHex (c : Char) : Prop := ∃ d < 16, c = hexDigit d

/-- What the sixteen digits have in common. -/
theorem IsHex.of_table {p : Char → Prop} (table : ∀ i : Fin 16, p (hexDigit i)) {c : Char}
    (h : IsHex c) : p c := by
  obtain ⟨d, hd, rfl⟩ := h
  exact table ⟨d, hd⟩

theorem IsHex.mem {c : Char} (h : IsHex c) : c ∈ "0123456789abcdef".toList :=
  h.of_table (p := (· ∈ "0123456789abcdef".toList)) (by decide)

theorem isHex_of_mem_digits {u : Uuid} {places : List Nat} {c : Char} (h : c ∈ u.digits places) :
    IsHex c := by
  obtain ⟨p, -, rfl⟩ := List.mem_map.mp h
  exact ⟨_, Nat.mod_lt _ (by decide), rfl⟩

theorem mem_text {u : Uuid} {c : Char} (h : c ∈ u.text.toList) : c = '-' ∨ IsHex c := by
  simp only [text, String.toList_ofList, List.mem_append, List.mem_cons] at h
  rcases h with (((h | h | h) | h | h) | h | h) | h | h
  all_goals first
    | exact .inl h
    | exact .inr (isHex_of_mem_digits h)

theorem not_mem_text {u : Uuid} {c : Char} (h : c ∉ '-' :: "0123456789abcdef".toList) :
    c ∉ u.text.toList := by
  intro hc
  rcases mem_text hc with rfl | hc
  · exact h List.mem_cons_self
  · exact h (List.mem_cons_of_mem _ hc.mem)

theorem filter_text (u : Uuid) :
    u.text.toList.filter (· ≠ '-') = u.digits (List.range 32).reverse := by
  have hkeep : ∀ places, (u.digits places).filter (· ≠ '-') = u.digits places := by
    intro places
    rw [List.filter_eq_self]
    intro c hc
    have hne : c ≠ '-' := (isHex_of_mem_digits hc).of_table (p := (· ≠ '-')) (by decide)
    simpa using hne
  simp only [text, String.toList_ofList, List.filter_append, hkeep, List.filter_cons_of_neg,
    ne_eq, not_true_eq_false, decide_false, Bool.false_eq_true, not_false_eq_true]
  rfl

theorem hexValue_digits (u : Uuid) (places : List Nat) (acc : Nat) :
    hexValue acc (u.digits places) =
      some (places.foldl (fun acc p => 16 * acc + u.digitAt p) acc) := by
  have hvalue : ∀ i : Fin 16, hexValue.hexDigitValue (hexDigit i) = some i.val ∧ hexDigit i ≠ '_' := by
    decide
  induction places generalizing acc with
  | nil => rfl
  | cons p places ih =>
    have hdigit := hvalue ⟨u.digitAt p, Nat.mod_lt _ (by decide)⟩
    rw [digits, List.map_cons, hexValue]
    · rw [hdigit.1]
      exact ih _
    · intro c cs hc
      exact absurd hc hdigit.2

theorem foldl_digitAt (u : Uuid) (k acc : Nat) :
    (List.range k).reverse.foldl (fun acc p => 16 * acc + u.digitAt p) acc =
      16 ^ k * acc + u.val % 16 ^ k := by
  induction k generalizing acc with
  | zero => simp [Nat.mod_one]
  | succ k ih =>
    rw [List.range_succ, List.reverse_append, List.reverse_singleton, List.singleton_append,
      List.foldl_cons, ih, digitAt, pow_succ 16 k, Nat.mod_mul]
    ring

theorem hexNumber_digits {u : Uuid} {places : List Nat} (h : places ≠ []) :
    hexNumber (u.digits places) = hexValue 0 (u.digits places) := by
  have hbase : ∀ c ∈ u.digits places, c ≠ '_' ∧ c ≠ 'x' ∧ c ≠ 'X' := by
    intro c hc
    exact (isHex_of_mem_digits hc).of_table (p := fun c => c ≠ '_' ∧ c ≠ 'x' ∧ c ≠ 'X') (by decide)
  have hne : u.digits places ≠ [] := by simpa [digits] using h
  unfold hexNumber
  split <;> simp_all

theorem parse_text (u : Uuid) : parse u.text = some u := by
  have hurn : Text.replace "urn:" "" u.text = u.text :=
    Text.replace_of_not_mem (c := 'u') (by decide) (not_mem_text (by decide))
  have huuid : Text.replace "uuid:" "" u.text = u.text :=
    Text.replace_of_not_mem (c := 'u') (by decide) (not_mem_text (by decide))
  have hbraces : (u.text.toList.dropWhile (· ∈ ['{', '}'])).rdropWhile (· ∈ ['{', '}']) =
      u.text.toList := by
    apply Text.trim_of_forall
    intro c hc
    rcases mem_text hc with rfl | hhex
    · decide
    · exact hhex.of_table (p := fun c => decide (c ∈ ['{', '}']) = false) (by decide)
  have hspace : ∀ c ∈ (String.ofList (u.digits (List.range 32).reverse)).toList,
      Text.isSpace c = false := by
    intro c hc
    rw [String.toList_ofList] at hc
    exact (isHex_of_mem_digits hc).of_table (p := fun c => Text.isSpace c = false) (by decide)
  have hlt : u.val < 16 ^ 32 := lt_of_lt_of_eq u.isLt (by norm_num)
  have hnumber : hexNumber (u.digits (List.range 32).reverse) = some u.val := by
    rw [hexNumber_digits (by decide), hexValue_digits, foldl_digitAt, Nat.mod_eq_of_lt hlt]
    simp
  have hplus : ∀ cs, u.digits (List.range 32).reverse = '+' :: cs → False := by
    intro cs h
    have hmem : '+' ∈ u.digits (List.range 32).reverse := h ▸ List.mem_cons_self
    exact absurd (isHex_of_mem_digits hmem).mem (by decide)
  have hlength : (u.digits (List.range 32).reverse).length = 32 := by simp [digits]
  simp only [parse, hurn, huuid, hbraces, filter_text, hlength, ne_eq, not_true_eq_false, if_false,
    Text.strip_of_forall hspace, String.toList_ofList]
  rw [hnumber, Option.bind_some, dif_pos u.isLt]

end Uuid

end Cygnus
