import Cygnus.Data.PyJson
import Mathlib.Data.List.Chain
import Mathlib.Data.List.TakeDrop

/-! What is written is read back. -/

namespace Cygnus.PyJson

open Sequence

variable {R : Type}

section Strings

theorem hexDigit?_hexDigit {d : Nat} (h : d < 16) : hexDigit? (Uuid.hexDigit d) = some d := by
  have table : ∀ i : Fin 16, hexDigit? (Uuid.hexDigit i) = some i.1 := by decide
  exact table ⟨d, h⟩

theorem readUnit_hexDigits {n : Nat} (h : n < 65536) (rest : List Char) :
    readUnit (Json.hexDigits n ++ rest) = some (n, rest) := by
  have hlt : ∀ m, m % 16 < 16 := fun m => Nat.mod_lt m (by decide)
  simp only [Json.hexDigits, List.map_cons, List.map_nil, List.cons_append, List.nil_append,
    readUnit, hexDigit?_hexDigit (hlt _), Option.pure_def, Option.bind_eq_bind, Option.bind_some,
    Option.some.injEq, Prod.mk.injEq, and_true]
  omega

/-- The forms that stand for a code point. -/
inductive Escaped (c : CodePoint) : List Char → Prop
  | plain {ch : Char} (hquote : ch ≠ '"') (hslash : ch ≠ '\\') (hprints : 32 ≤ ch.toNat)
      (hpoint : Utf8.ofChar ch = c) : Escaped c [ch]
  | simple {name : Char} (ch : Char) (hname : simpleEscape name = some ch) (hunicode : name ≠ 'u')
      (hpoint : Utf8.ofChar ch = c) : Escaped c ['\\', name]
  | unit (hlt : c.1 < 65536) : Escaped c (Json.unicodeEscape c.1)
  | pair (hle : 65536 ≤ c.1) : Escaped c (Json.unicodeEscape (0xd800 + (c.1 - 65536) / 1024) ++
      Json.unicodeEscape (0xdc00 + (c.1 - 65536) % 1024))

theorem escaped (c : CodePoint) : Escaped c (escape c) := by
  cases hchar : Utf8.toChar? c with
  | none =>
    have hlt : c.1 < 65536 := by
      rw [Utf8.toChar?, dite_eq_right_iff] at hchar
      have hinvalid : ¬ c.1.isValidChar := fun h => Option.some_ne_none _ (hchar h)
      have hrange := c.2
      unfold Nat.isValidChar at hinvalid
      omega
    rw [escape, hchar]
    exact .unit hlt
  | some ch =>
    have hpoint := Utf8.ofChar_of_toChar? hchar
    have hvalue : c.1 = ch.toNat := by
      rw [← hpoint]
      rfl
    rw [escape, hchar]
    dsimp only
    unfold Json.escape
    split
    · rename_i h
      rcases h with rfl | rfl
      · exact .simple '"' rfl (by decide) hpoint
      · exact .simple '\\' rfl (by decide) hpoint
    · rename_i hspecial
      rw [not_or] at hspecial
      split_ifs with hn hr ht hf hb hascii hlow
      · exact .simple '\n' rfl (by decide) (hn ▸ hpoint)
      · exact .simple '\r' rfl (by decide) (hr ▸ hpoint)
      · exact .simple '\t' rfl (by decide) (ht ▸ hpoint)
      · exact .simple '\x0c' rfl (by decide) (hf ▸ hpoint)
      · exact .simple '\x08' rfl (by decide) (hb ▸ hpoint)
      · exact .plain hspecial.1 hspecial.2 hascii.1 hpoint
      · rw [← hvalue]
        exact .unit (hvalue ▸ hlow)
      · rw [← hvalue]
        exact .pair (by omega)

theorem point_eq {c : CodePoint} {n : Nat} (h : n = c.1) : point n = c := by
  subst h
  exact Fin.ofNat_val_eq_self c

theorem readLow_unicodeEscape {n : Nat} (h : n < 65536) (rest : List Char) :
    readLow (Json.unicodeEscape n ++ rest) = if isLow n then some (n, rest) else none := by
  rw [Json.unicodeEscape, List.cons_append, List.cons_append, readLow, readUnit_hexDigits h,
    Option.filter_some]

/-- No escape of a low surrogate stands before the end of a string or another code point. -/
theorem readLow_escape {c : CodePoint} (h : isLow c.1 = false) (rest : List Char) :
    readLow (escape c ++ rest) = none := by
  have hform := escaped c
  generalize escape c = form at hform ⊢
  cases hform with
  | plain _ hslash =>
    rw [List.singleton_append, readLow]
    intro tail htail
    exact hslash (List.cons.inj htail).1
  | simple _ _ hunicode =>
    rw [List.cons_append, List.singleton_append, readLow]
    intro tail htail
    exact hunicode (List.cons.inj (List.cons.inj htail).2).1
  | unit hlt => rw [readLow_unicodeEscape hlt, h, if_neg Bool.false_ne_true]
  | pair hle =>
    have hrange := c.2
    rw [List.append_assoc, readLow_unicodeEscape (by omega), if_neg]
    simp only [isLow, Bool.and_eq_true, decide_eq_true_eq]
    omega

/-- A low surrogate never follows a high one. -/
def Joined (s : PyStr) : Prop := s.IsChain fun a b => ¬ (isHigh a.1 ∧ isLow b.1)

theorem readLow_escapes {c : CodePoint} {s : PyStr} (h : Joined (c :: s)) (hhigh : isHigh c.1)
    (rest : List Char) : readLow (s.flatMap escape ++ '"' :: rest) = none := by
  cases s with
  | nil => rfl
  | cons next s =>
    have hnext : isLow next.1 = false := by
      have hpair := (List.isChain_cons_cons.mp h).1
      simpa [hhigh] using hpair
    rw [List.flatMap_cons, List.append_assoc]
    exact readLow_escape hnext _

theorem readUnicode_unit {c : CodePoint} (hlt : c.1 < 65536) {rest : List Char}
    (h : isHigh c.1 → readLow rest = none) :
    readUnicode (Json.hexDigits c.1 ++ rest) = some (c, rest) := by
  rw [readUnicode, readUnit_hexDigits hlt]
  have hnone : (if isHigh c.1 then readLow rest else none) = none := by
    split
    · rename_i hhigh
      exact h hhigh
    · rfl
  simp only [Option.bind_eq_bind, Option.bind_some, hnone, Option.pure_def, Option.some.injEq,
    Prod.mk.injEq, and_true]
  exact point_eq rfl

theorem readUnicode_pair {high low : Nat} (hhigh : isHigh high) (hlow : isLow low)
    (rest : List Char) :
    readUnicode (Json.hexDigits high ++ (Json.unicodeEscape low ++ rest)) =
      some (point (0x10000 + (high - 0xd800) * 1024 + (low - 0xdc00)), rest) := by
  have hhigh' := hhigh
  have hlow' := hlow
  simp only [isHigh, isLow, Bool.and_eq_true, decide_eq_true_eq] at hhigh' hlow'
  rw [readUnicode, readUnit_hexDigits (by omega)]
  simp only [Option.bind_eq_bind, Option.bind_some, hhigh, if_true,
    readLow_unicodeEscape (show low < 65536 by omega), hlow, Option.pure_def]

theorem surrogates {c : CodePoint} (hle : 65536 ≤ c.1) :
    isHigh (0xd800 + (c.1 - 65536) / 1024) ∧ isLow (0xdc00 + (c.1 - 65536) % 1024) := by
  have hrange := c.2
  simp only [isHigh, isLow, Bool.and_eq_true, decide_eq_true_eq]
  omega

theorem readChars_escape {c : CodePoint} {rest : List Char}
    (h : isHigh c.1 → readLow rest = none) (fuel : Nat) :
    readChars (fuel + 1) (escape c ++ rest) =
      (readChars fuel rest).map fun read => (c :: read.1, read.2) := by
  have hread : ∀ {name : Char} {tail : List Char},
      readEscape (name :: tail) = some (c, rest) →
      readChars (fuel + 1) ('\\' :: name :: tail) =
        (readChars fuel rest).map fun read => (c :: read.1, read.2) := by
    intro name tail hescape
    simp only [readChars, hescape, Option.bind_eq_bind, Option.bind_some]
    cases readChars fuel rest <;> rfl
  have hform := escaped c
  generalize escape c = form at hform ⊢
  cases hform with
  | @plain ch hquote hslash hprints hpoint =>
    rw [List.singleton_append, readChars]
    · rw [if_neg (by omega), hpoint]
      cases readChars fuel rest <;> rfl
    · exact hquote
    · exact hslash
  | simple _ hname hunicode hpoint =>
    apply hread
    rw [readEscape, hname, Option.map_some, hpoint]
    · rfl
    · exact hunicode
  | unit hlt => exact hread (readUnicode_unit hlt h)
  | pair hle =>
    obtain ⟨hhigh, hlow⟩ := surrogates hle
    rw [List.append_assoc]
    exact hread ((readUnicode_pair hhigh hlow rest).trans (by rw [point_eq (c := c) (by omega)]))

theorem readChars_escapes {s : PyStr} (h : Joined s) (rest : List Char) {fuel : Nat}
    (hfuel : s.length < fuel) :
    readChars fuel (s.flatMap escape ++ '"' :: rest) = some (s, rest) := by
  induction s generalizing fuel with
  | nil =>
    obtain ⟨fuel, rfl⟩ := Nat.exists_eq_add_of_lt hfuel
    rfl
  | cons c s ih =>
    cases fuel with
    | zero => simp at hfuel
    | succ fuel =>
      rw [List.flatMap_cons, List.append_assoc, readChars_escape fun hhigh =>
        readLow_escapes h hhigh rest, ih (List.IsChain.tail h) (by simpa using hfuel)]
      rfl

theorem length_le_escapes (s : PyStr) : s.length ≤ (s.flatMap escape).length := by
  induction s with
  | nil => exact Nat.le_refl _
  | cons c s ih =>
    have hpos : 0 < (escape c).length := by
      have hform := escaped c
      generalize escape c = form at hform ⊢
      cases hform <;> simp [Json.unicodeEscape]
    rw [List.flatMap_cons, List.length_append, List.length_cons]
    omega

/-- The string that stands between two quotes. -/
theorem readChars_quoted {s : PyStr} (h : Joined s) (rest : List Char) :
    readChars ((s.flatMap escape ++ '"' :: rest).length + 1) (s.flatMap escape ++ '"' :: rest) =
      some (s, rest) := by
  apply readChars_escapes h
  have hlength := length_le_escapes s
  rw [List.length_append]
  omega

end Strings

section Numbers

/-- What may come after a value. -/
def Ends (rest : List Char) : Prop := ∀ c ∈ rest.head?, c = ',' ∨ c = ']' ∨ c = '}'

theorem Ends.not_digit {rest : List Char} (h : Ends rest) :
    ∀ c ∈ rest.head?, c.isDigit = false := by
  intro c hc
  rcases h c hc with rfl | rfl | rfl <;> rfl

theorem toDigits_head {n : Nat} (h : 0 < n) : (Nat.toDigits 10 n).head? ≠ some '0' := by
  induction n using Nat.strong_induction_on with
  | h n ih =>
    rw [Nat.toDigits_eq_if (by decide)]
    split
    · simp only [List.head?_cons, ne_eq, Option.some.injEq, Nat.digitChar_eq_zero]
      omega
    · have hrest := ih (n / 10) (by omega) (by omega)
      rwa [List.head?_append_of_ne_nil _ Nat.toDigits_ne_nil]

theorem span_digits {digits rest : List Char} (h : ∀ c ∈ digits, c.isDigit)
    (hrest : ∀ c ∈ rest.head?, c.isDigit = false) :
    (digits ++ rest).span Char.isDigit = (digits, rest) := by
  rw [List.span_eq_takeWhile_dropWhile]
  cases rest with
  | nil =>
    rw [List.append_nil, List.takeWhile_eq_self_iff.mpr h, List.dropWhile_eq_nil_iff.mpr h]
  | cons c rest =>
    have hc := hrest c rfl
    rw [Text.takeWhile_append_stop h hc, Text.dropWhile_append_stop h hc]

theorem readInteger_toDigits (n : Nat) {rest : List Char} (h : Ends rest) :
    readInteger (Nat.toDigits 10 n ++ rest) = (Nat.toDigits 10 n, rest) := by
  have hdigits : ∀ c ∈ Nat.toDigits 10 n, c.isDigit := fun c hc =>
    Nat.isDigit_of_mem_toDigits (by decide) (by decide) hc
  rcases Nat.eq_zero_or_pos n with rfl | hpos
  · rfl
  · rw [readInteger, span_digits hdigits h.not_digit]
    intro tail htail
    apply toDigits_head hpos
    have hhead : (Nat.toDigits 10 n ++ rest).head? = (Nat.toDigits 10 n).head? :=
      List.head?_append_of_ne_nil _ Nat.toDigits_ne_nil
    rw [← hhead, htail]
    rfl

theorem Ends.readFraction {rest : List Char} (h : Ends rest) : readFraction rest = ([], rest) := by
  unfold PyJson.readFraction
  split
  · rcases h _ rfl with hc | hc | hc <;> cases hc
  · rfl

theorem Ends.readExponent {rest : List Char} (h : Ends rest) : readExponent rest = ([], rest) := by
  cases rest with
  | nil => rfl
  | cons c rest =>
    rcases h c rfl with rfl | rfl | rfl <;> rfl

variable (floats : Floats R)

/-- A number whose sign has been taken off. -/
theorem readNumber_digits {n : Nat} (hfits : (Nat.toDigits 10 n).length ≤ maxIntDigits)
    {rest : List Char} (h : Ends rest) :
    readNumber floats (Nat.toDigits 10 n ++ rest) = some (.int n, rest) ∧
      readNumber floats ('-' :: (Nat.toDigits 10 n ++ rest)) = some (.int (-n), rest) := by
  have hne : Nat.toDigits 10 n ≠ [] := Nat.toDigits_ne_nil
  constructor
  · have hsign : ∀ tail, Nat.toDigits 10 n ++ rest ≠ '-' :: tail := by
      intro tail htail
      have hhead := congrArg List.head? htail
      rw [List.head?_append_of_ne_nil _ hne, List.head?_cons] at hhead
      have hdigit := Nat.isDigit_of_mem_toDigits (b := 10) (by decide) (by decide)
        (List.mem_of_mem_head? hhead)
      exact absurd hdigit (by decide)
    unfold readNumber
    split
    rename_i sign cs hcs
    obtain ⟨rfl, rfl⟩ : sign = [] ∧ cs = Nat.toDigits 10 n ++ rest := by
      revert hcs
      split
      · rename_i tail htail
        exact absurd htail (hsign _)
      · intro hcs
        cases hcs
        exact ⟨rfl, rfl⟩
    simp only [readInteger_toDigits n h, if_neg hne, h.readFraction, h.readExponent, and_self,
      if_true, if_pos hfits, Nat.ofDigitChars_ten_toDigits]
  · simp only [readNumber, readInteger_toDigits n h, if_neg hne, h.readFraction, h.readExponent,
      and_self, if_true, if_pos hfits, Nat.ofDigitChars_ten_toDigits, List.cons_ne_nil, if_false]

theorem intFits_natAbs {n : Int} (h : intFits n) :
    (Nat.toDigits 10 n.natAbs).length ≤ maxIntDigits := of_decide_eq_true h

/-- The text of an integer: its digits, after a sign if it is negative. -/
theorem toString_cases (n : Int) :
    (n = n.natAbs ∧ (toString n).toList = Nat.toDigits 10 n.natAbs) ∨
      (n = -n.natAbs ∧ (toString n).toList = '-' :: Nat.toDigits 10 n.natAbs) := by
  cases n with
  | ofNat n =>
    left
    refine ⟨rfl, ?_⟩
    change (Nat.repr n).toList = _
    rw [Nat.toList_repr]
    rfl
  | negSucc n =>
    right
    refine ⟨rfl, ?_⟩
    change ("-" ++ Nat.repr (n + 1)).toList = _
    rw [String.toList_append, Nat.toList_repr]
    rfl

theorem readNumber_toString {n : Int} (hfits : intFits n) {rest : List Char} (h : Ends rest) :
    readNumber floats ((toString n).toList ++ rest) = some (.int n, rest) := by
  obtain ⟨hplain, hsigned⟩ := readNumber_digits floats (intFits_natAbs hfits) h
  rcases toString_cases n with ⟨hvalue, htext⟩ | ⟨hvalue, htext⟩
  · rw [htext, hplain, ← hvalue]
  · rw [htext, List.cons_append, hsigned, ← hvalue]

variable (constants : Bool)

theorem readConstant_digit {c : Char} (hc : c.isDigit) (cs : List Char) :
    readConstant floats constants (c :: cs) = none ∧
      readConstant floats constants ('-' :: c :: cs) = none := by
  have hne : ∀ d : Char, d.isDigit = false → d ≠ c := by
    rintro d hd rfl
    rw [hd] at hc
    cases hc
  have hn := hne 'n' rfl
  have ht := hne 't' rfl
  have hf := hne 'f' rfl
  have hN := hne 'N' rfl
  have hI := hne 'I' rfl
  have hminus := hne '-' rfl
  constructor
  · unfold readConstant
    split <;> simp_all
  · unfold readConstant
    split <;> simp_all

end Numbers

section Values

/-- A document that can be read back from its text. -/
inductive Legible : Nat → PyJson R → Prop
  | null {depth} : Legible depth .null
  | bool {depth} (b : Bool) : Legible depth (.bool b)
  | int {depth} {n : Int} (hfits : intFits n) : Legible depth (.int n)
  | str {depth} {s : PyStr} (hjoined : Joined s) : Legible depth (.str s)
  | list {depth items} (hitems : ∀ item ∈ items, Legible depth item) :
      Legible (depth + 1) (.list items)
  | object {depth fields} (hkeys : (Dict.keys fields).Nodup)
      (hjoined : ∀ field ∈ fields, Joined field.1)
      (hvalues : ∀ field ∈ fields, Legible depth field.2) : Legible (depth + 1) (.object fields)

variable (floats : Floats R) (constants : Bool)

/-- The value that comes next is read as the document. -/
def ReadsBack (depth : Nat) (document : PyJson R) : Prop :=
  ∀ fuel rest, Ends rest → (write floats document).length ≤ fuel →
    readValue floats constants fuel depth (write floats document ++ rest) = some (document, rest)

/-- The first character of a value. -/
def Starts (text : List Char) : Prop :=
  ∃ c ∈ text.head?, isSpace c = false ∧ c ≠ ']' ∧ c ≠ '}' ∧ c ≠ '\ufeff'

variable {floats constants} {depth fuel : Nat} {rest : List Char}

theorem Starts.append (h : Starts text) (rest : List Char) : Starts (text ++ rest) := by
  obtain ⟨c, hc, hplain⟩ := h
  obtain ⟨cs, rfl⟩ := List.head?_eq_some_iff.mp hc
  exact ⟨c, rfl, hplain⟩

theorem Starts.skipSpace (h : Starts text) : skipSpace text = text := by
  obtain ⟨c, hc, hspace, -⟩ := h
  obtain ⟨cs, rfl⟩ := List.head?_eq_some_iff.mp hc
  exact List.dropWhile_cons_of_neg (by rw [hspace]; exact Bool.false_ne_true)

theorem starts_digits (n : Nat) : Starts (Nat.toDigits 10 n) := by
  obtain ⟨c, cs, hcs⟩ := List.exists_cons_of_ne_nil (Nat.toDigits_ne_nil (b := 10) (n := n))
  have hc : c.isDigit := Nat.isDigit_of_mem_toDigits (b := 10) (n := n) (by decide) (by decide)
    (hcs ▸ List.mem_cons_self)
  rw [hcs]
  refine ⟨c, rfl, ?_, ?_, ?_, ?_⟩
  · simp only [isSpace, Bool.or_eq_false_iff, decide_eq_false_iff_not]
    refine ⟨⟨⟨?_, ?_⟩, ?_⟩, ?_⟩ <;>
    · rintro rfl
      exact absurd hc (by decide)
  all_goals
    rintro rfl
    exact absurd hc (by decide)

variable (floats) in
theorem Legible.starts {document : PyJson R} (h : Legible depth document) :
    Starts (write floats document) := by
  cases h with
  | null => exact ⟨'n', rfl, by decide⟩
  | bool b => cases b <;> exact ⟨_, rfl, by decide⟩
  | @int _ n hfits =>
    rw [write]
    rcases toString_cases n with ⟨-, htext⟩ | ⟨-, htext⟩
    · rw [htext]
      exact starts_digits _
    · rw [htext]
      exact ⟨'-', rfl, by decide⟩
  | str => exact ⟨'"', rfl, by decide⟩
  | list => exact ⟨'[', rfl, by decide⟩
  | object => exact ⟨'{', rfl, by decide⟩

theorem skipSpace_cons {c : Char} (h : isSpace c = false) (cs : List Char) :
    skipSpace (c :: cs) = c :: cs :=
  List.dropWhile_cons_of_neg (by rw [h]; exact Bool.false_ne_true)

theorem ends_cons {c : Char} (h : c = ',' ∨ c = ']' ∨ c = '}') (rest : List Char) :
    Ends (c :: rest) := by
  intro d hd
  cases hd
  exact h

theorem writeItems_starts {item : PyJson R} (h : Starts (write floats item))
    (items : List (PyJson R)) : Starts (writeItems floats (item :: items)) := by
  cases items <;> exact h.append _

theorem readItems_write {item : PyJson R} {items : List (PyJson R)} (fuel : Nat)
    (rest : List Char)
    (hstarts : ∀ other ∈ item :: items, Starts (write floats other))
    (hitems : ∀ other ∈ item :: items, ReadsBack floats constants depth other)
    (hfuel : (writeItems floats (item :: items)).length ≤ fuel) :
    readItems floats constants fuel depth (writeItems floats (item :: items) ++ rest) =
      some (item :: items, rest) := by
  induction items generalizing item fuel with
  | nil =>
    rw [writeItems, List.length_append, List.length_singleton] at hfuel
    obtain ⟨fuel, rfl⟩ := Nat.exists_eq_add_of_le' (Nat.le_of_add_left_le hfuel)
    have hread := hitems item List.mem_cons_self fuel (']' :: rest)
      (ends_cons (.inr (.inl rfl)) rest) (Nat.le_of_add_le_add_right hfuel)
    rw [writeItems, List.append_assoc, List.singleton_append, readItems, hread]
    rfl
  | cons next items ih =>
    rw [writeItems, List.length_append, List.length_cons] at hfuel
    obtain ⟨fuel, rfl⟩ := Nat.exists_eq_add_of_le' (show 1 ≤ fuel by omega)
    have hread := hitems item List.mem_cons_self fuel
      (',' :: (writeItems floats (next :: items) ++ rest)) (ends_cons (.inl rfl) _) (by omega)
    have hrest := ih fuel (fun other hmem => hstarts other (.tail _ hmem))
      (fun other hmem => hitems other (.tail _ hmem)) (by omega)
    have hskip := ((writeItems_starts (hstarts next (.tail _ (.head _))) items).append
      rest).skipSpace
    rw [writeItems, List.append_assoc, List.cons_append, readItems, hread]
    simp only [Option.bind_eq_bind, Option.bind_some]
    rw [skipSpace_cons (by decide)]
    simp only [hskip, hrest, Option.bind_some, Option.pure_def]

theorem readFields_write {field : PyStr × PyJson R} {fields : List (PyStr × PyJson R)} (fuel : Nat)
    (rest : List Char)
    (hjoined : ∀ other ∈ field :: fields, Joined other.1)
    (hstarts : ∀ other ∈ field :: fields, Starts (write floats other.2))
    (hfields : ∀ other ∈ field :: fields, ReadsBack floats constants depth other.2)
    (hfuel : (writeFields floats (field :: fields)).length ≤ fuel) :
    readFields floats constants fuel depth (writeFields floats (field :: fields) ++ rest) =
      some (field :: fields, rest) := by
  induction fields generalizing field fuel with
  | nil =>
    obtain ⟨key, value⟩ := field
    simp only [writeFields, List.length_append, List.length_cons, List.length_nil] at hfuel
    obtain ⟨fuel, rfl⟩ := Nat.exists_eq_add_of_le' (show 1 ≤ fuel by omega)
    have hread := hfields _ List.mem_cons_self fuel ('}' :: rest)
      (ends_cons (.inr (.inr rfl)) rest) (by dsimp only; omega)
    have hskip := ((hstarts _ List.mem_cons_self).append ('}' :: rest)).skipSpace
    simp only [writeFields, quote, List.cons_append, List.append_assoc, List.nil_append, readFields,
      readChars_quoted (hjoined _ List.mem_cons_self), Option.bind_eq_bind, Option.bind_some]
    rw [skipSpace_cons (by decide)]
    simp only [hskip, hread, Option.bind_some]
    rfl
  | cons next fields ih =>
    obtain ⟨key, value⟩ := field
    simp only [writeFields, List.length_append, List.length_cons] at hfuel
    obtain ⟨fuel, rfl⟩ := Nat.exists_eq_add_of_le' (show 1 ≤ fuel by omega)
    have hread := hfields _ List.mem_cons_self fuel
      (',' :: (writeFields floats (next :: fields) ++ rest)) (ends_cons (.inl rfl) _)
      (by dsimp only; omega)
    have hrest := ih fuel (fun other hmem => hjoined other (.tail _ hmem))
      (fun other hmem => hstarts other (.tail _ hmem))
      (fun other hmem => hfields other (.tail _ hmem)) (by omega)
    have hskip := ((hstarts _ List.mem_cons_self).append
      (',' :: (writeFields floats (next :: fields) ++ rest))).skipSpace
    have hkey : skipSpace (writeFields floats (next :: fields) ++ rest) =
        writeFields floats (next :: fields) ++ rest := by
      cases fields <;> exact skipSpace_cons (by decide) _
    simp only [writeFields, quote, List.cons_append, List.append_assoc, List.nil_append, readFields,
      readChars_quoted (hjoined _ List.mem_cons_self), Option.bind_eq_bind, Option.bind_some]
    rw [skipSpace_cons (by decide)]
    simp only [hskip, hread, Option.bind_some]
    rw [skipSpace_cons (by decide)]
    simp only [hkey, hrest, Option.bind_some, Option.pure_def]

/-- A value has a first character, so some fuel is there to read it. -/
theorem readsBack_of {document : PyJson R} (hstarts : Starts (write floats document))
    (h : ∀ fuel rest, Ends rest → (write floats document).length ≤ fuel + 1 →
      readValue floats constants (fuel + 1) depth (write floats document ++ rest) =
        some (document, rest)) : ReadsBack floats constants depth document := by
  intro fuel rest hends hfuel
  obtain ⟨c, hc, -⟩ := hstarts
  have hpos : 0 < (write floats document).length :=
    List.length_pos_of_mem (List.mem_of_mem_head? hc)
  obtain ⟨fuel, rfl⟩ := Nat.exists_eq_add_of_le' (Nat.le_trans hpos hfuel)
  exact h fuel rest hends hfuel

theorem readValue_scalar {c : Char} (hc : c ≠ '"' ∧ c ≠ '[' ∧ c ≠ '{') (cs : List Char) :
    readValue floats constants (fuel + 1) depth (c :: cs) =
      (readConstant floats constants (c :: cs)).or (readNumber floats (c :: cs)) := by
  obtain ⟨hquote, hbracket, hbrace⟩ := hc
  rw [readValue]
  all_goals simp_all

variable (floats constants) in
theorem Legible.readsBack {document : PyJson R} (h : Legible depth document) :
    ReadsBack floats constants depth document := by
  have hstarts := h.starts floats
  induction h with
  | null =>
    apply readsBack_of hstarts
    intro fuel rest _ _
    exact (readValue_scalar (by decide) _).trans (by cases constants <;> rfl)
  | bool b =>
    apply readsBack_of hstarts
    intro fuel rest _ _
    cases b <;> exact (readValue_scalar (by decide) _).trans (by cases constants <;> rfl)
  | @int depth n hfits =>
    apply readsBack_of hstarts
    intro fuel rest hends _
    have hnumber := readNumber_toString floats hfits hends
    obtain ⟨c, cs, hcs⟩ := List.exists_cons_of_ne_nil (Nat.toDigits_ne_nil (b := 10)
      (n := n.natAbs))
    have hc : c.isDigit := Nat.isDigit_of_mem_toDigits (b := 10) (n := n.natAbs) (by decide)
      (by decide) (hcs ▸ List.mem_cons_self)
    obtain ⟨hplain, hsigned⟩ := readConstant_digit floats constants hc (cs ++ rest)
    rcases toString_cases n with ⟨-, htext⟩ | ⟨-, htext⟩
    · rw [write, htext, hcs, List.cons_append, readValue_scalar, hplain, Option.none_or,
        ← List.cons_append, ← hcs, ← htext, hnumber]
      refine ⟨?_, ?_, ?_⟩ <;>
      · rintro rfl
        exact absurd hc (by decide)
    · rw [write, htext, hcs, List.cons_append, List.cons_append, readValue_scalar (by decide),
        hsigned, Option.none_or, ← List.cons_append, ← hcs, ← List.cons_append, ← htext, hnumber]
  | str hjoined =>
    apply readsBack_of hstarts
    intro fuel rest _ _
    simp only [write, quote, List.cons_append, List.append_assoc, List.nil_append, readValue,
      readChars_quoted hjoined, Option.map_some]
  | @list depth items hitems ih =>
    apply readsBack_of hstarts
    intro fuel rest hends hfuel
    rw [write, List.length_cons] at hfuel
    cases items with
    | nil => rfl
    | cons item items =>
      have hstarts := fun other hmem => (hitems other hmem).starts floats
      have hread := readItems_write fuel rest hstarts (fun other hmem =>
        ih other hmem (hstarts other hmem)) (Nat.le_of_add_le_add_right hfuel)
      have hfirst := (writeItems_starts (hstarts item List.mem_cons_self) items).append rest
      rw [write, List.cons_append, readValue, hfirst.skipSpace]
      split
      · rename_i htail
        obtain ⟨c, hc, -, hbracket, -⟩ := hfirst
        rw [htail] at hc
        cases hc
        exact absurd rfl hbracket
      · rw [hread]
        rfl
  | @object depth fields hkeys hjoined hvalues ih =>
    apply readsBack_of hstarts
    intro fuel rest hends hfuel
    rw [write, List.length_cons] at hfuel
    cases fields with
    | nil => rfl
    | cons field fields =>
      have hstarts := fun other hmem => (hvalues other hmem).starts floats
      have hread := readFields_write fuel rest hjoined hstarts (fun other hmem =>
        ih other hmem (hstarts other hmem)) (Nat.le_of_add_le_add_right hfuel)
      have hquote : ∃ tail, writeFields floats (field :: fields) ++ rest = '"' :: tail := by
        cases fields <;> exact ⟨_, rfl⟩
      obtain ⟨tail, htail⟩ := hquote
      rw [htail] at hread
      rw [write, List.cons_append, readValue, htail, skipSpace_cons (by decide)]
      split
      · rename_i hbrace
        cases hbrace
      · simp only [hread, Option.map_some, Dict.ofList_of_nodup hkeys]

/-- A document is read back from its text. -/
theorem loads_write {document : PyJson R} (h : Legible depth document) :
    loads floats constants depth (write floats document) = some document := by
  have hstarts := h.starts floats
  have hread := h.readsBack floats constants
    ((write floats document).length + 1) [] (fun c hc => by cases hc) (Nat.le_succ _)
  rw [List.append_nil] at hread
  obtain ⟨c, hc, -, -, -, hmark⟩ := hstarts
  have hhead : (write floats document).head? ≠ some '\ufeff' := by
    intro heq
    rw [heq] at hc
    exact hmark (Option.some.inj hc).symm
  rw [loads, if_neg hhead, (h.starts floats).skipSpace, hread]
  rfl

end Values

section Keys

theorem sortItems_eq_map (items : List (PyJson R)) : sortItems items = items.map sortKeys := by
  induction items with
  | nil => rfl
  | cons item items ih => rw [sortItems, ih, List.map_cons]

theorem sortFields_eq_map (fields : List (PyStr × PyJson R)) :
    sortFields fields = fields.map fun field => (field.1, field.2.sortKeys) := by
  induction fields with
  | nil => rfl
  | cons field fields ih => rw [sortFields, ih, List.map_cons]

mutual

/-- What is written in order is read in order. -/
theorem sortKeys_sortKeys : (document : PyJson R) → document.sortKeys.sortKeys = document.sortKeys
  | .null => rfl
  | .bool _ => rfl
  | .int _ => rfl
  | .real _ => rfl
  | .str _ => rfl
  | .list items => by rw [sortKeys, sortKeys, sortItems_sortItems items]
  | .object fields => by
    rw [sortKeys, sortKeys, sortFields_eq_map (sortedBy _ _), ← sortedBy_fst_map,
      ← sortFields_eq_map, sortFields_sortFields fields, sortedBy_sortedBy]

theorem sortItems_sortItems : (items : List (PyJson R)) →
    sortItems (sortItems items) = sortItems items
  | [] => rfl
  | item :: items => by
    rw [sortItems, sortItems, sortKeys_sortKeys item, sortItems_sortItems items]

theorem sortFields_sortFields : (fields : List (PyStr × PyJson R)) →
    sortFields (sortFields fields) = sortFields fields
  | [] => rfl
  | (key, value) :: fields => by
    rw [sortFields, sortFields, sortKeys_sortKeys value, sortFields_sortFields fields]

end

variable {depth depth' : Nat} {document : PyJson R}

theorem Legible.sortKeys (h : Legible depth document) : Legible depth document.sortKeys := by
  induction h with
  | null => exact .null
  | bool b => exact .bool b
  | int hfits => exact .int hfits
  | str hjoined => exact .str hjoined
  | list hitems ih =>
    rw [PyJson.sortKeys, sortItems_eq_map]
    apply Legible.list
    intro item hitem
    obtain ⟨old, hold, rfl⟩ := List.mem_map.mp hitem
    exact ih old hold
  | @object depth fields hkeys hjoined hvalues ih =>
    have hmem : ∀ field ∈ sortedBy Prod.fst (sortFields fields), ∃ old ∈ fields,
        field = (old.1, old.2.sortKeys) := by
      intro field hfield
      rw [mem_sortedBy, sortFields_eq_map] at hfield
      obtain ⟨old, hold, rfl⟩ := List.mem_map.mp hfield
      exact ⟨old, hold, rfl⟩
    rw [PyJson.sortKeys]
    refine .object ?_ ?_ ?_
    · rw [Dict.keys, ((perm_sortedBy _ _).map Prod.fst).nodup_iff, sortFields_eq_map,
        List.map_map]
      exact hkeys
    · intro field hfield
      obtain ⟨old, hold, rfl⟩ := hmem field hfield
      exact hjoined old hold
    · intro field hfield
      obtain ⟨old, hold, rfl⟩ := hmem field hfield
      exact ih old hold

theorem Legible.mono (h : Legible depth document) (hle : depth ≤ depth') :
    Legible depth' document := by
  induction h generalizing depth' with
  | null => exact .null
  | bool b => exact .bool b
  | int hfits => exact .int hfits
  | str hjoined => exact .str hjoined
  | list hitems ih =>
    obtain ⟨depth', rfl⟩ := Nat.exists_eq_add_of_le' (Nat.le_of_add_left_le hle)
    exact .list fun item hitem => ih item hitem (Nat.le_of_add_le_add_right hle)
  | object hkeys hjoined hvalues ih =>
    obtain ⟨depth', rfl⟩ := Nat.exists_eq_add_of_le' (Nat.le_of_add_left_le hle)
    exact .object hkeys hjoined fun field hfield =>
      ih field hfield (Nat.le_of_add_le_add_right hle)

theorem itemsWritable_iff {items : List (PyJson R)} :
    itemsWritable depth items = true ↔ ∀ item ∈ items, item.writable depth := by
  induction items with
  | nil => simp [itemsWritable]
  | cons item items ih => simp [itemsWritable, ih]

theorem fieldsWritable_iff {fields : List (PyStr × PyJson R)} :
    fieldsWritable depth fields = true ↔ ∀ field ∈ fields, field.2.writable depth := by
  induction fields with
  | nil => simp [fieldsWritable]
  | cons field fields ih => simp [fieldsWritable, ih]

theorem Legible.writable (h : Legible depth document) : document.writable depth := by
  induction h with
  | null => rfl
  | bool b => rfl
  | int hfits => exact hfits
  | str hjoined => rfl
  | list hitems ih => simpa [PyJson.writable] using itemsWritable_iff.mpr ih
  | object hkeys hjoined hvalues ih => simpa [PyJson.writable] using fieldsWritable_iff.mpr ih

variable {floats : Floats R} {constants : Bool}

theorem dumps_legible (h : Legible depth document) :
    dumps floats depth document = some (write floats document.sortKeys) := by
  rw [dumps, if_pos h.writable]

variable (floats constants) in
/-- The text with sorted keys is read back, and is the text of what was read. -/
theorem loads_dumps (h : Legible depth document) :
    loads floats constants depth (write floats document.sortKeys) = some document.sortKeys ∧
      dumps floats depth document.sortKeys = some (write floats document.sortKeys) := by
  refine ⟨loads_write h.sortKeys, ?_⟩
  rw [dumps_legible h.sortKeys, sortKeys_sortKeys]

end Keys

end Cygnus.PyJson
