import Mathlib.Data.List.Basic

/-! Python strings are sequences of code points, surrogates included; UTF-8 covers those without a
surrogate. -/

namespace Cygnus

abbrev CodePoint := Fin 0x110000

abbrev PyStr := List CodePoint

namespace Utf8

/-- The scalar value, unless the code point is a surrogate. -/
def toChar? (c : CodePoint) : Option Char :=
  if h : c.1.isValidChar then some (Char.ofNatAux c.1 h) else none

def ofChar (c : Char) : CodePoint := ⟨c.toNat, by
  have h := c.valid
  unfold UInt32.isValidChar Nat.isValidChar at h
  unfold Char.toNat
  omega⟩

def ofString (s : String) : PyStr := s.toList.map ofChar

/-- `str.encode("utf-8")`, where `none` is a `UnicodeEncodeError`. -/
def encode (s : PyStr) : Option (List UInt8) :=
  (s.mapM toChar?).map fun cs => cs.flatMap String.utf8EncodeChar

/-- `bytes.decode("utf-8")`, where `none` is a `UnicodeDecodeError`. -/
def decode (bytes : List UInt8) : Option PyStr :=
  bytes.toByteArray.utf8Decode?.map fun cs => cs.toList.map ofChar

theorem ofChar_of_toChar? {c : CodePoint} {ch : Char} (h : toChar? c = some ch) : ofChar ch = c := by
  rw [toChar?, Option.dite_none_right_eq_some] at h
  obtain ⟨hvalid, h⟩ := h
  cases h
  rfl

theorem toChar?_ofChar (ch : Char) : toChar? (ofChar ch) = some ch := by
  have hvalid : (ofChar ch).1.isValidChar := ch.valid
  rw [toChar?, dif_pos hvalid]
  rfl

theorem map_ofChar_of_mapM {s : PyStr} {cs : List Char} (h : s.mapM toChar? = some cs) :
    cs.map ofChar = s := by
  induction s generalizing cs with
  | nil =>
    cases h
    rfl
  | cons c s ih =>
    simp only [List.mapM_cons, Option.bind_eq_bind, Option.bind_eq_some_iff, Option.pure_def,
      Option.some.injEq] at h
    obtain ⟨ch, hch, rest, hrest, rfl⟩ := h
    rw [List.map_cons, ofChar_of_toChar? hch, ih hrest]

theorem mapM_map_ofChar (cs : List Char) : (cs.map ofChar).mapM toChar? = some cs := by
  induction cs with
  | nil => rfl
  | cons ch cs ih =>
    rw [List.map_cons, List.mapM_cons, toChar?_ofChar, ih]
    rfl

theorem decode_of_encode {s : PyStr} {bytes : List UInt8} (h : encode s = some bytes) :
    decode bytes = some s := by
  simp only [encode, Option.map_eq_some_iff] at h
  obtain ⟨cs, hcs, rfl⟩ := h
  have hdecode : (cs.flatMap String.utf8EncodeChar).toByteArray.utf8Decode? = some cs.toArray :=
    List.utf8Decode?_utf8Encode
  rw [decode, hdecode, Option.map_some, List.toList_toArray, map_ofChar_of_mapM hcs]

theorem encode_of_decode {s : PyStr} {bytes : List UInt8} (h : decode bytes = some s) :
    encode s = some bytes := by
  simp only [decode, Option.map_eq_some_iff] at h
  obtain ⟨cs, hcs, rfl⟩ := h
  have hsome : bytes.toByteArray.utf8Decode?.isSome = true := by simp [hcs]
  have hbytes := ByteArray.utf8Encode_get_utf8Decode? (h := hsome)
  simp only [hcs, Option.get_some, List.utf8Encode] at hbytes
  rw [encode, mapM_map_ofChar, Option.map_some, List.toByteArray_inj.mp hbytes]

end Utf8

end Cygnus
