import Mathlib.Algebra.Order.Ring.Nat
import Mathlib.Tactic.Ring
import Mathlib.Tactic.Linarith

/-! Unsigned base-128 varints, little-endian, with the high bit as continuation. The decoder stops
at a shift above `maxShift`. -/

namespace Cygnus.Varint

inductive Error
  | truncated
  | tooLong
  deriving DecidableEq

def encode (value : Nat) : List UInt8 :=
  let byte := value &&& 0x7F
  if _h : value >>> 7 ≠ 0 then (byte ||| 0x80).toUInt8 :: encode (value >>> 7)
  else [byte.toUInt8]
termination_by value
decreasing_by
  rw [Nat.shiftRight_eq_div_pow] at *
  omega

def decodeFrom (maxShift value shift : Nat) : List UInt8 → Except Error (Nat × List UInt8)
  | [] => .error .truncated
  | byte :: rest =>
    let value := value ||| (byte.toNat &&& 0x7F) <<< shift
    if byte.toNat &&& 0x80 = 0 then .ok (value, rest)
    else if shift + 7 > maxShift then .error .tooLong
    else decodeFrom maxShift value (shift + 7) rest

def decode (maxShift : Nat) : List UInt8 → Except Error (Nat × List UInt8) := decodeFrom maxShift 0 0

theorem and_low (n : Nat) : n &&& 0x7F = n % 128 := Nat.and_two_pow_sub_one_eq_mod n 7

theorem and_high {n : Nat} (h : n < 256) : n &&& 0x80 = 0 ↔ n < 128 := by
  have hmask : ∀ m : Fin 256, m.1 &&& 0x80 = 0 ↔ m.1 < 128 := by decide +kernel
  exact hmask ⟨n, h⟩

theorem or_high {n : Nat} (h : n < 128) : n ||| 0x80 = n + 128 := by
  rw [Nat.or_comm, Nat.add_comm]
  exact (Nat.two_pow_add_eq_or_of_lt (i := 7) (b := n) h 1).symm

theorem or_shift {value low shift : Nat} (h : value < 2 ^ shift) :
    value ||| low <<< shift = value + low * 2 ^ shift := by
  rw [Nat.or_comm, ← Nat.shiftLeft_add_eq_or_of_lt h, Nat.shiftLeft_eq, Nat.add_comm]

theorem encode_of_lt {n : Nat} (h : n < 128) : encode n = [n.toUInt8] := by
  have hzero : n >>> 7 = 0 := by
    rw [Nat.shiftRight_eq_div_pow]
    omega
  rw [encode, dif_neg (by simp [hzero]), and_low, Nat.mod_eq_of_lt h]

theorem encode_of_le {n : Nat} (h : 128 ≤ n) :
    encode n = (n % 128 + 128).toUInt8 :: encode (n / 128) := by
  have hdiv : n >>> 7 = n / 128 := Nat.shiftRight_eq_div_pow n 7
  have hne : n / 128 ≠ 0 := by omega
  rw [encode, hdiv, dif_pos hne, and_low, or_high (Nat.mod_lt _ (by decide))]

theorem decodeFrom_last {maxShift value shift : Nat} {byte : UInt8} {rest : List UInt8}
    (hv : value < 2 ^ shift) (hb : byte.toNat < 128) :
    decodeFrom maxShift value shift (byte :: rest) =
      .ok (value + byte.toNat * 2 ^ shift, rest) := by
  have hlow : byte.toNat &&& 0x7F = byte.toNat := by rw [and_low, Nat.mod_eq_of_lt hb]
  rw [decodeFrom, if_pos ((and_high byte.toNat_lt).mpr hb), hlow, or_shift hv]

theorem decodeFrom_more {maxShift value shift : Nat} {byte : UInt8} {rest : List UInt8}
    (hv : value < 2 ^ shift) (hb : 128 ≤ byte.toNat) :
    decodeFrom maxShift value shift (byte :: rest) =
      if shift + 7 > maxShift then .error .tooLong
      else decodeFrom maxShift (value + byte.toNat % 128 * 2 ^ shift) (shift + 7) rest := by
  have hhigh : ¬ byte.toNat &&& 0x80 = 0 := by
    rw [and_high byte.toNat_lt]
    omega
  rw [decodeFrom, if_neg hhigh, and_low, or_shift hv]

/-- The value read so far stays below the next shift. -/
theorem value_lt_next {value shift low : Nat} (hv : value < 2 ^ shift) (hl : low < 128) :
    value + low * 2 ^ shift < 2 ^ (shift + 7) := by
  calc value + low * 2 ^ shift < 2 ^ shift + low * 2 ^ shift := by omega
    _ = (low + 1) * 2 ^ shift := by ring
    _ ≤ 128 * 2 ^ shift := by gcongr; omega
    _ = 2 ^ (shift + 7) := by rw [Nat.pow_add]; ring

theorem length_encode_pos (n : Nat) : 0 < (encode n).length := by
  by_cases h : n < 128
  · simp [encode_of_lt h]
  · simp [encode_of_le (Nat.le_of_not_lt h)]

theorem length_encode_le_iff (n k : Nat) : (encode n).length ≤ k + 1 ↔ n < 2 ^ (7 * (k + 1)) := by
  induction k generalizing n with
  | zero =>
    by_cases h : n < 128
    · simpa [encode_of_lt h] using h
    · have hpos := length_encode_pos (n / 128)
      rw [encode_of_le (Nat.le_of_not_lt h)]
      simp only [List.length_cons]
      omega
  | succ k ih =>
    by_cases h : n < 128
    · have hbound : 2 ^ 7 ≤ 2 ^ (7 * (k + 1 + 1)) := Nat.pow_le_pow_right (by decide) (by omega)
      rw [encode_of_lt h]
      simp only [List.length_singleton]
      omega
    · rw [encode_of_le (Nat.le_of_not_lt h), List.length_cons, Nat.add_le_add_iff_right, ih,
        show 7 * (k + 1 + 1) = 7 * (k + 1) + 7 by ring, Nat.pow_add, Nat.div_lt_iff_lt_mul (by decide)]

theorem length_encode_mono {n m : Nat} (h : n ≤ m) : (encode n).length ≤ (encode m).length := by
  obtain ⟨k, hk⟩ := Nat.exists_eq_succ_of_ne_zero (length_encode_pos m).ne'
  rw [hk, Nat.succ_eq_add_one, length_encode_le_iff]
  refine Nat.lt_of_le_of_lt h ?_
  rw [← length_encode_le_iff]
  exact hk.le

/-- The largest number of bytes the decoder reads. -/
def maxBytes (maxShift : Nat) : Nat := maxShift / 7 + 1

/-- The values whose encoding the decoder takes. -/
def Fits (maxShift n : Nat) : Prop := n < 2 ^ (7 * maxBytes maxShift)

theorem fits_iff (maxShift n : Nat) : Fits maxShift n ↔ (encode n).length ≤ maxBytes maxShift :=
  (length_encode_le_iff n (maxShift / 7)).symm

theorem decodeFrom_encode (maxShift n value k : Nat) (rest : List UInt8)
    (hv : value < 2 ^ (7 * k)) (hk : 7 * k ≤ maxShift) :
    decodeFrom maxShift value (7 * k) (encode n ++ rest) =
      if k + (encode n).length ≤ maxBytes maxShift then .ok (value + n * 2 ^ (7 * k), rest)
      else .error .tooLong := by
  induction n using Nat.strongRecOn generalizing value k with
  | ind n ih =>
    by_cases h : n < 128
    · have hn : n.toUInt8.toNat = n := by
        rw [Nat.toUInt8, UInt8.toNat_ofNat']
        omega
      rw [encode_of_lt h, List.singleton_append, decodeFrom_last hv (by omega), hn, if_pos]
      simp only [List.length_singleton, maxBytes]
      omega
    · have hb : (n % 128 + 128).toUInt8.toNat = n % 128 + 128 := by
        rw [Nat.toUInt8, UInt8.toNat_ofNat']
        omega
      rw [encode_of_le (Nat.le_of_not_lt h), List.cons_append, decodeFrom_more hv (by omega), hb]
      have hpos := length_encode_pos (n / 128)
      simp only [List.length_cons]
      by_cases hshift : 7 * k + 7 > maxShift
      · rw [if_pos hshift, if_neg]
        simp only [maxBytes]
        omega
      · have hnext := value_lt_next hv (Nat.mod_lt (n % 128 + 128) (by decide : 0 < 128))
        rw [if_neg hshift, show 7 * k + 7 = 7 * (k + 1) by ring,
          ih (n / 128) (by omega) _ (k + 1) (by rwa [show 7 * (k + 1) = 7 * k + 7 by ring])
            (by omega)]
        have hsum : value + (n % 128 + 128) % 128 * 2 ^ (7 * k) + n / 128 * 2 ^ (7 * (k + 1)) =
            value + n * 2 ^ (7 * k) := by
          have hdiv : n % 128 + n / 128 * 128 = n := by omega
          have hpow : 2 ^ (7 * (k + 1)) = 128 * 2 ^ (7 * k) := by
            rw [show 7 * (k + 1) = 7 * k + 7 by ring, Nat.pow_add]
            ring
          rw [hpow, Nat.add_mod_right, Nat.mod_mod]
          calc value + n % 128 * 2 ^ (7 * k) + n / 128 * (128 * 2 ^ (7 * k))
              = value + (n % 128 + n / 128 * 128) * 2 ^ (7 * k) := by ring
            _ = value + n * 2 ^ (7 * k) := by rw [hdiv]
        rw [hsum, show k + 1 + (encode (n / 128)).length = k + ((encode (n / 128)).length + 1) by ring]

theorem decode_encode {maxShift n : Nat} (rest : List UInt8) (h : Fits maxShift n) :
    decode maxShift (encode n ++ rest) = .ok (n, rest) := by
  have hdecode := decodeFrom_encode maxShift n 0 0 rest (by simp) (by simp)
  rw [if_pos (by rw [Nat.zero_add, ← fits_iff]; exact h)] at hdecode
  simpa [decode] using hdecode

theorem decode_encode_of_not_fits {maxShift n : Nat} (rest : List UInt8) (h : ¬ Fits maxShift n) :
    decode maxShift (encode n ++ rest) = .error .tooLong := by
  have hdecode := decodeFrom_encode maxShift n 0 0 rest (by simp) (by simp)
  rwa [if_neg (by rw [Nat.zero_add, ← fits_iff]; exact h)] at hdecode

/-- No encoding continues another: a decoder that shifts far enough reads both. -/
theorem encode_append_inj {n m : Nat} {s t : List UInt8} (h : encode n ++ s = encode m ++ t) :
    n = m ∧ s = t := by
  have hfits : ∀ k ≤ n + m, Fits (7 * (n + m)) k := by
    intro k hk
    have hpow : 2 ^ k ≤ 2 ^ (7 * maxBytes (7 * (n + m))) :=
      Nat.pow_le_pow_right (by decide) (by unfold maxBytes; omega)
    exact Nat.lt_of_lt_of_le Nat.lt_two_pow_self hpow
  have hleft := decode_encode s (hfits n (Nat.le_add_right n m))
  rw [h, decode_encode t (hfits m (Nat.le_add_left m n))] at hleft
  simp only [Except.ok.injEq, Prod.mk.injEq] at hleft
  exact ⟨hleft.1.symm, hleft.2.symm⟩

/-- What the decoder accepts, overlong encodings included: it reads a nonempty part of the bytes,
no longer than `maxBytes`, that is worth the value. -/
theorem decodeFrom_ok {maxShift value k n : Nat} {bytes rest : List UInt8}
    (hv : value < 2 ^ (7 * k)) (hk : 7 * k ≤ maxShift)
    (h : decodeFrom maxShift value (7 * k) bytes = .ok (n, rest)) :
    ∃ used, bytes = used ++ rest ∧ used ≠ [] ∧ k + used.length ≤ maxBytes maxShift ∧
      n < 2 ^ (7 * (k + used.length)) := by
  induction bytes generalizing value k with
  | nil => cases h
  | cons byte bytes ih =>
    by_cases hb : byte.toNat < 128
    · rw [decodeFrom_last hv hb] at h
      cases h
      refine ⟨[byte], rfl, by simp, ?_, ?_⟩
      · simp only [List.length_singleton, maxBytes]
        omega
      · simpa [Nat.mul_add] using value_lt_next hv hb
    · rw [decodeFrom_more hv (by omega)] at h
      split at h
      · cases h
      · rename_i hshift
        have hnext := value_lt_next hv (Nat.mod_lt byte.toNat (by decide : 0 < 128))
        rw [show 7 * k + 7 = 7 * (k + 1) by ring] at h hnext
        obtain ⟨used, rfl, -, hlen, hlt⟩ := ih hnext (by omega) h
        refine ⟨byte :: used, rfl, by simp, ?_, ?_⟩
        · simp only [List.length_cons]
          omega
        · rw [List.length_cons, show k + (used.length + 1) = k + 1 + used.length by ring]
          exact hlt

theorem decode_ok {maxShift n : Nat} {bytes rest : List UInt8}
    (h : decode maxShift bytes = .ok (n, rest)) :
    Fits maxShift n ∧ (encode n).length + rest.length ≤ bytes.length := by
  obtain ⟨used, rfl, hne, hlen, hlt⟩ := decodeFrom_ok (k := 0) (by simp) (by simp) h
  rw [Nat.zero_add] at hlen hlt
  obtain ⟨j, hj⟩ := Nat.exists_eq_succ_of_ne_zero (mt List.length_eq_zero_iff.mp hne)
  have hcanonical : (encode n).length ≤ used.length := by
    rw [hj, Nat.succ_eq_add_one, length_encode_le_iff, ← Nat.succ_eq_add_one, ← hj]
    exact hlt
  refine ⟨(fits_iff _ _).mpr (hcanonical.trans hlen), ?_⟩
  rw [List.length_append]
  omega

end Cygnus.Varint
