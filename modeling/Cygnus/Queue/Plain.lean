import Cygnus.Queue.Payload

/-! Payloads without exceptions. -/

namespace Cygnus.Queue

open Sequence Result

/-- Every integer in the value is one the decoder reads. -/
def Value.IntsInRange (v : Value) : Prop := v.Everywhere fun
  | .int i => -2 ^ 4101 ≤ i ∧ i < 2 ^ 4101
  | _ => True

/-- A value built from the primitives, lists, tuples and dicts with string keys. -/
abbrev PlainValue := { v : Value // v.NoException ∧ v.DistinctKeys }

section Plain

variable (text : ExceptionClass → List Value → PyStr)

theorem strEntries_toObj (entries : List (PyStr × Value)) :
    strEntries (entries.map fun e => (.str e.1, e.2.toObj text)) =
      some (entries.map fun e => (e.1, e.2.toObj text)) := by
  induction entries with
  | nil => rfl
  | cons e entries ih =>
    rw [List.map_cons, strEntries, List.mapM_cons]
    rw [strEntries] at ih
    rw [ih]
    rfl

theorem Value.DistinctKeys.toObj {v : Value} (h : v.DistinctKeys) :
    (v.toObj text).DistinctKeys := by
  induction h with
  | @intro v hv _ ih =>
    have hitems : ∀ items : List Value,
        (∀ c ∈ items, (c.toObj text).DistinctKeys) →
        ∀ x ∈ items.map (Value.toObj text), x.DistinctKeys := by
      intro items hchildren x hx
      obtain ⟨c, hc, rfl⟩ := List.mem_map.mp hx
      exact hchildren c hc
    cases v with
    | none => exact .none
    | bool b => exact .bool b
    | int i => exact .int i
    | str s => exact .str s
    | bytes bs => exact .bytes bs
    | list items =>
      rw [Value.toObj, itemsToObj_eq]
      exact .list (hitems items ih)
    | tuple items =>
      rw [Value.toObj, itemsToObj_eq]
      exact .tuple (hitems items ih)
    | map entries =>
      rw [Value.toObj, entriesToObj_eq]
      refine .dict ?_ ?_
      · rw [keys_strEntries (strEntries_toObj text entries), List.map_map]
        exact hv
      · intro e he
        obtain ⟨c, hc, rfl⟩ := List.mem_map.mp he
        exact ih c.2 (List.mem_map_of_mem hc)
    | exc cls args =>
      rw [Value.toObj, itemsToObj_eq]
      exact .exc _ _ (hitems args ih)

theorem exists_part {α : Type} {f : α → Emit} {parts : List Bytes} {items : List α}
    (h : List.Forall₂ (fun part x => f x = ⟨part, none⟩) parts items) {x : α} (hx : x ∈ items) :
    ∃ part, f x = ⟨part, none⟩ := by
  induction h with
  | nil => cases hx
  | cons hhead _ ih =>
    rcases List.mem_cons.mp hx with rfl | hx
    · exact ⟨_, hhead⟩
    · exact ih hx

/-- What reading back an encoded value without exceptions comes to. -/
def PlainAt (levels : Nat) (v : Value) : Prop :=
  restored levels (v.toObj text) = v.canon ∧ (Intact levels (v.toObj text) ↔ v.IntsInRange)

theorem restored_items {levels : Nat} {items : List Value}
    (h : ∀ c ∈ items, PlainAt text levels c) :
    (items.map (Value.toObj text)).map (restored levels) = items.map Value.canon := by
  rw [List.map_map]
  exact List.map_congr_left fun c hc => (h c hc).1

theorem intact_items {levels : Nat} {items : List Value}
    (h : ∀ c ∈ items, PlainAt text levels c) :
    (∀ x ∈ items.map (Value.toObj text), Intact levels x) ↔ ∀ c ∈ items, c.IntsInRange := by
  rw [List.forall_mem_map]
  exact forall₂_congr fun c hc => (h c hc).2

theorem plainAt_items {levels : Nat} {items : List Value}
    (ih : ∀ c ∈ items, ∀ levels out, encode levels (c.toObj text) = ⟨out, none⟩ →
      PlainAt text levels c) {tag : Tag} {out : Bytes}
    (h : encodeSequence tag ((items.map (Value.toObj text)).map (encode levels)) = ⟨out, none⟩) :
    ∀ c ∈ items, PlainAt text levels c := by
  intro c hc
  obtain ⟨-, parts, hparts, -⟩ := encodeSequence_eq h
  obtain ⟨part, hpart⟩ := exists_part (parts_of_items hparts) (List.mem_map_of_mem hc)
  exact ih c hc levels part hpart

theorem plainAt_entries {levels : Nat} {entries : List (PyStr × Value)}
    (ih : ∀ c ∈ entries.map Prod.snd, ∀ levels out, encode levels (c.toObj text) = ⟨out, none⟩ →
      PlainAt text levels c) {out : Bytes}
    (h : encode (levels + 1)
      (.dict (entries.map fun e => (.str e.1, e.2.toObj text))) = ⟨out, none⟩) :
    ∀ e ∈ entries, PlainAt text levels e.2 := by
  intro e he
  obtain ⟨found, parts, hfound, -, -, hparts⟩ := encode_dict_eq h
  rw [strEntries_toObj] at hfound
  obtain rfl := Option.some.inj hfound
  have hvalues : List.Forall₂ (fun part x => encode levels x.2 = ⟨part, none⟩)
      (parts.map Prod.snd)
      (sortedBy Prod.fst (entries.map fun e => (e.1, e.2.toObj text))) := by
    rw [List.forall₂_map_left_iff]
    exact hparts.imp fun _ _ hencode => hencode.2
  have hmem : (e.1, e.2.toObj text) ∈
      sortedBy Prod.fst (entries.map fun e => (e.1, e.2.toObj text)) := by
    rw [mem_sortedBy]
    exact List.mem_map_of_mem he
  obtain ⟨part, hpart⟩ := exists_part hvalues hmem
  exact ih e.2 (List.mem_map_of_mem he) levels part hpart

theorem plainAt_of_encode {v : Value} (hv : v.NoException) (levels : Nat) (out : Bytes)
    (h : encode levels (v.toObj text) = ⟨out, none⟩) : PlainAt text levels v := by
  induction hv generalizing levels out with
  | @intro v hplain _ ih =>
    cases levels with
    | zero => exact absurd h Emit.fail_ne
    | succ levels =>
      cases v with
      | none | bool | str | bytes =>
        exact ⟨rfl, iff_of_true trivial (Value.everywhere_leaf rfl trivial)⟩
      | int i =>
        refine ⟨rfl, ?_⟩
        rw [Value.IntsInRange]
        exact ⟨fun h => Value.everywhere_leaf rfl h, fun h => (Value.everywhere_iff.mp h).1⟩
      | list items =>
        rw [Value.toObj, itemsToObj_eq] at h
        have hitems : ∀ c ∈ items, PlainAt text levels c := plainAt_items text ih h
        rw [PlainAt, Value.toObj, itemsToObj_eq, Value.IntsInRange, Value.everywhere_iff]
        refine ⟨?_, (intact_items text hitems).trans (and_iff_right trivial).symm⟩
        rw [restored, restored_items text hitems, Value.canon, canonItems_eq]
      | tuple items =>
        rw [Value.toObj, itemsToObj_eq] at h
        have hitems : ∀ c ∈ items, PlainAt text levels c := plainAt_items text ih h
        rw [PlainAt, Value.toObj, itemsToObj_eq, Value.IntsInRange, Value.everywhere_iff]
        refine ⟨?_, (intact_items text hitems).trans (and_iff_right trivial).symm⟩
        rw [restored, restored_items text hitems, Value.canon, canonItems_eq]
      | map entries =>
        rw [Value.toObj, entriesToObj_eq] at h
        have hentries := plainAt_entries text ih h
        rw [PlainAt, Value.toObj, entriesToObj_eq, Value.IntsInRange, Value.everywhere_iff]
        constructor
        · rw [restored, strEntries_toObj, Option.getD_some, sortedBy_fst_map, List.map_map,
            Value.canon, canonEntries_eq, sortedBy_fst_map]
          refine congrArg Value.map (List.map_congr_left fun e he => ?_)
          exact Prod.ext rfl (hentries e (mem_sortedBy.mp he)).1
        · rw [Intact, List.forall_mem_map]
          refine Iff.trans ?_ (and_iff_right trivial).symm
          rw [Value.children, List.forall_mem_map]
          exact forall₂_congr fun e he => (hentries e he).2
      | exc cls args => exact hplain.elim

/-- A value without exceptions comes back exactly when its integers are in the decoder's range. -/
theorem loads_dumps_plain_iff (v : PlainValue) (b : Bytes) (h : dumps (v.1.toObj text) = .ok b) :
    (∃ w, loads b = .ok w ∧ w.canon = v.1.canon) ↔ v.1.IntsInRange := by
  obtain ⟨out, hencode, -, -⟩ := dumps_ok h
  obtain ⟨hrestored, hintact⟩ := plainAt_of_encode text v.2.1 _ out hencode
  let p : Payload := ⟨v.1.toObj text, v.2.2.toObj text⟩
  constructor
  · rintro ⟨w, hloads, hw⟩
    rw [← hrestored] at hw
    exact hintact.mp (intact_of_loads p h hloads hw)
  · intro hrange
    refine ⟨_, loads_of_intact p h (hintact.mpr hrange), ?_⟩
    rw [← hrestored]
    exact canon_restored _ _

end Plain

def plainInt (i : Int) : PlainValue := ⟨.int i, by
  constructor <;> exact Value.everywhere_leaf rfl trivial⟩

/-- The hypotheses hold together at a small integer. -/
theorem seven_round_trips :
    ∃ b, dumps ((plainInt 7).1.toObj fun _ _ => []) = .ok b ∧
      ∃ w, loads b = .ok w ∧ w.canon = (plainInt 7).1.canon := by
  refine ⟨header ++ [3, 14], by decide +kernel,
    (loads_dumps_plain_iff (fun _ _ => []) (plainInt 7) _ (by decide +kernel)).mpr ?_⟩
  apply Value.everywhere_leaf rfl
  exact (fits_zigzag_iff 7).mp (fits_of_le (by decide))

theorem zigzag_two_pow_lt : zigzag (2 ^ 4101) < 2 ^ (7 * (586 + 1)) := by
  have hcast : ((2 ^ 4101 : Nat) : Int) = 2 ^ 4101 := Nat.cast_pow 2 4101
  have hmono : ∀ {k l : Nat}, k ≤ l → 2 ^ k ≤ 2 ^ l := Nat.pow_le_pow_right (by decide)
  have hpow := hmono (show 4101 + 2 ≤ 7 * (586 + 1) by decide)
  have hdouble : ∀ k : Nat, 2 ^ (k + 2) = 4 * 2 ^ k := fun k => by rw [Nat.pow_add, Nat.mul_comm]
  have hpos : 0 < 2 ^ 4101 := Nat.two_pow_pos 4101
  rw [hdouble] at hpow
  rw [zigzag, ← hcast, if_pos (Int.natCast_nonneg _), Int.toNat_natCast, Nat.shiftLeft_eq,
    Nat.pow_one]
  generalize 2 ^ 4101 = bound at hpow hpos ⊢
  omega

/-- The encoder accepts an integer one past the decoder's range. -/
theorem two_pow_not_restored :
    ∃ b, dumps ((plainInt (2 ^ 4101)).1.toObj fun _ _ => []) = .ok b ∧
      ¬ ∃ w, loads b = .ok w ∧ w.canon = (plainInt (2 ^ 4101)).1.canon := by
  have hlength := (Varint.length_encode_le_iff (zigzag (2 ^ 4101)) 586).mpr zigzag_two_pow_lt
  have hsmall : (header ++ Tag.int.byte :: Varint.encode (zigzag (2 ^ 4101))).length ≤
      maxSerializedBytes := by
    have hmax : 4 * 1024 * 1024 = maxSerializedBytes := rfl
    have hheader : header.length = 5 := rfl
    rw [List.length_append, List.length_cons]
    omega
  have hdumps := dumps_of_encode (p := .int (2 ^ 4101)) rfl hsmall
  refine ⟨_, hdumps, ?_⟩
  rintro ⟨w, hloads, hw⟩
  have hrange := intact_of_loads ⟨.int (2 ^ 4101), .int _⟩ hdumps hloads hw
  exact absurd hrange.2 (lt_irrefl _)

end Cygnus.Queue
