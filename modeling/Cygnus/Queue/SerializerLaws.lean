import Cygnus.Data.Result
import Cygnus.Queue.Serializer

namespace Cygnus.Queue

open Sequence Result

namespace Emit

@[simp] theorem write_eq {bs out : Bytes} : write bs = ⟨out, none⟩ ↔ bs = out := by
  simp [write]

@[simp] theorem fail_ne {message : String} {out : Bytes} : fail message ≠ ⟨out, none⟩ := by
  simp [fail]

theorem seq_eq {a b : Emit} {out : Bytes} :
    a.seq b = ⟨out, none⟩ ↔ ∃ x y, a = ⟨x, none⟩ ∧ b = ⟨y, none⟩ ∧ out = x ++ y := by
  obtain ⟨abytes, aerror⟩ := a
  obtain ⟨bbytes, berror⟩ := b
  cases aerror <;> simp [seq, eq_comm, and_comm]

theorem all_eq {es : List Emit} {out : Bytes} :
    all es = ⟨out, none⟩ ↔
      ∃ parts, List.Forall₂ (fun e part => e = ⟨part, none⟩) es parts ∧ out = parts.flatten := by
  induction es generalizing out with
  | nil => simp [all, write, eq_comm]
  | cons e es ih =>
    rw [all, seq_eq]
    constructor
    · rintro ⟨x, y, he, hes, rfl⟩
      obtain ⟨parts, hparts, rfl⟩ := ih.mp hes
      exact ⟨x :: parts, .cons he hparts, rfl⟩
    · rintro ⟨parts, hparts, rfl⟩
      cases hparts with
      | cons he hes => exact ⟨_, _, he, ih.mpr ⟨_, hes, rfl⟩, rfl⟩

theorem rescue_eq {a b : Emit} {out : Bytes} :
    a.rescue b = ⟨out, none⟩ ↔
      a = ⟨out, none⟩ ∨ ∃ x y message, a = ⟨x, some (.queueSerializationError message)⟩ ∧
        b = ⟨y, none⟩ ∧ out = x ++ y := by
  obtain ⟨abytes, aerror⟩ := a
  obtain ⟨bbytes, berror⟩ := b
  cases aerror with
  | none => simp [rescue]
  | some e => cases e <;> simp [rescue, eq_comm, and_comm]

theorem ext_iff_error {e : Emit} : e.error = none ↔ e = ⟨e.bytes, none⟩ := by
  cases e
  simp

end Emit

@[simp] theorem Tag.ofByte?_byte (tag : Tag) : Tag.ofByte? tag.byte = some tag := by
  cases tag <;> decide

theorem unzigzag_zigzag (i : Int) : unzigzag (zigzag i) = i := by
  have hlow : ∀ n : Nat, n &&& 1 = n % 2 := fun n => Nat.and_one_is_mod n
  unfold zigzag unzigzag
  simp only [hlow, Nat.shiftLeft_eq, Nat.shiftRight_eq_div_pow, Nat.pow_one]
  split
  · rw [if_neg (by omega)]
    omega
  · rw [if_pos (by omega)]
    omega

theorem zigzag_unzigzag (n : Nat) : zigzag (unzigzag n) = n := by
  have hlow : n &&& 1 = n % 2 := Nat.and_one_is_mod n
  unfold unzigzag
  simp only [hlow, Nat.shiftRight_eq_div_pow, Nat.pow_one]
  split
  · rw [zigzag, if_neg (by omega), Nat.shiftLeft_eq]
    omega
  · rw [zigzag, if_pos (by omega), Nat.shiftLeft_eq]
    omega

theorem fits_of_le {n : Nat} (h : n ≤ maxSerializedBytes) : Varint.Fits maxVarintShift n := by
  have hpow : 2 ^ 23 ≤ 2 ^ (7 * Varint.maxBytes maxVarintShift) :=
    Nat.pow_le_pow_right (by decide) (by decide)
  have hmax : maxSerializedBytes < 2 ^ 23 := by decide
  unfold Varint.Fits
  omega

theorem decodeUint_encode {n : Nat} (rest : Bytes) (h : Varint.Fits maxVarintShift n) :
    decodeUint (Varint.encode n ++ rest) = .ok (n, rest) := by
  rw [decodeUint, Varint.decode_encode rest h]

theorem decodeUint_ok {data rest : Bytes} {n : Nat} (h : decodeUint data = .ok (n, rest)) :
    Varint.decode maxVarintShift data = .ok (n, rest) := by
  unfold decodeUint at h
  split at h
  · rename_i hdecode
    rw [hdecode, ← Except.ok.inj h]
  · cases h
  · cases h

theorem fits_of_decodeUint {n m : Nat} {rest r : Bytes}
    (h : decodeUint (Varint.encode n ++ rest) = .ok (m, r)) : Varint.Fits maxVarintShift n := by
  by_contra hfits
  have hdecode := decodeUint_ok h
  rw [Varint.decode_encode_of_not_fits rest hfits] at hdecode
  cases hdecode

theorem decodeBlob_encode {bs : Bytes} (truncated : String) (rest : Bytes)
    (h : bs.length ≤ maxSerializedBytes) :
    decodeBlob truncated (Varint.encode bs.length ++ (bs ++ rest)) = .ok (bs, rest) := by
  simp [decodeBlob, decodeUint_encode _ (fits_of_le h), require, bind, Except.bind, pure,
    Except.pure]

theorem decodeBlob_ok {truncated : String} {data bs rest : Bytes}
    (h : decodeBlob truncated data = .ok (bs, rest)) :
    (Varint.encode bs.length).length + bs.length + rest.length ≤ data.length := by
  simp only [decodeBlob, bind_ok, require_ok, pure_ok, Prod.mk.injEq] at h
  obtain ⟨⟨n, tail⟩, huint, -, hlen, rfl, rfl⟩ := h
  have hdecode := (Varint.decode_ok (decodeUint_ok huint)).2
  have htake : (tail.take n).length = n := by simpa using hlen
  rw [htake, List.length_drop]
  dsimp only at hlen ⊢
  omega

theorem encodeStr_eq {s : PyStr} {out : Bytes} (h : encodeStr s = ⟨out, none⟩) :
    ∃ encoded, Utf8.encode s = some encoded ∧
      out = Tag.str.byte :: (Varint.encode encoded.length ++ encoded) := by
  unfold encodeStr at h
  split at h
  · cases h
  · rename_i encoded hencode
    exact ⟨encoded, hencode, (Emit.write_eq.mp h).symm⟩

theorem decode_encodeStr {s : PyStr} {out : Bytes} (levels : Nat) (rest : Bytes)
    (h : encodeStr s = ⟨out, none⟩) (hlen : out.length ≤ maxSerializedBytes) :
    decode (levels + 1) (out ++ rest) = .ok (.str s, rest) := by
  obtain ⟨encoded, hencode, rfl⟩ := encodeStr_eq h
  have hsmall : encoded.length ≤ maxSerializedBytes := by
    simp only [List.length_cons, List.length_append] at hlen
    omega
  simp only [List.cons_append, List.append_assoc, decode, Tag.ofByte?_byte,
    decodeBlob_encode _ rest hsmall, Utf8.decode_of_encode hencode, bind, Except.bind]
  rfl

section Items

variable {dec : Bytes → Decoding (Value × Bytes)}

/-- Items that decode back in front of any further bytes decode back in a row. -/
theorem decodeItems_flatten {parts : List Bytes} {values : List Value}
    (h : List.Forall₂ (fun part v => ∀ rest, dec (part ++ rest) = .ok (v, rest)) parts values)
    (rest : Bytes) :
    decodeItems dec values.length (parts.flatten ++ rest) = .ok (values, rest) := by
  induction h with
  | nil => rfl
  | cons hhead _ ih =>
    simp only [List.length_cons, decodeItems, List.flatten_cons, List.append_assoc, hhead, ih, bind,
      Except.bind]
    rfl

theorem length_decodeItems {count : Nat} {data rest : Bytes} {values : List Value}
    (h : decodeItems dec count data = .ok (values, rest)) : values.length = count := by
  induction count generalizing data values with
  | zero =>
    cases h
    rfl
  | succ count ih =>
    simp only [decodeItems, bind_ok, pure_ok, Prod.mk.injEq] at h
    obtain ⟨_, -, ⟨items, tail⟩, hitems, rfl, rfl⟩ := h
    rw [List.length_cons, ih hitems]

/-- Reading items back: if a right value is only decoded where `good` holds and then ends where
the item ends, a right list of values needs `good` of every item. -/
theorem good_of_decodeItems {α : Type} {good : α → Prop} {expected : α → Value}
    {parts : List Bytes} {items : List α}
    (h : List.Forall₂ (fun part x => ∀ rest v r, dec (part ++ rest) = .ok (v, r) →
      v.canon = expected x → good x ∧ r = rest) parts items)
    {rest r : Bytes} {values : List Value}
    (hdecode : decodeItems dec items.length (parts.flatten ++ rest) = .ok (values, r))
    (hvalues : values.map Value.canon = items.map expected) :
    (∀ x ∈ items, good x) ∧ r = rest := by
  induction h generalizing values with
  | nil =>
    cases hdecode
    simp
  | cons hhead _ ih =>
    simp only [List.length_cons, decodeItems, List.flatten_cons, List.append_assoc, bind_ok, pure_ok,
      Prod.mk.injEq] at hdecode
    obtain ⟨⟨v, tail⟩, hv, ⟨vs, tail'⟩, hvs, rfl, rfl⟩ := hdecode
    simp only [List.map_cons, List.cons.injEq] at hvalues
    obtain ⟨hgood, rfl⟩ := hhead _ _ _ hv hvalues.1
    obtain ⟨hrest, hr⟩ := ih hvs hvalues.2
    exact ⟨List.forall_mem_cons.mpr ⟨hgood, hrest⟩, hr⟩

theorem decodeEntries_flatten {parts : List (Bytes × Bytes)} {entries : List (PyStr × Value)}
    (h : List.Forall₂ (fun part e => (∀ rest, dec (part.1 ++ rest) = .ok (.str e.1, rest)) ∧
      ∀ rest, dec (part.2 ++ rest) = .ok (e.2, rest)) parts entries) (rest : Bytes) :
    decodeEntries dec entries.length ((parts.map fun p => p.1 ++ p.2).flatten ++ rest) =
      .ok (entries, rest) := by
  induction h with
  | nil => rfl
  | cons hhead _ ih =>
    simp only [List.length_cons, decodeEntries, List.map_cons, List.flatten_cons,
      List.append_assoc, hhead.1, hhead.2, ih, bind, Except.bind]
    rfl

theorem length_decodeEntries {count : Nat} {data rest : Bytes} {entries : List (PyStr × Value)}
    (h : decodeEntries dec count data = .ok (entries, rest)) : entries.length = count := by
  induction count generalizing data entries with
  | zero =>
    cases h
    rfl
  | succ count ih =>
    simp only [decodeEntries, bind_ok] at h
    obtain ⟨⟨key, data'⟩, -, h⟩ := h
    split at h
    · simp only [bind_ok, pure_ok, Prod.mk.injEq] at h
      obtain ⟨_, -, ⟨tail, _⟩, htail, rfl, rfl⟩ := h
      rw [List.length_cons, ih htail]
    · simp at h

/-- The same for entries, whose keys always decode back. -/
theorem good_of_decodeEntries {α : Type} {good : α → Prop} {expected : α → Value} {key : α → PyStr}
    {parts : List (Bytes × Bytes)} {items : List α}
    (h : List.Forall₂ (fun part x => (∀ rest, dec (part.1 ++ rest) = .ok (.str (key x), rest)) ∧
      ∀ rest v r, dec (part.2 ++ rest) = .ok (v, r) → v.canon = expected x →
        good x ∧ r = rest) parts items)
    {rest r : Bytes} {entries : List (PyStr × Value)}
    (hdecode : decodeEntries dec items.length
      ((parts.map fun p => p.1 ++ p.2).flatten ++ rest) = .ok (entries, r))
    (hentries : ∀ e ∈ entries, ∀ x ∈ items, e.1 = key x → e.2.canon = expected x) :
    (∀ x ∈ items, good x) ∧ r = rest := by
  induction h generalizing entries with
  | nil =>
    cases hdecode
    simp
  | cons hhead _ ih =>
    simp only [List.length_cons, decodeEntries, List.map_cons, List.flatten_cons,
      List.append_assoc, hhead.1, bind_ok, pure_ok, Except.ok.injEq, exists_eq_left',
      Prod.mk.injEq] at hdecode
    obtain ⟨⟨v, tail⟩, hv, ⟨es, tail'⟩, hes, rfl, rfl⟩ := hdecode
    have hcanon := hentries _ List.mem_cons_self _ List.mem_cons_self rfl
    obtain ⟨hgood, rfl⟩ := hhead.2 _ _ _ hv hcanon
    obtain ⟨hrest, hr⟩ := ih hes fun e he x hx =>
      hentries e (List.mem_cons_of_mem _ he) x (List.mem_cons_of_mem _ hx)
    exact ⟨List.forall_mem_cons.mpr ⟨hgood, hrest⟩, hr⟩

end Items

section Containers

variable {count : Nat} (levels : Nat) (data : Bytes) (h : count ≤ maxContainerItems)

theorem fits_of_le_items {n : Nat} (h : n ≤ maxContainerItems) : Varint.Fits maxVarintShift n :=
  fits_of_le (h.trans (by decide))

include h

theorem decode_list :
    decode (levels + 1) (Tag.list.byte :: (Varint.encode count ++ data)) =
      (decodeItems (decode levels) count data).map fun r => (.list r.1, r.2) := by
  simp only [decode, Tag.ofByte?_byte, decodeUint_encode _ (fits_of_le_items h), require, if_pos h,
    bind, Except.bind, Except.map]
  cases decodeItems (decode levels) count data <;> rfl

theorem decode_tuple :
    decode (levels + 1) (Tag.tuple.byte :: (Varint.encode count ++ data)) =
      (decodeItems (decode levels) count data).map fun r => (.tuple r.1, r.2) := by
  simp only [decode, Tag.ofByte?_byte, decodeUint_encode _ (fits_of_le_items h), require, if_pos h,
    bind, Except.bind, Except.map]
  cases decodeItems (decode levels) count data <;> rfl

theorem decode_map :
    decode (levels + 1) (Tag.map.byte :: (Varint.encode count ++ data)) =
      (decodeEntries (decode levels) count data).map fun r => (.map (Dict.ofList r.1), r.2) := by
  simp only [decode, Tag.ofByte?_byte, decodeUint_encode _ (fits_of_le_items h), require, if_pos h,
    bind, Except.bind, Except.map]
  cases decodeEntries (decode levels) count data <;> rfl

end Containers

theorem encodeSequence_eq {tag : Tag} {items : List Emit} {out : Bytes}
    (h : encodeSequence tag items = ⟨out, none⟩) :
    items.length ≤ maxContainerItems ∧
      ∃ parts, List.Forall₂ (fun e part => e = ⟨part, none⟩) items parts ∧
        out = tag.byte :: (Varint.encode items.length ++ parts.flatten) := by
  unfold encodeSequence at h
  split at h
  · exact absurd h Emit.fail_ne
  · rename_i hlen
    obtain ⟨_, _, hhead, htail, rfl⟩ := Emit.seq_eq.mp h
    obtain ⟨parts, hparts, rfl⟩ := Emit.all_eq.mp htail
    rw [← Emit.write_eq.mp hhead]
    exact ⟨Nat.le_of_not_lt hlen, parts, hparts, rfl⟩

end Cygnus.Queue
