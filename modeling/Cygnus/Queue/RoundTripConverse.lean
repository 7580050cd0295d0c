import Cygnus.Queue.RoundTrip

/-! The converse of the round trip: a right value is only decoded from what was written of an
intact object. -/

namespace Cygnus.Queue

open Sequence Result

/-- At this many levels, a right value needs an intact object, and ends where its bytes end. -/
def RightOnlyIfIntact (levels : Nat) : Prop :=
  ∀ {p : PyObj} {out : Bytes}, p.DistinctKeys → encode levels p = ⟨out, none⟩ →
    out.length ≤ maxSerializedBytes →
    ∀ rest v r, decode levels (out ++ rest) = .ok (v, r) → v.canon = restored levels p →
      Intact levels p ∧ r = rest

section RightOnlyIfIntact

variable {levels : Nat}

theorem RightOnlyIfIntact.items (hright : RightOnlyIfIntact levels) {items : List PyObj}
    {parts : List Bytes} (hkeys : ∀ x ∈ items, x.DistinctKeys)
    (hlen : parts.flatten.length ≤ maxSerializedBytes)
    (hparts : List.Forall₂ (fun part x => encode levels x = ⟨part, none⟩) parts items)
    {rest r : Bytes} {values : List Value}
    (hdecode : decodeItems (decode levels) items.length (parts.flatten ++ rest) = .ok (values, r))
    (hvalues : values.map Value.canon = items.map (restored levels)) :
    ∀ x ∈ items, Intact levels x := by
  refine (good_of_decodeItems (forall₂_imp_of_mem hparts ?_) hdecode hvalues).1
  intro part hpart x hx hencode
  exact hright (hkeys x hx) hencode ((length_le_flatten hpart).trans hlen)

theorem RightOnlyIfIntact.list (hright : RightOnlyIfIntact levels) {items : List PyObj}
    {out : Bytes} (hkeys : ∀ x ∈ items, x.DistinctKeys)
    (h : encode (levels + 1) (.list items) = ⟨out, none⟩)
    (hlen : out.length ≤ maxSerializedBytes) {rest r : Bytes} {v : Value}
    (hdecode : decode (levels + 1) (out ++ rest) = .ok (v, r))
    (hv : v.canon = .list (items.map (restored levels))) : ∀ x ∈ items, Intact levels x := by
  obtain ⟨hcount, parts, hparts, rfl⟩ := encodeSequence_eq h
  simp only [List.length_map, List.length_cons, List.length_append] at hcount hlen hdecode
  rw [List.cons_append, List.append_assoc, decode_list _ _ hcount, map_ok] at hdecode
  obtain ⟨⟨values, tail⟩, hitems, heq⟩ := hdecode
  obtain ⟨rfl, rfl⟩ := Prod.mk.inj heq
  simp only [Value.canon, canonItems_eq, Value.list.injEq] at hv
  exact hright.items hkeys (by omega) (parts_of_items hparts) hitems hv

theorem RightOnlyIfIntact.tuple (hright : RightOnlyIfIntact levels) {items : List PyObj}
    {out : Bytes} (hkeys : ∀ x ∈ items, x.DistinctKeys)
    (h : encode (levels + 1) (.tuple items) = ⟨out, none⟩)
    (hlen : out.length ≤ maxSerializedBytes) {rest r : Bytes} {v : Value}
    (hdecode : decode (levels + 1) (out ++ rest) = .ok (v, r))
    (hv : v.canon = .tuple (items.map (restored levels))) : ∀ x ∈ items, Intact levels x := by
  obtain ⟨hcount, parts, hparts, rfl⟩ := encodeSequence_eq h
  simp only [List.length_map, List.length_cons, List.length_append] at hcount hlen hdecode
  rw [List.cons_append, List.append_assoc, decode_tuple _ _ hcount, map_ok] at hdecode
  obtain ⟨⟨values, tail⟩, hitems, heq⟩ := hdecode
  obtain ⟨rfl, rfl⟩ := Prod.mk.inj heq
  simp only [Value.canon, canonItems_eq, Value.tuple.injEq] at hv
  exact hright.items hkeys (by omega) (parts_of_items hparts) hitems hv

/-- A map with the right canonical form was decoded without writing a key twice, and every value
read is the one expected under its key. -/
theorem entries_right {entries : List (PyStr × Value)} {found : List (PyStr × PyObj)}
    {expected : PyObj → Value} (hcount : entries.length = found.length)
    (hnodup : (found.map Prod.fst).Nodup)
    (h : (Value.map (Dict.ofList entries)).canon = .map (found.map fun e => (e.1, expected e.2))) :
    ∀ e ∈ entries, ∀ x ∈ found, e.1 = x.1 → e.2.canon = expected x.2 := by
  simp only [Value.canon, canonEntries_eq, Value.map.injEq] at h
  have hlength := congrArg List.length h
  rw [length_sortedBy, List.length_map, List.length_map, ← hcount] at hlength
  rw [Dict.ofList_of_nodup (Dict.nodup_of_length_ofList hlength)] at h
  intro e he x hx hkey
  have hmem : (e.1, e.2.canon) ∈ found.map fun e => (e.1, expected e.2) := by
    rw [← h, mem_sortedBy]
    exact List.mem_map_of_mem (f := fun e : PyStr × Value => (e.1, e.2.canon)) he
  obtain ⟨x', hx', heq⟩ := List.mem_map.mp hmem
  obtain ⟨hkey', hvalue⟩ := Prod.mk.inj heq
  have hsame : x' = x := List.inj_on_of_nodup_map hnodup hx' hx (hkey'.trans hkey)
  rw [← hvalue, hsame]

theorem RightOnlyIfIntact.dict (hright : RightOnlyIfIntact levels)
    {entries : List (DictKey × PyObj)} {out : Bytes}
    (hkeys : (entries.filterMap fun e => e.1.str?).Nodup)
    (hvalues : ∀ e ∈ entries, e.2.DistinctKeys)
    (h : encode (levels + 1) (.dict entries) = ⟨out, none⟩)
    (hlen : out.length ≤ maxSerializedBytes) {rest r : Bytes} {v : Value}
    (hdecode : decode (levels + 1) (out ++ rest) = .ok (v, r))
    (hv : v.canon = restored (levels + 1) (.dict entries)) :
    ∀ e ∈ entries, Intact levels e.2 := by
  obtain ⟨found, parts, hfound, hcount, rfl, hparts⟩ := encode_dict_eq h
  simp only [List.length_cons, List.length_append] at hlen
  rw [List.cons_append, List.append_assoc, decode_map _ _ hcount, map_ok] at hdecode
  obtain ⟨⟨decoded, tail⟩, hentries, heq⟩ := hdecode
  obtain ⟨rfl, rfl⟩ := Prod.mk.inj heq
  rw [restored, hfound, Option.getD_some] at hv
  have hlength : decoded.length = (sortedBy Prod.fst found).length := by
    rw [length_decodeEntries hentries, length_sortedBy]
  have hexpected := entries_right hlength (nodup_keys_sorted hfound hkeys) hv
  rw [← length_sortedBy Prod.fst found] at hentries
  have hgood : ∀ x ∈ sortedBy Prod.fst found, Intact levels x.2 := by
    refine (good_of_decodeEntries (forall₂_imp_of_mem hparts ?_) hentries hexpected).1
    intro part hpart x hx hencode
    have hmem := mem_of_mem_sorted hfound hx
    have hsmall := length_le_flatten (List.mem_map_of_mem (f := fun p => p.1 ++ p.2) hpart)
    simp only [List.length_append] at hsmall
    refine ⟨fun rest => decode_encode_str rest hencode.1 (by omega), ?_⟩
    exact hright (hvalues _ hmem) hencode.2 (by omega)
  intro e he
  rw [strEntries_eq hfound, List.mem_map] at he
  obtain ⟨x, hx, rfl⟩ := he
  exact hgood x (mem_sortedBy.mpr hx)

def Value.tag : Value → Tag
  | .none => .nil
  | .bool b => if b then .true else .false
  | .int _ => .int
  | .str _ => .str
  | .bytes _ => .bytes
  | .list _ => .list
  | .tuple _ => .tuple
  | .map _ => .map
  | .exc _ _ => .exc

theorem Value.tag_canon (v : Value) : v.canon.tag = v.tag := by
  cases v <;> rfl

theorem restoreException_ok {name : PyStr} {args v : Value}
    (h : restoreException (.str name) args = .ok v) :
    (∃ items, args = .tuple items ∧ v = .exc (.ofName name) items) ∨
      ∃ text, args = .str text ∧ v = .exc (.ofName name) [.str text] := by
  cases args with
  | tuple items => exact .inl ⟨items, rfl, (Except.ok.inj h).symm⟩
  | str text => exact .inr ⟨text, rfl, (Except.ok.inj h).symm⟩
  | none | bool | int | bytes | list | map | exc => cases h

/-- What is decoded behind a tag is a value of that tag. -/
theorem tag_of_decode {tag : Tag} {data r : Bytes} {v : Value}
    (h : decode (levels + 1) (tag.byte :: data) = .ok (v, r)) : v.tag = tag := by
  simp only [decode, Tag.ofByte?_byte] at h
  cases tag with
  | nil | false | true =>
    cases h
    rfl
  | int | bytes | map =>
    simp only [bind_ok, pure_ok, Prod.mk.injEq] at h
    grind [Value.tag]
  | list | tuple =>
    simp only [bind_ok, pure_ok, Prod.mk.injEq] at h
    grind [Value.tag]
  | str =>
    simp only [bind_ok] at h
    obtain ⟨_, -, h⟩ := h
    split at h
    · cases h
      rfl
    · cases h
  | exc =>
    simp only [bind_ok, pure_ok, Prod.mk.injEq] at h
    obtain ⟨⟨name, _⟩, -, ⟨args, _⟩, -, v', hv, rfl, -⟩ := h
    cases name with
    | str name => obtain ⟨_, -, rfl⟩ | ⟨_, -, rfl⟩ := restoreException_ok hv <;> rfl
    | none | bool | int | bytes | list | tuple | map | exc => cases hv

theorem exists_other_of_strEntries {entries : List (DictKey × PyObj)}
    (h : strEntries entries = none) : ∃ e ∈ entries, e.1 = .other := by
  induction entries with
  | nil => cases h
  | cons e entries ih =>
    obtain ⟨key, v⟩ := e
    cases key with
    | other => exact ⟨_, List.mem_cons_self, rfl⟩
    | str s =>
      have hcons : strEntries ((.str s, v) :: entries) =
          (strEntries entries).map ((s, v) :: ·) := by
        rw [strEntries, List.mapM_cons]
        cases htail : strEntries entries <;> rw [strEntries] at htail <;> rw [htail] <;> rfl
      rw [hcons, Option.map_eq_none_iff] at h
      obtain ⟨e, he, hkey⟩ := ih h
      exact ⟨e, List.mem_cons_of_mem _ he, hkey⟩

/-- An object refused with something already written has opened a container. -/
theorem encode_refused {x : PyObj} {left : Bytes} {message : String}
    (h : encode (levels + 1) x = ⟨left, some (.queueSerializationError message)⟩) :
    x.RefusedAtOnce ∨ ∃ tag data, tag ≠ Tag.str ∧ left = Tag.byte tag :: data := by
  have hbytes : (encode (levels + 1) x).bytes = left := congrArg Emit.bytes h
  cases x with
  | none | bool | int | bytes | bytearray => cases h
  | str s =>
    simp only [encode, encodeStr] at h
    split at h <;> cases h
  | list items | tuple items =>
    by_cases hmany : maxContainerItems < items.length
    · exact .inl hmany
    · rw [encode, (encodeSequence_bytes _ (by rw [List.length_map]; omega)).1] at hbytes
      exact .inr ⟨_, _, by decide, hbytes.symm⟩
  | dict entries =>
    simp only [encode] at hbytes
    split at hbytes
    · rename_i hmany
      exact .inl (.inl hmany)
    · split at hbytes
      · rename_i hnone
        exact .inl (.inr (exists_other_of_strEntries hnone))
      · exact .inr ⟨.map, _, by decide, hbytes.symm⟩
  | exc name text args => exact .inr ⟨.exc, _, by decide, hbytes.symm⟩
  | other typeName => exact .inl trivial

/-- The arguments given up left only what the text can be read through. -/
theorem clean_of_decode_fallback {text : PyStr} {args : List PyObj} {left tail r : Bytes}
    {message : String} {values : List Value}
    (hleft : encode (levels + 1) (.tuple args) = ⟨left, some (.queueSerializationError message)⟩)
    (hdecode : decode (levels + 1) (left ++ tail) = .ok (.tuple values, r))
    (hvalues : values.map Value.canon = [.str text]) :
    maxContainerItems < args.length ∨ ∃ x, args = [x] ∧ x.RefusedAtOnce ∧ 2 ≤ levels + 1 := by
  by_cases hmany : maxContainerItems < args.length
  · exact .inl hmany
  · have hcount : (args.map (encode levels)).length ≤ maxContainerItems := by
      rw [List.length_map]
      omega
    have hbytes := congrArg Emit.bytes hleft
    rw [encode, (encodeSequence_bytes _ hcount).1] at hbytes
    have herror := congrArg Emit.error hleft
    rw [encode, (encodeSequence_bytes _ hcount).2] at herror
    subst hbytes
    rw [List.cons_append, List.append_assoc, decode_tuple _ _ hcount, map_ok] at hdecode
    obtain ⟨⟨values', tail'⟩, hitems, heq⟩ := hdecode
    obtain ⟨hsame, -⟩ := Prod.mk.inj heq
    obtain rfl : values' = values := Value.tuple.inj hsame
    have hone : args.length = 1 := by
      have hlength := congrArg List.length hvalues
      rwa [List.length_map, length_decodeItems hitems, List.length_map] at hlength
    obtain ⟨x, rfl⟩ := List.length_eq_one_iff.mp hone
    refine .inr ⟨x, rfl, ?_⟩
    simp only [List.map_singleton, List.length_singleton, decodeItems, bind_ok, pure_ok,
      Prod.mk.injEq] at hitems
    obtain ⟨⟨v, _⟩, hv, _, ⟨rfl, rfl⟩, rfl, rfl⟩ := hitems
    have htag : v.tag = .str := by
      rw [← Value.tag_canon, (List.cons.inj hvalues).1]
      rfl
    cases levels with
    | zero => cases hv
    | succ levels =>
      refine ⟨?_, by omega⟩
      have hitem : ∃ message', encode (levels + 1) x =
          ⟨(encode (levels + 1) x).bytes, some (.queueSerializationError message')⟩ := by
        cases hx : encode (levels + 1) x with
        | mk bytes error =>
          cases error with
          | none => simp [Emit.all, Emit.seq, Emit.write, hx] at herror
          | some e =>
            cases e with
            | queueSerializationError message' => exact ⟨message', rfl⟩
            | unicodeEncodeError => simp [Emit.all, Emit.seq, hx] at herror
      obtain ⟨message', hx⟩ := hitem
      rcases encode_refused hx with hrefused | ⟨tag, data, hne, hopened⟩
      · exact hrefused
      · have hall : (Emit.all [encode (levels + 1) x]).bytes = tag.byte :: data := by
          rw [Emit.all, hx, hopened]
          rfl
        rw [hall, List.cons_append] at hv
        exact absurd ((tag_of_decode hv).symm.trans htag) hne

theorem RightOnlyIfIntact.exc (hright : RightOnlyIfIntact levels) {name text : PyStr}
    {args : List PyObj} {out : Bytes} (hkeys : ∀ x ∈ args, x.DistinctKeys)
    (h : encode (levels + 1) (.exc name text args) = ⟨out, none⟩)
    (hlen : out.length ≤ maxSerializedBytes) {rest r : Bytes} {v : Value}
    (hdecode : decode (levels + 1) (out ++ rest) = .ok (v, r))
    (hv : v.canon = restored (levels + 1) (.exc name text args)) :
    Intact (levels + 1) (.exc name text args) := by
  obtain ⟨nameBytes, argBytes, rfl, hname, hargs⟩ := encode_exc_eq h
  simp only [List.length_cons, List.length_append] at hlen
  have hnameBack := decode_encode_str (argBytes ++ rest) hname (by omega)
  have hsmall : argBytes.length ≤ maxSerializedBytes := by omega
  simp only [List.cons_append, List.append_assoc, decode, Tag.ofByte?_byte, hnameBack, bind_ok,
    Except.ok.injEq, exists_eq_left', pure_ok, Prod.mk.injEq] at hdecode
  obtain ⟨⟨decoded, tail⟩, hdecoded, v', hrestore, rfl, rfl⟩ := hdecode
  cases levels with
  | zero => exact absurd hname Emit.fail_ne
  | succ levels =>
    rw [Intact]
    rcases hargs with hargs | ⟨left, textBytes, message, hleft, htext, rfl⟩
    · have hnone : (encode (levels + 1) (.tuple args)).error = none := by rw [hargs]
      rw [if_pos hnone]
      rw [restored, if_pos hnone] at hv
      obtain ⟨-, parts, -, rfl⟩ := encodeSequence_eq hargs
      have htag := tag_of_decode hdecoded
      obtain ⟨items, rfl, rfl⟩ | ⟨_, rfl, -⟩ := restoreException_ok hrestore
      · refine (hright (.tuple hkeys) hargs hsmall _ _ _ hdecoded ?_).1
        simpa [Value.canon, restored, Value.items] using hv
      · cases htag
    · have hsome : ¬ (encode (levels + 1) (.tuple args)).error = none := by simp [hleft]
      rw [if_neg hsome]
      rw [restored, if_neg hsome] at hv
      by_cases hmany : maxContainerItems < args.length
      · exact .inl hmany
      · have hopened : ∃ data, left = Tag.tuple.byte :: data := by
          have hbytes := congrArg Emit.bytes hleft
          rw [encode, (encodeSequence_bytes _ (by rw [List.length_map]; omega)).1] at hbytes
          exact ⟨_, hbytes.symm⟩
        obtain ⟨data, rfl⟩ := hopened
        have htag := tag_of_decode hdecoded
        obtain ⟨items, rfl, rfl⟩ | ⟨_, rfl, -⟩ := restoreException_ok hrestore
        · simp only [Value.canon, canonItems_eq, Value.exc.injEq, true_and] at hv
          rw [List.append_assoc] at hdecoded
          exact clean_of_decode_fallback hleft hdecoded hv
        · cases htag

end RightOnlyIfIntact

/-- A right value is only decoded from what was written of an intact object. -/
theorem intact_of_decode (levels : Nat) : RightOnlyIfIntact levels := by
  induction levels with
  | zero =>
    intro p out _ h
    exact absurd h Emit.fail_ne
  | succ levels ih =>
    intro p out hp h hlen rest v r hdecode hv
    have hintact : Intact (levels + 1) p := by
      cases hp with
      | int i =>
        obtain rfl := Emit.write_eq.mp h
        simp only [List.cons_append, decode, Tag.ofByte?_byte, bind_ok] at hdecode
        obtain ⟨⟨n, _⟩, huint, -⟩ := hdecode
        exact (fits_zigzag_iff i).mp (fits_of_decodeUint huint)
      | list hkeys => exact ih.list hkeys h hlen hdecode hv
      | tuple hkeys => exact ih.tuple hkeys h hlen hdecode hv
      | dict hkeys hvalues => exact ih.dict hkeys hvalues h hlen hdecode hv
      | exc name text hkeys => exact ih.exc hkeys h hlen hdecode hv
      | none | bool | str | bytes | bytearray | other => exact trivial
    refine ⟨hintact, ?_⟩
    rw [decode_encode (levels + 1) hp h hlen hintact rest] at hdecode
    exact (Prod.mk.inj (Except.ok.inj hdecode)).2.symm

end Cygnus.Queue
