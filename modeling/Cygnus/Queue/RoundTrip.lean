import Cygnus.Queue.SerializerLaws

namespace Cygnus.Queue

open Sequence Result

/-- A Python dict holds each key once, at every depth of the object. -/
inductive PyObj.DistinctKeys : PyObj → Prop
  | none : DistinctKeys .none
  | bool (b) : DistinctKeys (.bool b)
  | int (i) : DistinctKeys (.int i)
  | str (s) : DistinctKeys (.str s)
  | bytes (bs) : DistinctKeys (.bytes bs)
  | bytearray (bs) : DistinctKeys (.bytearray bs)
  | list {items} : (∀ x ∈ items, DistinctKeys x) → DistinctKeys (.list items)
  | tuple {items} : (∀ x ∈ items, DistinctKeys x) → DistinctKeys (.tuple items)
  | dict {entries} : (entries.filterMap fun e => e.1.str?).Nodup →
      (∀ e ∈ entries, DistinctKeys e.2) → DistinctKeys (.dict entries)
  | exc (name text) {args} : (∀ x ∈ args, DistinctKeys x) → DistinctKeys (.exc name text args)
  | other (typeName) : DistinctKeys (.other typeName)

def Value.items : Value → List Value
  | .list items | .tuple items => items
  | _ => []

/-- What a payload should decode to: the payload itself, with each exception replaced by one of
the allowlisted class of its name, with its own arguments where they can be encoded and its text
otherwise. Maps are in key order. -/
def restored : Nat → PyObj → Value
  | 0, _ | _ + 1, .none | _ + 1, .other _ => .none
  | _ + 1, .bool b => .bool b
  | _ + 1, .int i => .int i
  | _ + 1, .str s => .str s
  | _ + 1, .bytes bs | _ + 1, .bytearray bs => .bytes bs
  | levels + 1, .list items => .list (items.map (restored levels))
  | levels + 1, .tuple items => .tuple (items.map (restored levels))
  | levels + 1, .dict entries =>
    .map ((sortedBy Prod.fst ((strEntries entries).getD [])).map fun e =>
      (e.1, restored levels e.2))
  | levels + 1, .exc name text args =>
    .exc (.ofName name)
      (if (encode levels (.tuple args)).error = none then (restored levels (.tuple args)).items
      else [.str text])

/-- The encoder refuses the object before it has written anything of it. -/
def PyObj.RefusedAtOnce : PyObj → Prop
  | .list items | .tuple items => maxContainerItems < items.length
  | .dict entries => maxContainerItems < entries.length ∨ ∃ e ∈ entries, e.1 = .other
  | .other _ => True
  | _ => False

/-- The decoder reads back what the encoder wrote: the integers are in the decoder's range, and
an exception whose arguments cannot be encoded left nothing of them in the buffer, or only the
opening of a tuple of one. -/
def Intact : Nat → PyObj → Prop
  | _ + 1, .int i => -2 ^ 4101 ≤ i ∧ i < 2 ^ 4101
  | levels + 1, .list items | levels + 1, .tuple items => ∀ x ∈ items, Intact levels x
  | levels + 1, .dict entries => ∀ e ∈ entries, Intact levels e.2
  | levels + 1, .exc _ _ args =>
    if (encode levels (.tuple args)).error = none then Intact levels (.tuple args)
    else maxContainerItems < args.length ∨
      ∃ x, args = [x] ∧ x.RefusedAtOnce ∧ 2 ≤ levels
  | _, _ => True

theorem strEntries_eq {entries : List (DictKey × PyObj)} {found : List (PyStr × PyObj)}
    (h : strEntries entries = some found) :
    entries = found.map fun e => (.str e.1, e.2) := by
  induction entries generalizing found with
  | nil =>
    cases h
    rfl
  | cons e entries ih =>
    obtain ⟨key, v⟩ := e
    simp only [strEntries, List.mapM_cons, Option.bind_eq_bind, Option.bind_eq_some_iff,
      Option.pure_def, Option.some.injEq, Option.map_eq_some_iff] at h
    obtain ⟨_, ⟨s, hs, rfl⟩, rest, hrest, rfl⟩ := h
    cases key with
    | str key =>
      cases hs
      rw [List.map_cons, ← ih hrest]
    | other => cases hs

theorem keys_strEntries {entries : List (DictKey × PyObj)} {found : List (PyStr × PyObj)}
    (h : strEntries entries = some found) :
    (entries.filterMap fun e => e.1.str?) = found.map Prod.fst := by
  rw [strEntries_eq h, List.filterMap_map, ← List.filterMap_eq_map]
  rfl

theorem fits_zigzag_iff (i : Int) :
    Varint.Fits maxVarintShift (zigzag i) ↔ -2 ^ 4101 ≤ i ∧ i < 2 ^ 4101 := by
  have hwidth : 7 * Varint.maxBytes maxVarintShift = 4101 + 1 := by decide
  have hpow : ∀ k : Nat, 2 ^ (k + 1) = 2 * 2 ^ k := fun _ => Nat.pow_succ'
  have hcast : ((2 ^ 4101 : Nat) : Int) = 2 ^ 4101 := Nat.cast_pow 2 4101
  rw [Varint.Fits, hwidth, hpow, ← hcast, zigzag]
  generalize 2 ^ 4101 = bound
  split
  · rw [Nat.shiftLeft_eq]
    omega
  · rw [Nat.shiftLeft_eq]
    omega

theorem length_le_flatten {parts : List Bytes} {part : Bytes} (h : part ∈ parts) :
    part.length ≤ parts.flatten.length :=
  (List.sublist_flatten_of_mem h).length_le

/-- The parts an encoded sequence is made of. -/
theorem parts_of_items {levels : Nat} {items : List PyObj} {parts : List Bytes}
    (h : List.Forall₂ (fun e part => e = (⟨part, none⟩ : Emit)) (items.map (encode levels)) parts) :
    List.Forall₂ (fun part x => encode levels x = ⟨part, none⟩) parts items := by
  rw [List.forall₂_map_left_iff] at h
  exact h.flip

theorem parts_of_entries {levels : Nat} {entries : List (PyStr × PyObj)} {out : Bytes}
    (h : Emit.all (entries.map fun e => (encode levels (.str e.1)).seq (encode levels e.2)) =
      ⟨out, none⟩) :
    ∃ parts : List (Bytes × Bytes), out = (parts.map fun p => p.1 ++ p.2).flatten ∧
      List.Forall₂ (fun part e => encode levels (.str e.1) = ⟨part.1, none⟩ ∧
        encode levels e.2 = ⟨part.2, none⟩) parts entries := by
  induction entries generalizing out with
  | nil =>
    obtain rfl := Emit.write_eq.mp h
    exact ⟨[], rfl, .nil⟩
  | cons e entries ih =>
    rw [List.map_cons, Emit.all, Emit.seq_eq] at h
    obtain ⟨_, _, hhead, htail, rfl⟩ := h
    obtain ⟨k, v, hk, hv, rfl⟩ := Emit.seq_eq.mp hhead
    obtain ⟨parts, rfl, hparts⟩ := ih htail
    exact ⟨(k, v) :: parts, rfl, .cons ⟨hk, hv⟩ hparts⟩

/-- What an encoded dict looks like. -/
theorem encode_dict_eq {levels : Nat} {entries : List (DictKey × PyObj)} {out : Bytes}
    (h : encode (levels + 1) (.dict entries) = ⟨out, none⟩) :
    ∃ found parts, strEntries entries = some found ∧ found.length ≤ maxContainerItems ∧
      out = Tag.map.byte :: (Varint.encode found.length ++
        (parts.map fun p : Bytes × Bytes => p.1 ++ p.2).flatten) ∧
      List.Forall₂ (fun part e => encode levels (.str e.1) = ⟨part.1, none⟩ ∧
        encode levels e.2 = ⟨part.2, none⟩) parts (sortedBy Prod.fst found) := by
  simp only [encode] at h
  split at h
  · exact absurd h Emit.fail_ne
  · rename_i hlen
    split at h
    · exact absurd h Emit.fail_ne
    · rename_i found hfound
      obtain ⟨_, _, hhead, htail, rfl⟩ := Emit.seq_eq.mp h
      obtain ⟨parts, rfl, hparts⟩ := parts_of_entries htail
      rw [← Emit.write_eq.mp hhead]
      refine ⟨found, parts, hfound, ?_, rfl, hparts⟩
      rw [strEntries_eq hfound, List.length_map] at hlen
      omega

/-- What an encoded exception looks like: its arguments, or what was written of them followed by
its text. -/
theorem encode_exc_eq {levels : Nat} {name text : PyStr} {args : List PyObj} {out : Bytes}
    (h : encode (levels + 1) (.exc name text args) = ⟨out, none⟩) :
    ∃ nameBytes argBytes, out = Tag.exc.byte :: (nameBytes ++ argBytes) ∧
      encode levels (.str name) = ⟨nameBytes, none⟩ ∧
      (encode levels (.tuple args) = ⟨argBytes, none⟩ ∨
        ∃ left textBytes message,
          encode levels (.tuple args) = ⟨left, some (.queueSerializationError message)⟩ ∧
          encode levels (.str text) = ⟨textBytes, none⟩ ∧ argBytes = left ++ textBytes) := by
  simp only [encode] at h
  obtain ⟨_, _, htag, hrecord, rfl⟩ := Emit.seq_eq.mp h
  obtain ⟨nameBytes, argBytes, hname, hargs, rfl⟩ := Emit.seq_eq.mp hrecord
  rw [← Emit.write_eq.mp htag]
  exact ⟨nameBytes, argBytes, rfl, hname, Emit.rescue_eq.mp hargs⟩

theorem decode_encode_str {levels : Nat} {s : PyStr} {out : Bytes} (rest : Bytes)
    (h : encode levels (.str s) = ⟨out, none⟩) (hlen : out.length ≤ maxSerializedBytes) :
    decode levels (out ++ rest) = .ok (.str s, rest) := by
  cases levels with
  | zero => exact absurd h Emit.fail_ne
  | succ levels => exact decode_encodeStr levels rest h hlen

/-- An exception record decodes to the class of its name and the arguments found. -/
theorem decode_exc {levels : Nat} {name : PyStr} {nameBytes argBytes rest : Bytes} {args : Value}
    (hname : decode levels (nameBytes ++ (argBytes ++ rest)) = .ok (.str name, argBytes ++ rest))
    (hargs : decode levels (argBytes ++ rest) = .ok (args, rest)) :
    decode (levels + 1) (Tag.exc.byte :: (nameBytes ++ argBytes) ++ rest) =
      (restoreException (.str name) args).map fun v => (v, rest) := by
  simp only [List.cons_append, List.append_assoc, decode, Tag.ofByte?_byte, hname, hargs, bind,
    Except.bind, Except.map]
  cases restoreException (.str name) args <;> rfl

/-- The encoder opens a sequence it does not refuse at once. -/
theorem encodeSequence_bytes (tag : Tag) {items : List Emit}
    (h : items.length ≤ maxContainerItems) :
    (encodeSequence tag items).bytes =
        tag.byte :: (Varint.encode items.length ++ (Emit.all items).bytes) ∧
      (encodeSequence tag items).error = (Emit.all items).error := by
  rw [encodeSequence, if_neg (Nat.not_lt.mpr h)]
  exact ⟨rfl, rfl⟩

section ReadsBack

variable {levels : Nat}

/-- At this many levels, what was encoded of an intact object decodes back in front of any further
bytes. -/
def ReadsBack (levels : Nat) : Prop :=
  ∀ {p : PyObj} {out : Bytes}, p.DistinctKeys → encode levels p = ⟨out, none⟩ →
    out.length ≤ maxSerializedBytes → Intact levels p →
    ∀ rest, decode levels (out ++ rest) = .ok (restored levels p, rest)

theorem ReadsBack.items (hreads : ReadsBack levels) {items : List PyObj} {parts : List Bytes}
    (hkeys : ∀ x ∈ items, x.DistinctKeys) (hintact : ∀ x ∈ items, Intact levels x)
    (hlen : parts.flatten.length ≤ maxSerializedBytes)
    (hparts : List.Forall₂ (fun part x => encode levels x = ⟨part, none⟩) parts items)
    (rest : Bytes) :
    decodeItems (decode levels) items.length (parts.flatten ++ rest) =
      .ok (items.map (restored levels), rest) := by
  have hback : List.Forall₂ (fun part v => ∀ rest, decode levels (part ++ rest) = .ok (v, rest))
      parts (items.map (restored levels)) := by
    rw [List.forall₂_map_right_iff]
    refine forall₂_imp_of_mem hparts fun part hpart x hx hencode rest => ?_
    exact hreads (hkeys x hx) hencode ((length_le_flatten hpart).trans hlen) (hintact x hx) rest
  simpa using decodeItems_flatten hback rest

theorem ReadsBack.list (hreads : ReadsBack levels) {items : List PyObj} {out : Bytes}
    (hkeys : ∀ x ∈ items, x.DistinctKeys) (h : encode (levels + 1) (.list items) = ⟨out, none⟩)
    (hlen : out.length ≤ maxSerializedBytes) (hintact : ∀ x ∈ items, Intact levels x)
    (rest : Bytes) :
    decode (levels + 1) (out ++ rest) = .ok (.list (items.map (restored levels)), rest) := by
  obtain ⟨hcount, parts, hparts, rfl⟩ := encodeSequence_eq h
  simp only [List.length_map, List.length_cons, List.length_append] at hcount hlen ⊢
  rw [List.cons_append, List.append_assoc, decode_list _ _ hcount,
    hreads.items hkeys hintact (by omega) (parts_of_items hparts)]
  rfl

theorem ReadsBack.tuple (hreads : ReadsBack levels) {items : List PyObj} {out : Bytes}
    (hkeys : ∀ x ∈ items, x.DistinctKeys) (h : encode (levels + 1) (.tuple items) = ⟨out, none⟩)
    (hlen : out.length ≤ maxSerializedBytes) (hintact : ∀ x ∈ items, Intact levels x)
    (rest : Bytes) :
    decode (levels + 1) (out ++ rest) = .ok (.tuple (items.map (restored levels)), rest) := by
  obtain ⟨hcount, parts, hparts, rfl⟩ := encodeSequence_eq h
  simp only [List.length_map, List.length_cons, List.length_append] at hcount hlen ⊢
  rw [List.cons_append, List.append_assoc, decode_tuple _ _ hcount,
    hreads.items hkeys hintact (by omega) (parts_of_items hparts)]
  rfl

theorem nodup_keys_sorted {entries : List (DictKey × PyObj)} {found : List (PyStr × PyObj)}
    (hfound : strEntries entries = some found)
    (hkeys : (entries.filterMap fun e => e.1.str?).Nodup) :
    ((sortedBy Prod.fst found).map Prod.fst).Nodup := by
  rw [keys_strEntries hfound] at hkeys
  exact ((List.perm_insertionSort _ found).map Prod.fst).nodup_iff.mpr hkeys

theorem mem_of_mem_sorted {entries : List (DictKey × PyObj)} {found : List (PyStr × PyObj)}
    (hfound : strEntries entries = some found) {e : PyStr × PyObj}
    (he : e ∈ sortedBy Prod.fst found) : (.str e.1, e.2) ∈ entries := by
  rw [strEntries_eq hfound]
  exact List.mem_map_of_mem (mem_sortedBy.mp he)

theorem ReadsBack.dict (hreads : ReadsBack levels) {entries : List (DictKey × PyObj)} {out : Bytes}
    (hkeys : (entries.filterMap fun e => e.1.str?).Nodup)
    (hvalues : ∀ e ∈ entries, e.2.DistinctKeys)
    (h : encode (levels + 1) (.dict entries) = ⟨out, none⟩)
    (hlen : out.length ≤ maxSerializedBytes) (hintact : ∀ e ∈ entries, Intact levels e.2)
    (rest : Bytes) :
    decode (levels + 1) (out ++ rest) = .ok (restored (levels + 1) (.dict entries), rest) := by
  obtain ⟨found, parts, hfound, hcount, rfl, hparts⟩ := encode_dict_eq h
  simp only [List.length_cons, List.length_append] at hlen
  have hback : List.Forall₂ (fun part e =>
      (∀ rest, decode levels (part.1 ++ rest) = .ok (.str e.1, rest)) ∧
        ∀ rest, decode levels (part.2 ++ rest) = .ok (e.2, rest)) parts
      ((sortedBy Prod.fst found).map fun e => (e.1, restored levels e.2)) := by
    rw [List.forall₂_map_right_iff]
    refine forall₂_imp_of_mem hparts fun part hpart e he hencode => ?_
    have hmem := mem_of_mem_sorted hfound he
    have hsmall := length_le_flatten (List.mem_map_of_mem (f := fun p => p.1 ++ p.2) hpart)
    simp only [List.length_append] at hsmall
    refine ⟨fun rest => decode_encode_str rest hencode.1 (by omega), fun rest => ?_⟩
    exact hreads (hvalues _ hmem) hencode.2 (by omega) (hintact _ hmem) rest
  have hentries := decodeEntries_flatten hback rest
  rw [List.length_map, length_sortedBy] at hentries
  rw [List.cons_append, List.append_assoc, decode_map _ _ hcount, hentries, Except.map, restored,
    hfound, Option.getD_some, Dict.ofList_of_nodup]
  simpa [Dict.keys, Function.comp_def] using nodup_keys_sorted hfound hkeys

theorem strEntries_of_other {entries : List (DictKey × PyObj)} {e : DictKey × PyObj}
    (he : e ∈ entries) (hkey : e.1 = .other) : strEntries entries = none := by
  rw [Option.eq_none_iff_forall_ne_some]
  intro found hfound
  rw [strEntries_eq hfound, List.mem_map] at he
  obtain ⟨e', -, rfl⟩ := he
  cases hkey

theorem PyObj.RefusedAtOnce.encode {x : PyObj} (h : x.RefusedAtOnce) (levels : Nat) :
    ∃ message, encode (levels + 1) x = Emit.fail message := by
  cases x with
  | list items | tuple items =>
    have hlen : (items.map (Queue.encode levels)).length > maxContainerItems := by
      rw [List.length_map]
      exact h
    simp only [Queue.encode, encodeSequence, if_pos hlen]
    exact ⟨_, rfl⟩
  | dict entries =>
    simp only [Queue.encode]
    split
    · exact ⟨_, rfl⟩
    · rename_i hlen
      obtain ⟨e, he, hkey⟩ := h.resolve_left hlen
      rw [strEntries_of_other he hkey]
      exact ⟨_, rfl⟩
  | other typeName => exact ⟨_, rfl⟩
  | none | bool | int | str | bytes | bytearray | exc => exact absurd h id

/-- The text of an exception reads back although its arguments were given up. -/
theorem decode_fallback {name text : PyStr} {args : List PyObj}
    {nameBytes left textBytes : Bytes} {message : String}
    (hname : encode levels (.str name) = ⟨nameBytes, none⟩)
    (hleft : encode levels (.tuple args) = ⟨left, some (.queueSerializationError message)⟩)
    (htext : encode levels (.str text) = ⟨textBytes, none⟩)
    (hlen : (nameBytes ++ (left ++ textBytes)).length ≤ maxSerializedBytes)
    (hclean : maxContainerItems < args.length ∨ ∃ x, args = [x] ∧ x.RefusedAtOnce ∧ 2 ≤ levels)
    (rest : Bytes) :
    decode (levels + 1) (Tag.exc.byte :: (nameBytes ++ (left ++ textBytes)) ++ rest) =
      .ok (.exc (.ofName name) [.str text], rest) := by
  simp only [List.length_append] at hlen
  have hnameBack := decode_encode_str (left ++ textBytes ++ rest) hname (by omega)
  cases levels with
  | zero => exact absurd hname Emit.fail_ne
  | succ levels =>
    rcases hclean with hmany | ⟨x, rfl, hrefused, hlevels⟩
    · have hnothing : left = [] := by
        have hcount : (args.map (encode levels)).length > maxContainerItems := by simpa using hmany
        simp only [encode, encodeSequence, if_pos hcount] at hleft
        exact (congrArg Emit.bytes hleft).symm
      subst hnothing
      rw [decode_exc hnameBack (decode_encode_str rest htext (by omega : textBytes.length ≤ _))]
      rfl
    · cases levels with
      | zero => omega
      | succ levels =>
        obtain ⟨reason, hfail⟩ := hrefused.encode levels
        have hopened : left = Tag.tuple.byte :: Varint.encode 1 := by
          rw [encode, List.map_singleton, hfail] at hleft
          have hbytes := congrArg Emit.bytes hleft
          rw [(encodeSequence_bytes _ (by simp [maxContainerItems])).1] at hbytes
          simpa [Emit.all, Emit.seq, Emit.fail] using hbytes.symm
        subst hopened
        have hitem : decode (levels + 1) (textBytes ++ rest) = .ok (.str text, rest) :=
          decode_encodeStr levels rest htext (by omega)
        have hargs : decode (levels + 2)
            (Tag.tuple.byte :: Varint.encode 1 ++ textBytes ++ rest) =
              .ok (.tuple [.str text], rest) := by
          rw [List.cons_append, List.cons_append, List.append_assoc, decode_tuple _ _ (by decide)]
          simp only [decodeItems, hitem, bind, Except.bind]
          rfl
        rw [decode_exc hnameBack hargs]
        rfl

theorem ReadsBack.exc (hreads : ReadsBack levels) {name text : PyStr} {args : List PyObj}
    {out : Bytes} (hkeys : ∀ x ∈ args, x.DistinctKeys)
    (h : encode (levels + 1) (.exc name text args) = ⟨out, none⟩)
    (hlen : out.length ≤ maxSerializedBytes) (hintact : Intact (levels + 1) (.exc name text args))
    (rest : Bytes) :
    decode (levels + 1) (out ++ rest) =
      .ok (restored (levels + 1) (.exc name text args), rest) := by
  obtain ⟨nameBytes, argBytes, rfl, hname, hargs⟩ := encode_exc_eq h
  simp only [List.length_cons, List.length_append] at hlen
  rcases hargs with hargs | ⟨left, textBytes, message, hleft, htext, rfl⟩
  · have hnone : (encode levels (.tuple args)).error = none := by rw [hargs]
    rw [Intact, if_pos hnone] at hintact
    have hback := hreads (.tuple hkeys) hargs (by omega) hintact rest
    rw [decode_exc (decode_encode_str _ hname (by omega)) hback, restored, if_pos hnone]
    cases levels with
    | zero => exact absurd hname Emit.fail_ne
    | succ levels => rfl
  · have hsome : ¬ (encode levels (.tuple args)).error = none := by simp [hleft]
    rw [Intact, if_neg hsome] at hintact
    rw [restored, if_neg hsome]
    exact decode_fallback hname hleft htext (by simp only [List.length_append] at hlen ⊢; omega)
      hintact rest

end ReadsBack

/-- Whatever was encoded of an intact object decodes back, in front of any further bytes. -/
theorem decode_encode (levels : Nat) : ReadsBack levels := by
  induction levels with
  | zero =>
    intro p out _ h
    exact absurd h Emit.fail_ne
  | succ levels ih =>
    intro p out hp h hlen hintact rest
    cases hp with
    | none =>
      obtain rfl := Emit.write_eq.mp h
      rfl
    | bool b =>
      obtain rfl := Emit.write_eq.mp h
      cases b <;> rfl
    | int i =>
      obtain rfl := Emit.write_eq.mp h
      have hfits := (fits_zigzag_iff i).mpr hintact
      simp only [List.cons_append, decode, Tag.ofByte?_byte, decodeUint_encode _ hfits, bind,
        Except.bind, unzigzag_zigzag]
      rfl
    | str s => exact decode_encodeStr levels rest h hlen
    | bytes bs | bytearray bs =>
      obtain rfl := Emit.write_eq.mp h
      have hsmall : bs.length ≤ maxSerializedBytes := by
        simp only [List.length_cons, List.length_append] at hlen
        omega
      simp only [List.cons_append, List.append_assoc, decode, Tag.ofByte?_byte,
        decodeBlob_encode _ rest hsmall, bind, Except.bind]
      rfl
    | list hkeys => exact ih.list hkeys h hlen hintact rest
    | tuple hkeys => exact ih.tuple hkeys h hlen hintact rest
    | dict hkeys hvalues => exact ih.dict hkeys hvalues h hlen hintact rest
    | exc name text hkeys => exact ih.exc hkeys h hlen hintact rest
    | other typeName => exact absurd h Emit.fail_ne

end Cygnus.Queue
