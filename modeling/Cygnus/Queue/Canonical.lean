import Cygnus.Queue.Plain

/-! Re-encoding what the decoder accepts. -/

namespace Cygnus.Queue

open Sequence Result

/-- Every container in the value stays inside the item limit. -/
def Value.ItemsBounded (v : Value) : Prop := v.Everywhere fun
  | .list items | .tuple items | .exc _ items => items.length ≤ maxContainerItems
  | .map entries => entries.length ≤ maxContainerItems
  | _ => True

theorem Emit.all_of_ok {es : List Emit} (h : ∀ e ∈ es, e.error = none) :
    ∃ out, all es = ⟨out, none⟩ ∧ out.length = (es.map fun e => e.bytes.length).sum := by
  induction es with
  | nil => exact ⟨[], rfl, rfl⟩
  | cons e es ih =>
    obtain ⟨out, hall, hlength⟩ := ih fun e' he' => h e' (List.mem_cons_of_mem _ he')
    have he := Emit.ext_iff_error.mp (h e List.mem_cons_self)
    refine ⟨e.bytes ++ out, ?_, ?_⟩
    · rw [all, hall, he]
      rfl
    · rw [List.length_append, hlength, List.map_cons, List.sum_cons]

theorem sum_le_of_forall₂ {α : Type} {f : α → Nat} {xs : List α} {sizes : List Nat}
    (h : List.Forall₂ (fun x size => f x ≤ size) xs sizes) : (xs.map f).sum ≤ sizes.sum := by
  induction h with
  | nil => simp
  | cons hhead _ ih =>
    simp only [List.map_cons, List.sum_cons]
    omega

section Reencode

variable (text : ExceptionClass → List Value → PyStr)

/-- The value can be encoded again at this many levels, in at most `size` bytes. -/
structure Reencodes (levels : Nat) (v : Value) (size : Nat) : Prop where
  depth : v.depth + 1 ≤ levels
  items : v.ItemsBounded
  keys : v.DistinctKeys
  ints : v.IntsInRange
  encoded : (encode levels (v.toObj text)).error = none
  length : (encode levels (v.toObj text)).bytes.length ≤ size

/-- What one run of the decoder read, and what its value costs to encode again. -/
def DecodesWithin (levels : Nat) (data : Bytes) (v : Value) (rest : Bytes) : Prop :=
  ∃ used, data.length = used + rest.length ∧ (v.NoException → Reencodes text levels v used)

theorem decodeItems_within {levels : Nat}
    (ih : ∀ {data v rest}, decode levels data = .ok (v, rest) →
      DecodesWithin text levels data v rest) {count : Nat} {data rest : Bytes}
    {values : List Value} (h : decodeItems (decode levels) count data = .ok (values, rest)) :
    ∃ sizes : List Nat, data.length = sizes.sum + rest.length ∧
      List.Forall₂ (fun v size => v.NoException → Reencodes text levels v size) values sizes := by
  induction count generalizing data values with
  | zero =>
    cases h
    exact ⟨[], by simp, .nil⟩
  | succ count hrest =>
    simp only [decodeItems, bind_ok, pure_ok, Prod.mk.injEq] at h
    obtain ⟨⟨v, tail⟩, hv, ⟨vs, tail'⟩, hvs, rfl, rfl⟩ := h
    obtain ⟨used, hused, hreencodes⟩ := ih hv
    obtain ⟨sizes, hsizes, hall⟩ := hrest hvs
    refine ⟨used :: sizes, ?_, .cons hreencodes hall⟩
    rw [hused, hsizes, List.sum_cons]
    omega

theorem decodeEntries_within {levels : Nat}
    (ih : ∀ {data v rest}, decode levels data = .ok (v, rest) →
      DecodesWithin text levels data v rest) {count : Nat} {data rest : Bytes}
    {entries : List (PyStr × Value)}
    (h : decodeEntries (decode levels) count data = .ok (entries, rest)) :
    ∃ sizes : List (Nat × Nat),
      data.length = (sizes.map fun s => s.1 + s.2).sum + rest.length ∧
      List.Forall₂ (fun e size => Reencodes text levels (.str e.1) size.1 ∧
        (e.2.NoException → Reencodes text levels e.2 size.2)) entries sizes := by
  induction count generalizing data entries with
  | zero =>
    cases h
    exact ⟨[], by simp, .nil⟩
  | succ count hrest =>
    simp only [decodeEntries, bind_ok] at h
    obtain ⟨⟨key, data'⟩, hkey, h⟩ := h
    cases key with
    | str k =>
      simp only [bind_ok, pure_ok, Prod.mk.injEq] at h
      obtain ⟨⟨v, tail⟩, hv, ⟨es, tail'⟩, hes, rfl, rfl⟩ := h
      obtain ⟨usedKey, husedKey, hkeyOk⟩ := ih hkey
      obtain ⟨used, hused, hreencodes⟩ := ih hv
      obtain ⟨sizes, hsizes, hall⟩ := hrest hes
      have hstr : (Value.str k).NoException := Value.everywhere_leaf rfl trivial
      refine ⟨(usedKey, used) :: sizes, ?_, .cons ⟨hkeyOk hstr, hreencodes⟩ hall⟩
      simp only [List.map_cons, List.sum_cons] at hsizes ⊢
      omega
    | none | bool | int | bytes | list | tuple | map | exc => cases h

variable {text}

theorem exists_size {α : Type} {P : α → Nat → Prop} {xs : List α} {sizes : List Nat}
    (h : List.Forall₂ P xs sizes) : ∀ x ∈ xs, ∃ size, P x size := by
  induction h with
  | nil => simp
  | cons hhead _ ih => exact List.forall_mem_cons.mpr ⟨⟨_, hhead⟩, ih⟩

theorem encodeSequence_within {levels : Nat} (tag : Tag) {values : List Value} {sizes : List Nat}
    (hcount : values.length ≤ maxContainerItems)
    (h : List.Forall₂ (Reencodes text levels) values sizes) :
    (encodeSequence tag ((values.map (Value.toObj text)).map (encode levels))).error = none ∧
      (encodeSequence tag ((values.map (Value.toObj text)).map (encode levels))).bytes.length ≤
        1 + (Varint.encode values.length).length + sizes.sum := by
  have hlength : ((values.map (Value.toObj text)).map (encode levels)).length = values.length := by
    rw [List.length_map, List.length_map]
  obtain ⟨hbytes, herror⟩ := encodeSequence_bytes tag (hlength.trans_le hcount)
  have hok : ∀ e ∈ (values.map (Value.toObj text)).map (encode levels), e.error = none := by
    rw [List.map_map, List.forall_mem_map]
    intro v hv
    obtain ⟨size, hsize⟩ := exists_size h v hv
    exact hsize.encoded
  obtain ⟨out, hall, hout⟩ := Emit.all_of_ok hok
  have hsum : out.length ≤ sizes.sum := by
    rw [hout, List.map_map, List.map_map]
    exact sum_le_of_forall₂ (h.imp fun v size hv => hv.length)
  rw [hbytes, herror, hall, hlength]
  refine ⟨rfl, ?_⟩
  rw [List.length_cons, List.length_append]
  dsimp only
  omega

/-- A container whose items all encode again. -/
theorem reencodes_items {levels : Nat} {values : List Value} {sizes : List Nat}
    (hcount : values.length ≤ maxContainerItems)
    (h : List.Forall₂ (Reencodes text levels) values sizes) {used : Nat}
    (hused : (Varint.encode values.length).length ≤ used) :
    Reencodes text (levels + 1) (.list values) (1 + used + sizes.sum) ∧
      Reencodes text (levels + 1) (.tuple values) (1 + used + sizes.sum) := by
  have hsize := exists_size h
  have hdepth : depthItems values ≤ levels := by
    rw [depthItems_le_iff]
    intro v hv
    obtain ⟨_, hv⟩ := hsize v hv
    exact hv.depth
  have hitems : ∀ c ∈ values, c.ItemsBounded := fun c hc => (hsize c hc).choose_spec.items
  have hkeys : ∀ c ∈ values, c.DistinctKeys := fun c hc => (hsize c hc).choose_spec.keys
  have hints : ∀ c ∈ values, c.IntsInRange := fun c hc => (hsize c hc).choose_spec.ints
  have hlist := encodeSequence_within .list hcount h
  have htuple := encodeSequence_within .tuple hcount h
  constructor
  · refine ⟨Nat.succ_le_succ hdepth, Value.everywhere_iff.mpr ⟨hcount, hitems⟩,
      Value.everywhere_iff.mpr ⟨trivial, hkeys⟩, Value.everywhere_iff.mpr ⟨trivial, hints⟩, ?_, ?_⟩
    all_goals rw [Value.toObj, itemsToObj_eq, encode]
    · exact hlist.1
    · omega
  · refine ⟨Nat.succ_le_succ hdepth, Value.everywhere_iff.mpr ⟨hcount, hitems⟩,
      Value.everywhere_iff.mpr ⟨trivial, hkeys⟩, Value.everywhere_iff.mpr ⟨trivial, hints⟩, ?_, ?_⟩
    all_goals rw [Value.toObj, itemsToObj_eq, encode]
    · exact htuple.1
    · omega

/-- What an entry costs to encode again; an entry that is overwritten may hold anything, and
costs nothing. -/
noncomputable def entryWeight (text : ExceptionClass → List Value → PyStr) (levels : Nat)
    (e : PyStr × Value) : Nat :=
  open Classical in
  if e.2.NoException then
    (encode levels (.str e.1)).bytes.length + (encode levels (e.2.toObj text)).bytes.length
  else 0

/-- Each decoded entry, with the bytes its key and its value were read from. -/
abbrev EntriesWithin (text : ExceptionClass → List Value → PyStr) (levels : Nat) :
    List (PyStr × Value) → List (Nat × Nat) → Prop :=
  List.Forall₂ fun e size => Reencodes text levels (.str e.1) size.1 ∧
    (e.2.NoException → Reencodes text levels e.2 size.2)

theorem sum_entryWeight_le {levels : Nat} {entries : List (PyStr × Value)}
    {sizes : List (Nat × Nat)} (h : EntriesWithin text levels entries sizes) :
    (entries.map (entryWeight text levels)).sum ≤ (sizes.map fun s => s.1 + s.2).sum := by
  refine sum_le_of_forall₂ (List.forall₂_map_right_iff.mpr (h.imp ?_))
  rintro e size ⟨hkey, hvalue⟩
  unfold entryWeight
  split
  · rename_i hplain
    exact Nat.add_le_add hkey.length (hvalue hplain).length
  · exact Nat.zero_le _

theorem EntriesWithin.mem {levels : Nat} {entries : List (PyStr × Value)}
    {sizes : List (Nat × Nat)} (h : EntriesWithin text levels entries sizes) {e : PyStr × Value}
    (he : e ∈ entries) : (∃ size, Reencodes text levels (.str e.1) size) ∧
      (e.2.NoException → ∃ size, Reencodes text levels e.2 size) := by
  induction h with
  | nil => cases he
  | cons hhead _ ih =>
    rcases List.mem_cons.mp he with rfl | he
    · exact ⟨⟨_, hhead.1⟩, fun hplain => ⟨_, hhead.2 hplain⟩⟩
    · exact ih he

theorem encode_entries_within {levels : Nat} {entries : List (PyStr × Value)}
    (h : ∀ e ∈ entries, e.2.NoException ∧ (∃ size, Reencodes text levels (.str e.1) size) ∧
      ∃ size, Reencodes text levels e.2 size) :
    ∃ out, Emit.all ((sortedBy Prod.fst (entries.map fun e => (e.1, e.2.toObj text))).map fun e =>
        (encode levels (.str e.1)).seq (encode levels e.2)) = ⟨out, none⟩ ∧
      out.length = (entries.map (entryWeight text levels)).sum := by
  have hok : ∀ e ∈ entries, (encode levels (.str e.1)).seq (encode levels (e.2.toObj text)) =
      ⟨(encode levels (.str e.1)).bytes ++ (encode levels (e.2.toObj text)).bytes, none⟩ := by
    intro e he
    obtain ⟨-, ⟨_, hkey⟩, _, hvalue⟩ := h e he
    exact Emit.seq_eq.mpr ⟨_, _, Emit.ext_iff_error.mp hkey.encoded,
      Emit.ext_iff_error.mp hvalue.encoded, rfl⟩
  rw [sortedBy_fst_map, List.map_map]
  have herrors : ∀ e ∈ (sortedBy Prod.fst entries).map
      ((fun e => (encode levels (.str e.1)).seq (encode levels e.2)) ∘
        fun e : PyStr × Value => (e.1, e.2.toObj text)), e.error = none := by
    rw [List.forall_mem_map]
    intro e he
    rw [Function.comp_apply, hok e (mem_sortedBy.mp he)]
  obtain ⟨out, hall, hout⟩ := Emit.all_of_ok herrors
  refine ⟨out, hall, ?_⟩
  have hperm := ((List.perm_insertionSort (fun a b : PyStr × Value => a.1 ≤ b.1) entries).map
    (entryWeight text levels)).sum_nat
  rw [hout, List.map_map, ← hperm]
  refine congrArg List.sum (List.map_congr_left fun e he => ?_)
  have hmem := mem_sortedBy.mp he
  rw [Function.comp_apply, Function.comp_apply, hok e hmem, entryWeight, if_pos (h e hmem).1,
    List.length_append]

theorem encode_map_eq {levels : Nat} {entries : List (PyStr × Value)} {out : Bytes}
    (hcount : entries.length ≤ maxContainerItems)
    (h : Emit.all ((sortedBy Prod.fst (entries.map fun e => (e.1, e.2.toObj text))).map fun e =>
      (encode levels (.str e.1)).seq (encode levels e.2)) = ⟨out, none⟩) :
    encode (levels + 1) ((Value.map entries).toObj text) =
      ⟨Tag.map.byte :: (Varint.encode entries.length ++ out), none⟩ := by
  have hlength : ¬ (entries.map fun e => (DictKey.str e.1, e.2.toObj text)).length >
      maxContainerItems := by
    rw [List.length_map]
    omega
  rw [Value.toObj, entriesToObj_eq, encode, if_neg hlength, strEntries_toObj]
  simp only [h, List.length_map]
  rfl

theorem reencodes_map {levels used : Nat} {entries : List (PyStr × Value)}
    {sizes : List (Nat × Nat)} (hcount : entries.length ≤ maxContainerItems)
    (h : EntriesWithin text levels entries sizes)
    (hused : (Varint.encode entries.length).length ≤ used)
    (hplain : (Value.map (Dict.ofList entries)).NoException) :
    Reencodes text (levels + 1) (.map (Dict.ofList entries))
      (1 + used + (sizes.map fun s => s.1 + s.2).sum) := by
  have hkept : ∀ e ∈ Dict.ofList entries, e.2.NoException ∧
      (∃ size, Reencodes text levels (.str e.1) size) ∧
        ∃ size, Reencodes text levels e.2 size := by
    intro e he
    have hvalue := (Value.everywhere_iff.mp hplain).2 e.2 (List.mem_map_of_mem he)
    obtain ⟨hkey, hsize⟩ := h.mem (Dict.mem_ofList he)
    exact ⟨hvalue, hkey, hsize hvalue⟩
  have hchildren : ∀ c ∈ (Value.map (Dict.ofList entries)).children,
      ∃ size, Reencodes text levels c size := by
    intro c hc
    obtain ⟨e, he, rfl⟩ := List.mem_map.mp hc
    exact (hkept e he).2.2
  have hfewer := Dict.length_ofList_le entries
  obtain ⟨out, hall, hout⟩ := encode_entries_within hkept
  have hencode := encode_map_eq (hfewer.trans hcount) hall
  have hweight : out.length ≤ (sizes.map fun s => s.1 + s.2).sum := by
    rw [hout]
    exact (Dict.sum_ofList_le _ entries).trans (sum_entryWeight_le h)
  have hcountBytes := (Varint.length_encode_mono hfewer).trans hused
  refine ⟨Nat.succ_le_succ ?_, Value.everywhere_iff.mpr ⟨hfewer.trans hcount, ?_⟩,
    Value.everywhere_iff.mpr ⟨Dict.nodup_keys_ofList entries, ?_⟩,
    Value.everywhere_iff.mpr ⟨trivial, ?_⟩, ?_, ?_⟩
  · rw [Value.depth, depthEntries_le_iff]
    intro e he
    exact (hkept e he).2.2.choose_spec.depth
  · exact fun c hc => (hchildren c hc).choose_spec.items
  · exact fun c hc => (hchildren c hc).choose_spec.keys
  · exact fun c hc => (hchildren c hc).choose_spec.ints
  · rw [hencode]
  · rw [hencode, List.length_cons, List.length_append]
    omega

theorem reencodes_leaf {levels size : Nat} {v : Value} {out : Bytes} (hdepth : v.depth = 0)
    (hitems : v.ItemsBounded) (hkeys : v.DistinctKeys) (hints : v.IntsInRange)
    (hencode : encode (levels + 1) (v.toObj text) = ⟨out, none⟩) (hlength : out.length ≤ size) :
    Reencodes text (levels + 1) v size := by
  refine ⟨by omega, hitems, hkeys, hints, ?_, ?_⟩
  · rw [hencode]
  · rw [hencode]
    exact hlength

theorem int_within {levels n : Nat} {data rest : Bytes} (h : decodeUint data = .ok (n, rest)) :
    DecodesWithin text (levels + 1) (Tag.int.byte :: data) (.int (unzigzag n)) rest := by
  obtain ⟨hfits, hlength⟩ := Varint.decode_ok (decodeUint_ok h)
  refine ⟨1 + data.length - rest.length, by rw [List.length_cons]; omega, fun _ => ?_⟩
  have hrange := (fits_zigzag_iff (unzigzag n)).mp (by rwa [zigzag_unzigzag])
  refine reencodes_leaf rfl (Value.everywhere_leaf rfl trivial) (Value.everywhere_leaf rfl trivial)
    (Value.everywhere_leaf rfl hrange) rfl ?_
  rw [zigzag_unzigzag, List.length_cons]
  omega

theorem str_within {levels : Nat} {s : PyStr} {data encoded rest : Bytes}
    (hblob : decodeBlob "truncated string" data = .ok (encoded, rest))
    (hutf8 : Utf8.decode encoded = some s) :
    DecodesWithin text (levels + 1) (Tag.str.byte :: data) (.str s) rest := by
  have hlength := decodeBlob_ok hblob
  refine ⟨1 + data.length - rest.length, by rw [List.length_cons]; omega, fun _ => ?_⟩
  have hencode : encode (levels + 1) (.str s) =
      ⟨Tag.str.byte :: (Varint.encode encoded.length ++ encoded), none⟩ := by
    rw [encode, encodeStr, Utf8.encode_of_decode hutf8]
    rfl
  refine reencodes_leaf rfl (Value.everywhere_leaf rfl trivial) (Value.everywhere_leaf rfl trivial)
    (Value.everywhere_leaf rfl trivial) hencode ?_
  rw [List.length_cons, List.length_append]
  omega

theorem bytes_within {levels : Nat} {data bs rest : Bytes}
    (hblob : decodeBlob "truncated bytes" data = .ok (bs, rest)) :
    DecodesWithin text (levels + 1) (Tag.bytes.byte :: data) (.bytes bs) rest := by
  have hlength := decodeBlob_ok hblob
  refine ⟨1 + data.length - rest.length, by rw [List.length_cons]; omega, fun _ => ?_⟩
  refine reencodes_leaf rfl (Value.everywhere_leaf rfl trivial) (Value.everywhere_leaf rfl trivial)
    (Value.everywhere_leaf rfl trivial) rfl ?_
  rw [List.length_cons, List.length_append]
  omega

theorem items_within {levels count : Nat} {data tail rest : Bytes} {values : List Value}
    (ih : ∀ {data v rest}, decode levels data = .ok (v, rest) →
      DecodesWithin text levels data v rest)
    (hcount : decodeUint data = .ok (count, tail)) (hmax : count ≤ maxContainerItems)
    (h : decodeItems (decode levels) count tail = .ok (values, rest)) (byte : UInt8) :
    DecodesWithin text (levels + 1) (byte :: data) (.list values) rest ∧
      DecodesWithin text (levels + 1) (byte :: data) (.tuple values) rest := by
  obtain ⟨-, hstartLength⟩ := Varint.decode_ok (decodeUint_ok hcount)
  obtain ⟨sizes, hsizes, hall⟩ := decodeItems_within text ih h
  obtain rfl := length_decodeItems h
  have hplain : ∀ {v : Value}, v.children = values → v.NoException →
      List.Forall₂ (Reencodes text levels) values sizes := by
    intro v hchildren hv
    refine forall₂_imp_of_mem hall fun c hc size _ hc' => hc' ?_
    exact (Value.everywhere_iff.mp hv).2 c (by rwa [hchildren])
  refine ⟨⟨1 + (data.length - tail.length) + sizes.sum, ?_, fun hv => ?_⟩,
    ⟨1 + (data.length - tail.length) + sizes.sum, ?_, fun hv => ?_⟩⟩
  · rw [List.length_cons]
    omega
  · exact (reencodes_items hmax (hplain rfl hv) (by omega)).1
  · rw [List.length_cons]
    omega
  · exact (reencodes_items hmax (hplain rfl hv) (by omega)).2

theorem map_within {levels count : Nat} {data tail rest : Bytes}
    {entries : List (PyStr × Value)}
    (ih : ∀ {data v rest}, decode levels data = .ok (v, rest) →
      DecodesWithin text levels data v rest)
    (hcount : decodeUint data = .ok (count, tail)) (hmax : count ≤ maxContainerItems)
    (h : decodeEntries (decode levels) count tail = .ok (entries, rest)) (byte : UInt8) :
    DecodesWithin text (levels + 1) (byte :: data) (.map (Dict.ofList entries)) rest := by
  obtain ⟨-, hlength⟩ := Varint.decode_ok (decodeUint_ok hcount)
  obtain ⟨sizes, hsizes, hall⟩ := decodeEntries_within text ih h
  obtain rfl := length_decodeEntries h
  refine ⟨1 + (data.length - tail.length) + (sizes.map fun s => s.1 + s.2).sum, ?_, fun hv => ?_⟩
  · rw [List.length_cons]
    omega
  · exact reencodes_map hmax hall (by omega) hv

theorem exc_within {levels : Nat} {data tail rest : Bytes} {name args v : Value}
    (ih : ∀ {data v rest}, decode levels data = .ok (v, rest) →
      DecodesWithin text levels data v rest)
    (hname : decode levels data = .ok (name, tail)) (hargs : decode levels tail = .ok (args, rest))
    (h : restoreException name args = .ok v) (byte : UInt8) :
    DecodesWithin text (levels + 1) (byte :: data) v rest := by
  obtain ⟨usedName, hname, -⟩ := ih hname
  obtain ⟨usedArgs, hargs, -⟩ := ih hargs
  refine ⟨1 + usedName + usedArgs, by rw [List.length_cons]; omega, fun hv => ?_⟩
  have hexc : ∃ cls items, v = .exc cls items := by
    cases name with
    | str name =>
      obtain ⟨items, -, rfl⟩ | ⟨s, -, rfl⟩ := restoreException_ok h
      · exact ⟨_, _, rfl⟩
      · exact ⟨_, _, rfl⟩
    | none | bool | int | bytes | list | tuple | map | exc => cases h
  obtain ⟨cls, items, rfl⟩ := hexc
  exact (Value.everywhere_iff.mp hv).1.elim

theorem Tag.eq_byte_of_ofByte? {b : UInt8} {tag : Tag} (h : Tag.ofByte? b = some tag) :
    b = tag.byte := by
  have hfound := List.find?_some h
  simpa [eq_comm] using hfound

variable (text)

/-- Whatever the decoder accepts without an exception can be encoded again, in no more bytes than
were read. -/
theorem decode_within (levels : Nat) {data : Bytes} {v : Value} {rest : Bytes}
    (h : decode levels data = .ok (v, rest)) : DecodesWithin text levels data v rest := by
  induction levels generalizing data v rest with
  | zero => cases h
  | succ levels ih =>
    cases data with
    | nil => cases h
    | cons byte data =>
      rw [decode] at h
      cases htag : Tag.ofByte? byte with
      | none => simp [htag] at h
      | some tag =>
        simp only [htag] at h
        obtain rfl := Tag.eq_byte_of_ofByte? htag
        cases tag with
        | nil | false | true =>
          cases h
          refine ⟨1, by rw [List.length_cons, Nat.add_comm], fun _ => ?_⟩
          exact reencodes_leaf rfl (Value.everywhere_leaf rfl trivial)
            (Value.everywhere_leaf rfl trivial) (Value.everywhere_leaf rfl trivial) rfl le_rfl
        | int =>
          simp only [bind_ok, pure_ok, Prod.mk.injEq] at h
          obtain ⟨⟨n, tail⟩, huint, rfl, rfl⟩ := h
          exact int_within huint
        | str =>
          simp only [bind_ok] at h
          obtain ⟨⟨encoded, tail⟩, hblob, h⟩ := h
          cases hutf8 : Utf8.decode encoded with
          | none => simp [hutf8] at h
          | some s =>
            simp only [hutf8, pure_ok, Prod.mk.injEq] at h
            obtain ⟨rfl, rfl⟩ := h
            exact str_within hblob hutf8
        | bytes =>
          simp only [bind_ok, pure_ok, Prod.mk.injEq] at h
          obtain ⟨⟨bs, tail⟩, hblob, rfl, rfl⟩ := h
          exact bytes_within hblob
        | list =>
          simp only [bind_ok, require_ok, pure_ok, Prod.mk.injEq] at h
          obtain ⟨⟨count, tail⟩, hcount, -, hmax, ⟨values, _⟩, hitems, rfl, rfl⟩ := h
          exact (items_within ih hcount hmax hitems _).1
        | tuple =>
          simp only [bind_ok, require_ok, pure_ok, Prod.mk.injEq] at h
          obtain ⟨⟨count, tail⟩, hcount, -, hmax, ⟨values, _⟩, hitems, rfl, rfl⟩ := h
          exact (items_within ih hcount hmax hitems _).2
        | map =>
          simp only [bind_ok, require_ok, pure_ok, Prod.mk.injEq] at h
          obtain ⟨⟨count, tail⟩, hcount, -, hmax, ⟨entries, _⟩, hentries, rfl, rfl⟩ := h
          exact map_within ih hcount hmax hentries _
        | exc =>
          simp only [bind_ok, pure_ok, Prod.mk.injEq] at h
          obtain ⟨⟨name, tail⟩, hname, ⟨args, tail'⟩, hargs, v', hrestore, rfl, rfl⟩ := h
          exact exc_within ih hname hargs hrestore _

theorem loads_ok {b : Bytes} {v : Value} (h : loads b = .ok v) :
    ∃ out, b = header ++ out ∧ b.length ≤ maxSerializedBytes ∧
      decode (maxDepth + 1) out = .ok (v, []) := by
  simp only [loads, bind_ok, require_ok] at h
  obtain ⟨-, -, -, hmagic, h⟩ := h
  cases hdrop : b.drop magic.length with
  | nil => simp [hdrop] at h
  | cons byte out =>
    simp only [hdrop, bind_ok, require_ok, pure_ok] at h
    obtain ⟨-, rfl, -, hlen, ⟨v', rest⟩, hdecode, -, hrest, rfl⟩ := h
    refine ⟨out, ?_, hlen, ?_⟩
    · rw [header, List.append_assoc, List.singleton_append, ← hdrop]
      conv_lhs => rw [← List.take_append_drop magic.length b, hmagic]
    · rw [hdecode, show rest = [] from hrest]

/-- Re-encoding an accepted message without exceptions normalises it: it stays inside every limit,
never gets longer and reads back as the same value. -/
theorem reencode_normalises (b : Bytes) (v : Value) (h : loads b = .ok v) (hv : v.NoException) :
    v.depth ≤ maxDepth ∧ v.ItemsBounded ∧
      ∃ b', dumps (v.toObj text) = .ok b' ∧ b'.length ≤ b.length ∧
        ∃ w, loads b' = .ok w ∧ w.canon = v.canon := by
  obtain ⟨out, rfl, hlen, hdecode⟩ := loads_ok h
  obtain ⟨used, hused, hreencodes⟩ := decode_within text (maxDepth + 1) hdecode
  have hre := hreencodes hv
  refine ⟨Nat.le_of_succ_le_succ hre.depth, hre.items, ?_⟩
  have hencode := Emit.ext_iff_error.mp hre.encoded
  have hshorter : (header ++ (encode (maxDepth + 1) (v.toObj text)).bytes).length ≤
      (header ++ out).length := by
    have hlength := hre.length
    rw [List.length_nil] at hused
    rw [List.length_append, List.length_append]
    omega
  have hdumps := dumps_of_encode hencode (hshorter.trans hlen)
  obtain ⟨hrestored, hintact⟩ := plainAt_of_encode text hv _ _ hencode
  refine ⟨_, hdumps, hshorter, _,
    loads_of_intact ⟨v.toObj text, hre.keys.toObj text⟩ hdumps (hintact.mpr hre.ints), ?_⟩
  rw [← hrestored]
  exact canon_restored _ _

end Reencode

/-- The hypotheses hold together: a padded varint inside a list. -/
theorem padded_varint_normalises :
    ∃ v, loads (header ++ [6, 1, 3, 142, 0]) = .ok v ∧ v.NoException ∧
      ∃ b', dumps (v.toObj fun _ _ => []) = .ok b' ∧ b'.length ≤ 10 := by
  have hplain : (Value.list [.int 7]).NoException := by
    refine Value.everywhere_iff.mpr ⟨trivial, ?_⟩
    intro c hc
    obtain rfl := List.mem_singleton.mp hc
    exact Value.everywhere_leaf rfl trivial
  obtain ⟨-, -, b', hdumps, hshorter, -⟩ := reencode_normalises (fun _ _ => [])
    (header ++ [6, 1, 3, 142, 0]) (.list [.int 7]) rfl hplain
  exact ⟨_, rfl, hplain, b', hdumps, hshorter⟩

end Cygnus.Queue
