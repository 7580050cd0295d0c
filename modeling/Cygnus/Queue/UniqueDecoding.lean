import Cygnus.Queue.RoundTrip
import Mathlib.Data.List.Perm.Basic

/-! The encoding is uniquely decodable: on objects without exceptions no output continues another,
whatever the size of the integers. -/

namespace Cygnus.Queue

open Sequence Result

/-- No exception occurs in the object. -/
inductive PyObj.NoException : PyObj → Prop
  | none : NoException .none
  | bool (b) : NoException (.bool b)
  | int (i) : NoException (.int i)
  | str (s) : NoException (.str s)
  | bytes (bs) : NoException (.bytes bs)
  | bytearray (bs) : NoException (.bytearray bs)
  | list {items} : (∀ x ∈ items, NoException x) → NoException (.list items)
  | tuple {items} : (∀ x ∈ items, NoException x) → NoException (.tuple items)
  | dict {entries} : (∀ e ∈ entries, NoException e.2) → NoException (.dict entries)
  | other (typeName) : NoException (.other typeName)

/-- An object as Python can build it, with no exception inside. -/
abbrev PlainPayload := { p : PyObj // p.DistinctKeys ∧ p.NoException }

/-- The contents of a byte string; `bytearray(b) == bytes(b)`. -/
def PyObj.content? : PyObj → Option Bytes
  | .bytes bs | .bytearray bs => some bs
  | _ => Option.none

/-- Equal up to the insertion order of dicts. -/
inductive SameValue : PyObj → PyObj → Prop
  | none : SameValue .none .none
  | bool (b) : SameValue (.bool b) (.bool b)
  | int (i) : SameValue (.int i) (.int i)
  | str (s) : SameValue (.str s) (.str s)
  | bytes {v w bs} : v.content? = some bs → w.content? = some bs → SameValue v w
  | list {xs ys} : List.Forall₂ SameValue xs ys → SameValue (.list xs) (.list ys)
  | tuple {xs ys} : List.Forall₂ SameValue xs ys → SameValue (.tuple xs) (.tuple ys)
  | dict {xs ys zs} : ys.Perm zs → xs.map Prod.fst = zs.map Prod.fst →
      List.Forall₂ SameValue (xs.map Prod.snd) (zs.map Prod.snd) → SameValue (.dict xs) (.dict ys)

/-- The outputs of the encoder on objects without exceptions, tag first. -/
inductive Encoded (levels : Nat) : PyObj → Bytes → Prop
  | none : Encoded levels .none [Tag.nil.byte]
  | false : Encoded levels (.bool false) [Tag.false.byte]
  | true : Encoded levels (.bool true) [Tag.true.byte]
  | int (i) : Encoded levels (.int i) (Tag.int.byte :: Varint.encode (zigzag i))
  | str {s encoded} : Utf8.encode s = some encoded →
      Encoded levels (.str s) (Tag.str.byte :: (Varint.encode encoded.length ++ encoded))
  | bytes {v bs} : v.content? = some bs →
      Encoded levels v (Tag.bytes.byte :: (Varint.encode bs.length ++ bs))
  | list {items parts} : List.Forall₂ (fun part x => encode levels x = ⟨part, Option.none⟩) parts items →
      Encoded levels (.list items) (Tag.list.byte :: (Varint.encode items.length ++ parts.flatten))
  | tuple {items parts} : List.Forall₂ (fun part x => encode levels x = ⟨part, Option.none⟩) parts items →
      Encoded levels (.tuple items) (Tag.tuple.byte :: (Varint.encode items.length ++ parts.flatten))
  | dict {entries found} {parts : List (Bytes × Bytes)} : strEntries entries = some found →
      List.Forall₂ (fun part e => encode levels (.str e.1) = ⟨part.1, Option.none⟩ ∧
        encode levels e.2 = ⟨part.2, Option.none⟩) parts (sortedBy Prod.fst found) →
      Encoded levels (.dict entries) (Tag.map.byte :: (Varint.encode found.length ++
        (parts.map fun p => p.1 ++ p.2).flatten))

theorem encoded_of_encode {levels : Nat} {v : PyObj} {out : Bytes} (hplain : v.NoException)
    (h : encode (levels + 1) v = ⟨out, none⟩) : Encoded levels v out := by
  cases hplain with
  | none =>
    obtain rfl := Emit.write_eq.mp h
    exact .none
  | bool b =>
    obtain rfl := Emit.write_eq.mp h
    cases b with
    | false => exact .false
    | true => exact .true
  | int i =>
    obtain rfl := Emit.write_eq.mp h
    exact .int i
  | str s =>
    obtain ⟨encoded, hencode, rfl⟩ := encodeStr_eq h
    exact .str hencode
  | bytes bs =>
    obtain rfl := Emit.write_eq.mp h
    exact .bytes rfl
  | bytearray bs =>
    obtain rfl := Emit.write_eq.mp h
    exact .bytes rfl
  | list hitems =>
    obtain ⟨-, parts, hparts, rfl⟩ := encodeSequence_eq h
    rw [List.length_map]
    exact .list (parts_of_items hparts)
  | tuple hitems =>
    obtain ⟨-, parts, hparts, rfl⟩ := encodeSequence_eq h
    rw [List.length_map]
    exact .tuple (parts_of_items hparts)
  | dict hentries =>
    obtain ⟨found, parts, hfound, -, rfl, hparts⟩ := encode_dict_eq h
    exact .dict hfound hparts
  | other typeName => exact absurd h Emit.fail_ne

theorem zigzag_injective : Function.Injective zigzag := by
  intro i j h
  rw [← unzigzag_zigzag i, h, unzigzag_zigzag]

theorem utf8_encode_injective {s t : PyStr} {encoded : Bytes} (hs : Utf8.encode s = some encoded)
    (ht : Utf8.encode t = some encoded) : s = t :=
  Option.some.inj ((Utf8.decode_of_encode hs).symm.trans (Utf8.decode_of_encode ht))

/-- A length-prefixed run of bytes ends where its length says. -/
theorem blob_append_inj {a b s t : Bytes}
    (h : Varint.encode a.length ++ a ++ s = Varint.encode b.length ++ b ++ t) : a = b ∧ s = t := by
  rw [List.append_assoc, List.append_assoc] at h
  obtain ⟨hlength, hrest⟩ := Varint.encode_append_inj h
  exact List.append_inj hrest hlength

section Separation

variable {levels levels' : Nat}

/-- Outputs at these depths are told apart wherever they begin. -/
def Separated (levels levels' : Nat) : Prop :=
  ∀ {v w : PyObj} {a b s t : Bytes}, v.NoException → w.NoException →
    encode levels v = ⟨a, none⟩ → encode levels' w = ⟨b, none⟩ → a ++ s = b ++ t →
    SameValue v w ∧ s = t

theorem Separated.items (hsep : Separated levels levels') {xs ys : List PyObj}
    {partsX partsY : List Bytes} {s t : Bytes}
    (hx : ∀ x ∈ xs, x.NoException) (hy : ∀ y ∈ ys, y.NoException)
    (hxs : List.Forall₂ (fun part x => encode levels x = ⟨part, none⟩) partsX xs)
    (hys : List.Forall₂ (fun part y => encode levels' y = ⟨part, none⟩) partsY ys)
    (hlength : xs.length = ys.length) (h : partsX.flatten ++ s = partsY.flatten ++ t) :
    List.Forall₂ SameValue xs ys ∧ s = t := by
  induction hxs generalizing ys partsY with
  | nil =>
    cases hys with
    | nil => exact ⟨.nil, h⟩
    | cons => cases hlength
  | cons hhead _ ih =>
    cases hys with
    | nil => cases hlength
    | cons hhead' htail' =>
      simp only [List.flatten_cons, List.append_assoc] at h
      obtain ⟨hsame, hrest⟩ := hsep (hx _ List.mem_cons_self) (hy _ List.mem_cons_self) hhead hhead' h
      obtain ⟨hall, hst⟩ := ih (fun x hmem => hx x (List.mem_cons_of_mem _ hmem))
        (fun y hmem => hy y (List.mem_cons_of_mem _ hmem)) htail' (Nat.succ.inj hlength) hrest
      exact ⟨.cons hsame hall, hst⟩

theorem SameValue.str_inj {s t : PyStr} (h : SameValue (.str s) (.str t)) : s = t := by
  cases h with
  | str => rfl
  | bytes hs ht => cases hs

theorem Separated.entries (hsep : Separated levels levels') {xs ys : List (PyStr × PyObj)}
    {partsX partsY : List (Bytes × Bytes)} {s t : Bytes}
    (hx : ∀ x ∈ xs, x.2.NoException) (hy : ∀ y ∈ ys, y.2.NoException)
    (hxs : List.Forall₂ (fun part x => encode levels (.str x.1) = ⟨part.1, none⟩ ∧
      encode levels x.2 = ⟨part.2, none⟩) partsX xs)
    (hys : List.Forall₂ (fun part y => encode levels' (.str y.1) = ⟨part.1, none⟩ ∧
      encode levels' y.2 = ⟨part.2, none⟩) partsY ys)
    (hlength : xs.length = ys.length)
    (h : (partsX.map fun p => p.1 ++ p.2).flatten ++ s = (partsY.map fun p => p.1 ++ p.2).flatten ++ t) :
    List.Forall₂ (fun x y => x.1 = y.1 ∧ SameValue x.2 y.2) xs ys ∧ s = t := by
  induction hxs generalizing ys partsY with
  | nil =>
    cases hys with
    | nil => exact ⟨.nil, h⟩
    | cons => cases hlength
  | cons hhead _ ih =>
    cases hys with
    | nil => cases hlength
    | cons hhead' htail' =>
      simp only [List.map_cons, List.flatten_cons, List.append_assoc] at h
      obtain ⟨hkey, hvalues⟩ := hsep (.str _) (.str _) hhead.1 hhead'.1 h
      obtain ⟨hvalue, hrest⟩ := hsep (hx _ List.mem_cons_self) (hy _ List.mem_cons_self) hhead.2
        hhead'.2 hvalues
      obtain ⟨hall, hst⟩ := ih (fun x hmem => hx x (List.mem_cons_of_mem _ hmem))
        (fun y hmem => hy y (List.mem_cons_of_mem _ hmem)) htail' (Nat.succ.inj hlength) hrest
      exact ⟨.cons ⟨hkey.str_inj, hvalue⟩ hall, hst⟩

end Separation

/-- Dicts whose sorted entries agree are equal up to insertion order. -/
theorem SameValue.of_sorted {xs ys : List (DictKey × PyObj)} {foundX foundY : List (PyStr × PyObj)}
    (hfoundX : strEntries xs = some foundX) (hfoundY : strEntries ys = some foundY)
    (h : List.Forall₂ (fun x y => x.1 = y.1 ∧ SameValue x.2 y.2) (sortedBy Prod.fst foundX)
      (sortedBy Prod.fst foundY)) : SameValue (.dict xs) (.dict ys) := by
  obtain ⟨zs, hzs, hperm⟩ := List.perm_comp_forall₂ (perm_sortedBy Prod.fst foundX).symm h
  rw [strEntries_eq hfoundX, strEntries_eq hfoundY]
  refine .dict (((perm_sortedBy Prod.fst foundY).symm.trans hperm.symm).map _) ?_ ?_
  · rw [List.map_map, List.map_map]
    apply List.forall₂_eq_eq_eq.le
    rw [List.forall₂_map_left_iff, List.forall₂_map_right_iff]
    exact hzs.imp fun _ _ hxz => congrArg DictKey.str hxz.1
  · rw [List.map_map, List.map_map, List.forall₂_map_left_iff, List.forall₂_map_right_iff]
    exact hzs.imp fun _ _ hxz => hxz.2

theorem separated (levels levels' : Nat) : Separated levels levels' := by
  induction levels generalizing levels' with
  | zero =>
    intro v w a b s t _ _ hv
    exact absurd hv Emit.fail_ne
  | succ levels ih =>
    intro v w a b s t hplainV hplainW hv hw h
    cases levels' with
    | zero => exact absurd hw Emit.fail_ne
    | succ levels' =>
      -- the first byte of both outputs is the tag, so the two shapes are the same
      have hsep : Separated levels levels' := ih levels'
      have hshapeV := encoded_of_encode hplainV hv
      have hshapeW := encoded_of_encode hplainW hw
      cases hshapeV <;> cases hshapeW <;>
        first | exact absurd (List.cons.inj h).1 (by decide) | skip
      case none.none => exact ⟨.none, (List.cons.inj h).2⟩
      case false.false => exact ⟨.bool false, (List.cons.inj h).2⟩
      case true.true => exact ⟨.bool true, (List.cons.inj h).2⟩
      case int.int =>
        obtain ⟨hzigzag, hst⟩ := Varint.encode_append_inj (List.cons.inj h).2
        rw [zigzag_injective hzigzag]
        exact ⟨.int _, hst⟩
      case str.str hencodeV _ _ hencodeW =>
        obtain ⟨rfl, hst⟩ := blob_append_inj (List.cons.inj h).2
        rw [utf8_encode_injective hencodeV hencodeW]
        exact ⟨.str _, hst⟩
      case bytes.bytes hcontentV _ hcontentW =>
        obtain ⟨rfl, hst⟩ := blob_append_inj (List.cons.inj h).2
        exact ⟨.bytes hcontentV hcontentW, hst⟩
      case list.list hpartsV _ _ hpartsW =>
        cases hplainV with
        | list hitemsV =>
          cases hplainW with
          | list hitemsW =>
            simp only [List.cons_append, List.cons.injEq, List.append_assoc, true_and] at h
            obtain ⟨hlength, hrest⟩ := Varint.encode_append_inj h
            obtain ⟨hall, hst⟩ := hsep.items hitemsV hitemsW hpartsV hpartsW hlength hrest
            exact ⟨.list hall, hst⟩
      case tuple.tuple hpartsV _ _ hpartsW =>
        cases hplainV with
        | tuple hitemsV =>
          cases hplainW with
          | tuple hitemsW =>
            simp only [List.cons_append, List.cons.injEq, List.append_assoc, true_and] at h
            obtain ⟨hlength, hrest⟩ := Varint.encode_append_inj h
            obtain ⟨hall, hst⟩ := hsep.items hitemsV hitemsW hpartsV hpartsW hlength hrest
            exact ⟨.tuple hall, hst⟩
      case dict.dict hfoundV hpartsV _ _ _ hfoundW hpartsW =>
        cases hplainV with
        | dict hentriesV =>
          cases hplainW with
          | dict hentriesW =>
            simp only [List.cons_append, List.cons.injEq, List.append_assoc, true_and] at h
            obtain ⟨hlength, hrest⟩ := Varint.encode_append_inj h
            have hsorted := hsep.entries
              (fun x hx => hentriesV _ (mem_of_mem_sorted hfoundV hx))
              (fun y hy => hentriesW _ (mem_of_mem_sorted hfoundW hy)) hpartsV hpartsW
              (by rw [length_sortedBy, length_sortedBy, hlength]) hrest
            exact ⟨.of_sorted hfoundV hfoundW hsorted.1, hsorted.2⟩

section Order

theorem strEntries_eq_filterMap {entries : List (DictKey × PyObj)} {found : List (PyStr × PyObj)}
    (h : strEntries entries = some found) :
    found = entries.filterMap fun e => e.1.str?.map (·, e.2) := by
  rw [strEntries_eq h, List.filterMap_map]
  exact (List.filterMap_some).symm

theorem strEntries_none {entries : List (DictKey × PyObj)} :
    strEntries entries = none ↔ .other ∈ entries.map Prod.fst := by
  induction entries with
  | nil => simp [strEntries]
  | cons e entries ih =>
    obtain ⟨key, v⟩ := e
    rw [strEntries] at ih
    cases key with
    | other => simp [strEntries, DictKey.str?]
    | str s =>
      rw [List.map_cons, List.mem_cons, ← ih, strEntries, List.mapM_cons]
      cases hrest : entries.mapM fun e => e.1.str?.map (·, e.2) <;> simp [DictKey.str?]

/-- Entries of equal dicts, once sorted, agree one by one. -/
theorem sorted_of_sameEntries {xs ys zs : List (DictKey × PyObj)}
    {foundX foundY : List (PyStr × PyObj)} (hfoundX : strEntries xs = some foundX)
    (hfoundY : strEntries ys = some foundY)
    (hkeys : (ys.filterMap fun e => e.1.str?).Nodup) (hperm : ys.Perm zs)
    (hsameKeys : xs.map Prod.fst = zs.map Prod.fst)
    (hvalues : List.Forall₂ SameValue (xs.map Prod.snd) (zs.map Prod.snd)) :
    List.Forall₂ (fun x y => x.1 = y.1 ∧ SameValue x.2 y.2) (sortedBy Prod.fst foundX)
      (sortedBy Prod.fst foundY) := by
  obtain ⟨foundZ, hfoundZ⟩ : ∃ foundZ, strEntries zs = some foundZ := by
    rw [← Option.ne_none_iff_exists', Ne, strEntries_none, ← hsameKeys, ← strEntries_none, hfoundX]
    exact Option.some_ne_none _
  have hfoundPerm : foundY.Perm foundZ := by
    rw [strEntries_eq_filterMap hfoundY, strEntries_eq_filterMap hfoundZ]
    exact hperm.filterMap _
  rw [keys_strEntries hfoundY] at hkeys
  rw [sortedBy_perm hfoundPerm hkeys]
  have hentries := forall₂_entries hsameKeys hvalues
  rw [strEntries_eq hfoundX, strEntries_eq hfoundZ, List.forall₂_map_left_iff,
    List.forall₂_map_right_iff] at hentries
  apply forall₂_sortedBy (fun x z h => h.1)
  exact hentries.imp fun x z hxz => ⟨DictKey.str.inj hxz.1, hxz.2⟩

theorem encode_content {levels : Nat} {v : PyObj} {bs : Bytes} (h : v.content? = some bs) :
    encode (levels + 1) v = .write (Tag.bytes.byte :: (Varint.encode bs.length ++ bs)) := by
  cases v with
  | bytes | bytearray =>
    cases h
    rfl
  | _ => cases h

theorem encode_sameItems {levels : Nat} {xs ys : List PyObj}
    (ih : ∀ {v w : PyObj}, v.DistinctKeys → w.DistinctKeys → SameValue v w →
      encode levels v = encode levels w)
    (hx : ∀ x ∈ xs, x.DistinctKeys) (hy : ∀ y ∈ ys, y.DistinctKeys)
    (h : List.Forall₂ SameValue xs ys) : xs.map (encode levels) = ys.map (encode levels) := by
  rw [← List.forall₂_eq_eq_eq, List.forall₂_map_left_iff, List.forall₂_map_right_iff]
  exact forall₂_imp_of_mem h fun x hxs y hys hsame => ih (hx x hxs) (hy y hys) hsame

/-- Equal objects are written alike, and refused alike. -/
theorem encode_eq_of_sameValue {levels : Nat} {v w : PyObj} (hv : v.DistinctKeys) (hw : w.DistinctKeys)
    (h : SameValue v w) : encode levels v = encode levels w := by
  induction levels generalizing v w with
  | zero => rfl
  | succ levels ih =>
    cases h with
    | none | bool | int | str => rfl
    | bytes hcontentV hcontentW => rw [encode_content hcontentV, encode_content hcontentW]
    | list hall =>
      cases hv with
      | list hitemsV =>
        cases hw with
        | list hitemsW => rw [encode, encode, encode_sameItems ih hitemsV hitemsW hall]
    | tuple hall =>
      cases hv with
      | tuple hitemsV =>
        cases hw with
        | tuple hitemsW => rw [encode, encode, encode_sameItems ih hitemsV hitemsW hall]
    | @dict xs ys zs hperm hsameKeys hvalues =>
      cases hv with
      | dict _ hentriesV =>
        cases hw with
        | dict hkeys hentriesW =>
          have hlength : xs.length = ys.length := by
            rw [hperm.length_eq, ← List.length_map (f := Prod.fst), hsameKeys, List.length_map]
          rw [encode, encode, hlength]
          split
          · rfl
          · cases hfoundX : strEntries xs with
            | none =>
              have hnone : strEntries ys = none := by
                rw [strEntries_none] at hfoundX ⊢
                rw [(hperm.map Prod.fst).mem_iff, ← hsameKeys]
                exact hfoundX
              rw [hnone]
            | some foundX =>
              cases hfoundY : strEntries ys with
              | none =>
                rw [strEntries_none, (hperm.map Prod.fst).mem_iff, ← hsameKeys, ← strEntries_none,
                  hfoundX] at hfoundY
                cases hfoundY
              | some foundY =>
                have hsorted := sorted_of_sameEntries hfoundX hfoundY hkeys hperm hsameKeys hvalues
                have hcount := hsorted.length_eq
                rw [length_sortedBy, length_sortedBy] at hcount
                have hmap : (sortedBy Prod.fst foundX).map (fun e =>
                    (encode levels (.str e.1)).seq (encode levels e.2)) =
                    (sortedBy Prod.fst foundY).map fun e =>
                      (encode levels (.str e.1)).seq (encode levels e.2) := by
                  rw [← List.forall₂_eq_eq_eq, List.forall₂_map_left_iff, List.forall₂_map_right_iff]
                  refine forall₂_imp_of_mem hsorted fun x hx y hy hxy => ?_
                  rw [hxy.1, ih (hentriesV _ (mem_of_mem_sorted hfoundX hx))
                    (hentriesW _ (mem_of_mem_sorted hfoundY hy)) hxy.2]
                dsimp only
                rw [hcount, hmap]

end Order

/-- An output is found again at the front of any bytes, and with it the object up to the insertion
order of its dicts; objects equal up to that order have one output. -/
theorem encode_uniquely_decodable (levels : Nat) (v w : PlainPayload) :
    (∀ a b s t, encode levels v.1 = ⟨a, none⟩ → encode levels w.1 = ⟨b, none⟩ → a ++ s = b ++ t →
      s = t ∧ SameValue v.1 w.1) ∧
    (SameValue v.1 w.1 → encode levels v.1 = encode levels w.1) := by
  constructor
  · intro a b s t hv hw h
    exact (separated levels levels v.2.2 w.2.2 hv hw h).symm
  · exact encode_eq_of_sameValue v.2.1 w.2.1

/-- A dict of two integers, in the given order. -/
def pairDict (first second : PyStr × Int) (h : first.1 ≠ second.1) : PlainPayload :=
  ⟨.dict [(.str first.1, .int first.2), (.str second.1, .int second.2)], by
    constructor
    · refine .dict (by simpa [DictKey.str?] using h) ?_
      intro e he
      simp only [List.mem_cons, List.not_mem_nil, or_false] at he
      rcases he with rfl | rfl <;> exact .int _
    · refine .dict ?_
      intro e he
      simp only [List.mem_cons, List.not_mem_nil, or_false] at he
      rcases he with rfl | rfl <;> exact .int _⟩

def attemptThenJob : PlainPayload :=
  pairDict (Utf8.ofString "t", 300) (Utf8.ofString "j", -2) (by decide)

def jobThenAttempt : PlainPayload :=
  pairDict (Utf8.ofString "j", -2) (Utf8.ofString "t", 300) (by decide)

/-- The hypotheses hold together at a dict and its reordering. -/
theorem reordered_dict_found_again :
    encode (maxDepth + 1) attemptThenJob.1 = encode (maxDepth + 1) jobThenAttempt.1 ∧
      ∀ s t, (encode (maxDepth + 1) attemptThenJob.1).bytes ++ s =
        (encode (maxDepth + 1) jobThenAttempt.1).bytes ++ t →
        s = t ∧ SameValue attemptThenJob.1 jobThenAttempt.1 := by
  have hsame : SameValue attemptThenJob.1 jobThenAttempt.1 :=
    .dict (.swap _ _ _) rfl (.cons (.int _) (.cons (.int _) .nil))
  have hunique := encode_uniquely_decodable (maxDepth + 1) attemptThenJob jobThenAttempt
  refine ⟨hunique.2 hsame, ?_⟩
  intro s t
  exact hunique.1 _ _ s t (by decide +kernel) (by decide +kernel)

end Cygnus.Queue
