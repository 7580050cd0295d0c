import Cygnus.Data.Document
import Cygnus.Data.PyJsonLaws

/-! Documents whose strings have no surrogates, and that hold no float, among those of the
interpreter. -/

namespace Cygnus

open Sequence

theorem Utf8.ofString_strictMono : StrictMono Utf8.ofString := by
  intro a b h
  exact List.map_lt (fun _ _ hlt => hlt) (String.lt_iff_toList_lt.mp h)

namespace Json

mutual

/-- The document as `sort_keys` writes it. -/
def sortKeys : Json → Json
  | .list items => .list (sortItems items)
  | .object fields => .object (sortedBy Prod.fst (sortFields fields))
  | document => document

def sortItems : List Json → List Json
  | [] => []
  | item :: items => item.sortKeys :: sortItems items

def sortFields : List (String × Json) → List (String × Json)
  | [] => []
  | (key, value) :: fields => (key, value.sortKeys) :: sortFields fields

end

variable {R : Type}

mutual

def toPy : Json → PyJson R
  | .null => .null
  | .bool b => .bool b
  | .int n => .int n
  | .str s => .str (Utf8.ofString s)
  | .list items => .list (itemsToPy items)
  | .object fields => .object (fieldsToPy fields)

def itemsToPy : List Json → List (PyJson R)
  | [] => []
  | item :: items => item.toPy :: itemsToPy items

def fieldsToPy : List (String × Json) → List (PyStr × PyJson R)
  | [] => []
  | (key, value) :: fields => (Utf8.ofString key, value.toPy) :: fieldsToPy fields

end

section Keys

theorem itemsToPy_eq_map (items : List Json) :
    (itemsToPy items : List (PyJson R)) = items.map toPy := by
  induction items with
  | nil => rfl
  | cons item items ih => rw [itemsToPy, ih, List.map_cons]

theorem fieldsToPy_eq_map (fields : List (String × Json)) :
    (fieldsToPy fields : List (PyStr × PyJson R)) =
      fields.map fun field => (Utf8.ofString field.1, field.2.toPy) := by
  induction fields with
  | nil => rfl
  | cons field fields ih => rw [fieldsToPy, ih, List.map_cons]

/-- The keys of an object are in the same order as code points and as characters. -/
theorem fieldsToPy_sorted (fields : List (String × Json)) :
    (fieldsToPy (sortedBy Prod.fst fields) : List (PyStr × PyJson R)) =
      sortedBy Prod.fst (fieldsToPy fields) := by
  rw [fieldsToPy_eq_map, fieldsToPy_eq_map]
  apply List.map_insertionSort
  intro a _ b _
  exact Utf8.ofString_strictMono.le_iff_le.symm

mutual

theorem sortKeys_toPy : (document : Json) →
    (document.toPy : PyJson R).sortKeys = document.sortKeys.toPy
  | .null => rfl
  | .bool _ => rfl
  | .int _ => rfl
  | .str _ => rfl
  | .list items => by
    rw [toPy, PyJson.sortKeys, sortItems_toPy items, sortKeys, toPy]
  | .object fields => by
    rw [toPy, PyJson.sortKeys, sortFields_toPy fields, sortKeys, toPy, fieldsToPy_sorted]

theorem sortItems_toPy : (items : List Json) →
    PyJson.sortItems (itemsToPy items : List (PyJson R)) = itemsToPy (sortItems items)
  | [] => rfl
  | item :: items => by
    rw [itemsToPy, PyJson.sortItems, sortKeys_toPy item, sortItems_toPy items, sortItems, itemsToPy]

theorem sortFields_toPy : (fields : List (String × Json)) →
    PyJson.sortFields (fieldsToPy fields : List (PyStr × PyJson R)) =
      fieldsToPy (sortFields fields)
  | [] => rfl
  | (key, value) :: fields => by
    rw [fieldsToPy, PyJson.sortFields, sortKeys_toPy value, sortFields_toPy fields, sortFields,
      fieldsToPy]

end

theorem sortFields_eq_map (fields : List (String × Json)) :
    sortFields fields = fields.map fun field => (field.1, field.2.sortKeys) := by
  induction fields with
  | nil => rfl
  | cons field fields ih => rw [sortFields, ih, List.map_cons]

theorem lookup_sorted {fields : List (String × Json)} (hkeys : (fields.map Prod.fst).Nodup)
    (key : String) :
    (sortedBy Prod.fst (sortFields fields)).lookup key = (fields.lookup key).map sortKeys := by
  have hsame : (sortFields fields).map Prod.fst = fields.map Prod.fst := by
    rw [sortFields_eq_map, List.map_map]
    rfl
  rw [Document.lookup_sortedBy (hsame ▸ hkeys)]
  induction fields with
  | nil => rfl
  | cons field fields ih =>
    rw [List.map_cons, List.nodup_cons] at hkeys
    rw [sortFields, List.lookup_cons, List.lookup_cons, ih hkeys.2 (List.cons.inj hsame).2]
    split <;> rfl

theorem lookup_fieldsToPy (fields : List (String × Json)) (key : String) :
    (fieldsToPy fields : List (PyStr × PyJson R)).lookup (Utf8.ofString key) =
      (fields.lookup key).map toPy := by
  induction fields with
  | nil => rfl
  | cons field fields ih =>
    obtain ⟨name, value⟩ := field
    rw [fieldsToPy, List.lookup_cons, List.lookup_cons, ih]
    by_cases h : key = name
    · subst h
      simp
    · have hne : Utf8.ofString key ≠ Utf8.ofString name := Utf8.ofString_strictMono.injective.ne h
      rw [beq_eq_false_iff_ne.mpr h, beq_eq_false_iff_ne.mpr hne]

end Keys

section Text

variable (floats : Floats R)

theorem quote_ofString (s : String) : PyJson.quote (Utf8.ofString s) = quote s := by
  have hescape : ∀ c : Char, PyJson.escape (Utf8.ofChar c) = escape c := by
    intro c
    rw [PyJson.escape, Utf8.toChar?_ofChar]
  rw [PyJson.quote, quote, Utf8.ofString, List.flatMap_map]
  simp only [hescape]

theorem writeItems_eq (items : List (PyJson R)) : PyJson.writeItems floats items =
    [','].intercalate (items.map (PyJson.write floats)) ++ [']'] := by
  induction items with
  | nil => rfl
  | cons item items ih =>
    cases items with
    | nil => simp [PyJson.writeItems, List.intercalate]
    | cons next items => simp [PyJson.writeItems, ih, List.intercalate]

theorem writeFields_eq (fields : List (PyStr × PyJson R)) : PyJson.writeFields floats fields =
    [','].intercalate (fields.map fun field =>
      PyJson.quote field.1 ++ ':' :: PyJson.write floats field.2) ++ ['}'] := by
  induction fields with
  | nil => rfl
  | cons field fields ih =>
    cases fields with
    | nil => simp [PyJson.writeFields, List.intercalate]
    | cons next fields => simp [PyJson.writeFields, ih, List.intercalate]

theorem renderFields_eq_map (fields : List (String × Json)) :
    renderFields fields = fields.map fun field => (field.1, render field.2) := by
  induction fields with
  | nil => rfl
  | cons field fields ih => rw [renderFields, ih, List.map_cons]

mutual

/-- Both writers give one text. -/
theorem write_toPy : (document : Json) →
    PyJson.write floats document.sortKeys.toPy = render document
  | .null => rfl
  | .bool true => rfl
  | .bool false => rfl
  | .int _ => rfl
  | .str s => quote_ofString s
  | .list items => by
    rw [sortKeys, toPy, PyJson.write, writeItems_eq, itemsToPy_eq_map, List.map_map,
      writeItems_toPy items, render, List.cons_append]
  | .object fields => by
    have hfields := writeFields_toPy fields
    rw [sortKeys, toPy, PyJson.write, writeFields_eq, fieldsToPy_eq_map, List.map_map, render,
      ← hfields, sortedBy_fst_map, List.map_map, List.cons_append]
    simp only [Function.comp_def, quote_ofString]

theorem writeItems_toPy : (items : List Json) →
    (sortItems items).map (PyJson.write floats ∘ toPy) = renderItems items
  | [] => rfl
  | item :: items => by
    rw [sortItems, List.map_cons, writeItems_toPy items, renderItems, Function.comp_apply,
      write_toPy item]

theorem writeFields_toPy : (fields : List (String × Json)) →
    (sortFields fields).map (fun field => (field.1, PyJson.write floats field.2.toPy)) =
      renderFields fields
  | [] => rfl
  | (key, value) :: fields => by
    rw [sortFields, List.map_cons, writeFields_toPy fields, renderFields, write_toPy value]

end

end Text

section Sizes

mutual

/-- A bound on the length of the text of a document. -/
def weight : Json → Nat
  | .null => 4
  | .bool _ => 5
  | .int n => (toString n).utf8ByteSize
  | .str s => 12 * s.utf8ByteSize + 2
  | .list items => weightItems items + 2
  | .object fields => weightFields fields + 2

def weightItems : List Json → Nat
  | [] => 0
  | item :: items => item.weight + 1 + weightItems items

def weightFields : List (String × Json) → Nat
  | [] => 0
  | (key, value) :: fields => 12 * key.utf8ByteSize + value.weight + 4 + weightFields fields

end

/-- A character takes one to four bytes. -/
theorem length_utf8_bounds (cs : List Char) :
    cs.length ≤ (cs.flatMap String.utf8EncodeChar).length ∧
      (cs.flatMap String.utf8EncodeChar).length ≤ 4 * cs.length := by
  induction cs with
  | nil => simp
  | cons c cs ih =>
    have hpos := c.utf8Size_pos
    have hfour := c.utf8Size_le_four
    rw [List.flatMap_cons, List.length_append, List.length_cons, String.length_utf8EncodeChar]
    omega

theorem utf8ByteSize_bounds (s : String) :
    s.toList.length ≤ s.utf8ByteSize ∧ s.utf8ByteSize ≤ 4 * s.toList.length := by
  rw [← String.size_toByteArray, ← String.utf8Encode_toList, List.utf8Encode,
    List.size_toByteArray]
  exact length_utf8_bounds s.toList

theorem length_escape_le (c : Char) : (escape c).length ≤ 12 := by
  unfold escape
  split_ifs <;> simp [unicodeEscape, hexDigits]

theorem length_quote_le (s : String) : (quote s).length ≤ 12 * s.utf8ByteSize + 2 := by
  have hescapes : ∀ cs : List Char, (cs.flatMap escape).length ≤ 12 * cs.length := by
    intro cs
    induction cs with
    | nil => simp
    | cons c cs ih =>
      have hc := length_escape_le c
      rw [List.flatMap_cons, List.length_append, List.length_cons]
      omega
  have hchars := hescapes s.toList
  have hbytes := (utf8ByteSize_bounds s).1
  rw [quote, List.length_append, List.length_cons, List.length_singleton]
  omega

theorem length_intercalate_le (texts : List (List Char)) :
    ([','].intercalate texts).length ≤ (texts.map fun text => text.length + 1).sum := by
  induction texts with
  | nil => simp
  | cons text texts ih =>
    cases texts with
    | nil => simp
    | cons next texts =>
      rw [List.intercalate_cons_cons, List.length_append, List.length_append,
        List.length_singleton, List.map_cons, List.sum_cons]
      omega

mutual

theorem length_render_le : (document : Json) → (render document).length ≤ document.weight
  | .null => by decide
  | .bool true => by decide
  | .bool false => by decide
  | .int n => (utf8ByteSize_bounds (toString n)).1
  | .str s => length_quote_le s
  | .list items => by
    have hitems := sum_renderItems_le items
    have hjoined := length_intercalate_le (renderItems items)
    rw [render, weight, List.length_append, List.length_cons, List.length_singleton]
    omega
  | .object fields => by
    have hfields := sum_renderFields_le fields
    have hjoined := length_intercalate_le ((sortedBy Prod.fst (renderFields fields)).map fun field =>
      quote field.1 ++ ':' :: field.2)
    have hperm := ((perm_sortedBy Prod.fst (renderFields fields)).map fun field =>
      (quote field.1 ++ ':' :: field.2).length + 1).sum_nat
    rw [List.map_map] at hjoined
    simp only [Function.comp_def] at hjoined
    rw [render, weight, List.length_append, List.length_cons, List.length_singleton]
    omega

theorem sum_renderItems_le : (items : List Json) →
    ((renderItems items).map fun text => text.length + 1).sum ≤ weightItems items
  | [] => by simp [renderItems, weightItems]
  | item :: items => by
    have hitem := length_render_le item
    have hitems := sum_renderItems_le items
    rw [renderItems, weightItems, List.map_cons, List.sum_cons]
    omega

theorem sum_renderFields_le : (fields : List (String × Json)) →
    ((renderFields fields).map fun field =>
      (quote field.1 ++ ':' :: field.2).length + 1).sum ≤ weightFields fields
  | [] => by simp [renderFields, weightFields]
  | (key, value) :: fields => by
    have hkey := length_quote_le key
    have hvalue := length_render_le value
    have hfields := sum_renderFields_le fields
    rw [renderFields, weightFields, List.map_cons, List.sum_cons, List.length_append,
      List.length_cons]
    dsimp only
    omega

end

end Sizes

section Decoding

mutual

/-- The document that an interpreter's stands for, without a float or a surrogate. -/
def ofPy : PyJson R → Option Json
  | .null => some .null
  | .bool b => some (.bool b)
  | .int n => some (.int n)
  | .real _ => none
  | .str s => (s.mapM Utf8.toChar?).map fun cs => .str (String.ofList cs)
  | .list items => (itemsOfPy items).map .list
  | .object fields => (fieldsOfPy fields).map .object

def itemsOfPy : List (PyJson R) → Option (List Json)
  | [] => some []
  | item :: items => do return (← ofPy item) :: (← itemsOfPy items)

def fieldsOfPy : List (PyStr × PyJson R) → Option (List (String × Json))
  | [] => some []
  | (key, value) :: fields => do
    let name ← key.mapM Utf8.toChar?
    return (String.ofList name, ← ofPy value) :: (← fieldsOfPy fields)

end

mutual

theorem ofPy_toPy : (document : Json) → ofPy (document.toPy : PyJson R) = some document
  | .null => rfl
  | .bool _ => rfl
  | .int _ => rfl
  | .str s => by
    rw [toPy, ofPy, Utf8.ofString, Utf8.mapM_map_ofChar, Option.map_some, String.ofList_toList]
  | .list items => by rw [toPy, ofPy, itemsOfPy_itemsToPy items, Option.map_some]
  | .object fields => by rw [toPy, ofPy, fieldsOfPy_fieldsToPy fields, Option.map_some]

theorem itemsOfPy_itemsToPy : (items : List Json) →
    itemsOfPy (itemsToPy items : List (PyJson R)) = some items
  | [] => rfl
  | item :: items => by
    rw [itemsToPy, itemsOfPy, ofPy_toPy item, itemsOfPy_itemsToPy items]
    rfl

theorem fieldsOfPy_fieldsToPy : (fields : List (String × Json)) →
    fieldsOfPy (fieldsToPy fields : List (PyStr × PyJson R)) = some fields
  | [] => rfl
  | (key, value) :: fields => by
    rw [fieldsToPy, fieldsOfPy, Utf8.ofString, Utf8.mapM_map_ofChar, ofPy_toPy value,
      fieldsOfPy_fieldsToPy fields]
    simp

end

end Decoding

section Reading

theorem joined_ofString (s : String) : PyJson.Joined (Utf8.ofString s) := by
  have hlow : ∀ c : Char, PyJson.isLow (Utf8.ofChar c).1 = false := by
    intro c
    have hvalid := c.valid
    have hvalue : (Utf8.ofChar c).1 = c.toNat := rfl
    unfold UInt32.isValidChar Nat.isValidChar at hvalid
    simp only [PyJson.isLow, hvalue, Char.toNat, Bool.and_eq_false_iff, decide_eq_false_iff_not]
    omega
  rw [PyJson.Joined, Utf8.ofString, List.isChain_map]
  apply List.Pairwise.isChain
  apply List.pairwise_of_forall
  intro a b hpair
  rw [hlow b] at hpair
  exact Bool.false_ne_true hpair.2

/-- What can be written can be read back. -/
theorem legible_toPy {document : Json} (h : document.DistinctKeys) {depth : Nat}
    (hwritable : (document.toPy : PyJson R).writable depth) :
    PyJson.Legible depth (document.toPy : PyJson R) := by
  induction h generalizing depth with
  | null => exact .null
  | bool b => exact .bool b
  | int n => exact .int hwritable
  | str s => exact .str (joined_ofString s)
  | @list items _ ih =>
    rw [toPy, PyJson.writable, Bool.and_eq_true, decide_eq_true_eq,
      PyJson.itemsWritable_iff] at hwritable
    obtain ⟨hpos, hitems⟩ := hwritable
    obtain ⟨depth, rfl⟩ := Nat.exists_eq_add_of_le' hpos
    rw [itemsToPy_eq_map] at hitems
    rw [toPy, itemsToPy_eq_map]
    apply PyJson.Legible.list
    intro item hitem
    obtain ⟨old, hold, rfl⟩ := List.mem_map.mp hitem
    exact ih old hold (hitems _ hitem)
  | @object fields hkeys _ ih =>
    rw [toPy, PyJson.writable, Bool.and_eq_true, decide_eq_true_eq,
      PyJson.fieldsWritable_iff] at hwritable
    obtain ⟨hpos, hfields⟩ := hwritable
    obtain ⟨depth, rfl⟩ := Nat.exists_eq_add_of_le' hpos
    rw [fieldsToPy_eq_map] at hfields
    rw [toPy, fieldsToPy_eq_map]
    refine .object ?_ ?_ ?_
    · have hnames := hkeys.map Utf8.ofString_strictMono.injective
      rw [List.map_map] at hnames
      rw [Dict.keys, List.map_map]
      exact hnames
    · intro field hfield
      obtain ⟨old, -, rfl⟩ := List.mem_map.mp hfield
      exact joined_ofString old.1
    · intro field hfield
      obtain ⟨old, hold, rfl⟩ := List.mem_map.mp hfield
      exact ih old hold (hfields _ hfield)

variable {floats : Floats R} {constants : Bool}

variable (floats constants) in
/-- The text of a document is read as the document in the order of its keys. -/
theorem loads_dumps {document : Json} (h : document.DistinctKeys) {depth : Nat}
    (hwritable : (document.toPy : PyJson R).writable depth) {readDepth : Nat}
    (hdepth : depth ≤ readDepth) :
    PyJson.loads floats constants readDepth (dumps document).toList =
      some (document.sortKeys.toPy : PyJson R) := by
  have hlegible := ((legible_toPy (R := R) h hwritable).mono hdepth).sortKeys
  rw [sortKeys_toPy] at hlegible
  rw [dumps, String.toList_ofList, ← write_toPy floats]
  exact PyJson.loads_write hlegible

end Reading

end Json

end Cygnus
