import Cygnus.Data.Dict
import Cygnus.Data.Text

/-! Object storage: a flat map from names to contents, listed and copied by prefix. -/

namespace Cygnus

abbrev Storage := Dict String String

namespace Storage

def read (objects : Storage) (name : String) : Option String :=
  (objects.find? (·.1 = name)).map (·.2)

def UnderPrefix (path name : String) : Prop := path.toList <+: name.toList

instance (path name : String) : Decidable (UnderPrefix path name) :=
  inferInstanceAs (Decidable (_ <+: _))

/-- `list_objects(prefix=..., recursive=True)`. -/
def listObjects (objects : Storage) (path : String) : List (String × String) :=
  objects.filter fun o => UnderPrefix path o.1

def folder (path : String) : String := if "/".toList <:+ path.toList then path else path ++ "/"

/-- The name without the prefix it was listed under. -/
def relative (path name : String) : String := String.ofList (name.toList.drop path.length)

/-- What `copy_prefix` writes: one object where the source is an object, and a folder otherwise. -/
def copies (objects : Storage) (source dest : String) : List (String × String) :=
  match objects.read source with
  | some content => [(dest, content)]
  | none => (objects.listObjects (folder source)).map fun o =>
      (folder dest ++ relative (folder source) o.1, o.2)

theorem underPrefix_append (path rest : String) : UnderPrefix path (path ++ rest) := by
  rw [UnderPrefix, String.toList_append]
  exact List.prefix_append _ _

theorem UnderPrefix.trans {path path' name : String} (h : UnderPrefix path path')
    (h' : UnderPrefix path' name) : UnderPrefix path name := List.IsPrefix.trans h h'

/-- A copy into a folder writes nothing outside of it. -/
theorem underPrefix_copies {objects : Storage} {source dest : String} {o : String × String}
    (hdest : folder dest = dest) (ho : o ∈ copies objects source dest) : UnderPrefix dest o.1 := by
  unfold copies at ho
  split at ho
  · rw [List.mem_singleton.mp ho]
    exact List.prefix_refl _
  · obtain ⟨o, -, rfl⟩ := List.mem_map.mp ho
    rw [hdest]
    exact underPrefix_append _ _

theorem listObjects_set {objects : Storage} {path name content : String}
    (h : ¬ UnderPrefix path name) :
    listObjects (Dict.set name content objects) path = listObjects objects path := by
  induction objects with
  | nil => simp [Dict.set, listObjects, h]
  | cons o objects ih =>
    unfold Dict.set
    split
    · rename_i hname
      simp [listObjects, hname, h]
    · simp only [listObjects, List.filter_cons] at ih ⊢
      rw [ih]

/-- Writes outside a prefix leave the objects under it as they are. -/
theorem listObjects_update {objects : Storage} {path : String} {writes : List (String × String)}
    (h : ∀ o ∈ writes, ¬ UnderPrefix path o.1) :
    listObjects (Dict.update objects writes) path = listObjects objects path := by
  induction writes generalizing objects with
  | nil => rfl
  | cons o writes ih =>
    rw [Dict.update_cons, ih fun o' ho' => h o' (List.mem_cons_of_mem _ ho'),
      listObjects_set (h o List.mem_cons_self)]

section Segments

variable {α : Type*} {a b r s : List α} {c : α}

/-- The segment before the first separator is read off a prefix. -/
theorem segment_of_prefix (ha : c ∉ a) (hb : c ∉ b) (h : a ++ c :: r <+: b ++ c :: s) :
    a = b ∧ r <+: s := by
  induction a generalizing b with
  | nil =>
    cases b with
    | nil => exact ⟨rfl, (List.cons_prefix_cons.mp h).2⟩
    | cons y b => exact absurd (List.cons_prefix_cons.mp h).1 (List.ne_of_not_mem_cons hb)
  | cons x a ih =>
    cases b with
    | nil => exact absurd (List.cons_prefix_cons.mp h).1.symm (List.ne_of_not_mem_cons ha)
    | cons y b =>
      obtain ⟨rfl, htail⟩ := List.cons_prefix_cons.mp h
      obtain ⟨rfl, hrest⟩ :=
        ih (List.not_mem_of_not_mem_cons ha) (List.not_mem_of_not_mem_cons hb) htail
      exact ⟨rfl, hrest⟩

end Segments

end Storage

end Cygnus
