import Cygnus.Data.Dict

/-! Paths as `pathlib` joins them, and the files they lead to on a disk without links. -/

namespace Cygnus.Posix

/-- The names on the way from the root. -/
abbrev Path := List (List Char)

/-- The names in a text: `pathlib` drops the empty ones and `.`. -/
def parts (s : List Char) : Path := (s.splitOn '/').filter fun name => name ≠ [] && name ≠ ['.']

/-- `root / s`, where an absolute `s` replaces the root. -/
def join (root : Path) (s : List Char) : Path :=
  if s.head? = some '/' then parts s else root ++ parts s

/-- Directories and files; `admits` says which names a file can bear. -/
structure Disk (α : Type*) where
  admits : List Char → Bool
  dirs : List Path
  files : Dict Path α
  apart : ∀ place ∈ files.keys, place ∉ dirs

namespace Disk

variable {α : Type*} (disk : Disk α)

/-- The directory reached from `start`, through directories that exist. -/
def walk (start : Path) : Path → Option Path
  | [] => some start
  | name :: rest =>
    if name = ['.', '.'] then walk start.dropLast rest
    else if start ++ [name] ∈ disk.dirs then walk (start ++ [name]) rest
    else none

/-- The place of the file that a path names. -/
def locate (path : Path) : Option Path :=
  path.getLast?.bind fun name =>
    if name = ['.', '.'] ∨ disk.admits name = false then none
    else (disk.walk [] path.dropLast).map (· ++ [name])

def read (path : Path) : Option α :=
  (disk.locate path).bind fun place => disk.files.lookup place

/-- A file is made or overwritten; a directory is not. -/
def write (path : Path) (content : α) : Option (Disk α) :=
  match disk.locate path with
  | none => none
  | some place =>
    if hdir : place ∈ disk.dirs then none
    else some { disk with
      files := disk.files.set place content
      apart := by
        intro other hother
        rcases (Dict.mem_keys_set place other content disk.files).mp hother with rfl | hold
        · exact hdir
        · exact disk.apart other hold }

end Disk

section Laws

variable {α : Type*} {disk disk' : Disk α} {root path : Path} {s name : List Char}

theorem parts_of_name (hslash : '/' ∉ s) (hlong : 2 ≤ s.length) : parts s = [s] := by
  have hne : s ≠ [] := by
    rintro rfl
    exact absurd hlong (by decide)
  have hdot : s ≠ ['.'] := by
    rintro rfl
    exact absurd hlong (by decide)
  rw [parts, List.splitOn_eq_singleton hslash]
  simp [hne, hdot]

/-- A name is looked for in the root itself. -/
theorem join_of_name (hslash : '/' ∉ s) (hlong : 2 ≤ s.length) : join root s = root ++ [s] := by
  have hrelative : s.head? ≠ some '/' := fun hhead => hslash (List.mem_of_head? hhead)
  rw [join, if_neg hrelative, parts_of_name hslash hlong]

/-- A file's place ends in the name it was asked for by. -/
theorem Disk.getLast?_locate {place : Path} (h : disk.locate path = some place) :
    place.getLast? = path.getLast? := by
  rw [Disk.locate, Option.bind_eq_some_iff] at h
  obtain ⟨name, hname, h⟩ := h
  split at h
  · cases h
  · rw [Option.map_eq_some_iff] at h
    obtain ⟨reached, -, rfl⟩ := h
    rw [List.getLast?_concat, hname]

theorem Disk.walk_congr (hdirs : disk'.dirs = disk.dirs) (start : Path) :
    (rest : Path) → disk'.walk start rest = disk.walk start rest
  | [] => rfl
  | name :: rest => by
    rw [Disk.walk, Disk.walk, hdirs, walk_congr hdirs, walk_congr hdirs]

theorem Disk.locate_congr (hadmits : disk'.admits = disk.admits) (hdirs : disk'.dirs = disk.dirs)
    (path : Path) : disk'.locate path = disk.locate path := by
  rw [Disk.locate, Disk.locate]
  simp only [hadmits, Disk.walk_congr hdirs]

theorem lookup_set (place : Path) (content : α) (files : Dict Path α) (other : Path) :
    (files.set place content).lookup other =
      if other = place then some content else files.lookup other := by
  have hbeq : (List.instBEq : BEq Path) = instBEqOfDecidableEq := lawful_beq_subsingleton _ _
  rw [hbeq, Dict.lookup_set]

theorem Disk.write_some {content : α} (h : disk.write path content = some disk') :
    ∃ place, disk.locate path = some place ∧ disk'.admits = disk.admits ∧
      disk'.dirs = disk.dirs ∧ disk'.files = disk.files.set place content := by
  unfold Disk.write at h
  split at h
  · cases h
  · rename_i place hplace
    split at h
    · cases h
    · cases h
      exact ⟨place, hplace, rfl, rfl, rfl⟩

/-- A file can be written where a place is found that is no directory. -/
theorem Disk.exists_write_iff {content : α} :
    (∃ disk', disk.write path content = some disk') ↔
      ∃ place, disk.locate path = some place ∧ place ∉ disk.dirs := by
  unfold Disk.write
  cases disk.locate path with
  | none => simp
  | some place => by_cases hdir : place ∈ disk.dirs <;> simp [hdir]

end Laws

end Cygnus.Posix
