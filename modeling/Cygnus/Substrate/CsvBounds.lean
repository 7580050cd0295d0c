import Cygnus.Substrate.SpreadsheetBounds
import Mathlib.Algebra.Order.Ring.Nat

/-! The CSV guard refuses a file exactly when its parsed records are too many or too wide. -/

namespace Cygnus.Substrate

open Result

section Records

/-- The part of a field in quotes behind the quote that opens it, and what follows it. A doubled quote
does not close it. -/
def splitQuoted : List Byte → List Byte × List Byte
  | [] => ([], [])
  | byte :: rest =>
    if byte = quote then
      match rest with
      | [] => ([byte], [])
      | next :: rest' =>
        if next = quote then (byte :: next :: (splitQuoted rest').1, (splitQuoted rest').2)
        else ([byte], next :: rest')
    else (byte :: (splitQuoted rest).1, (splitQuoted rest).2)

/-- A byte that ends no field outside of quotes. -/
def isPlain (byte : Byte) : Bool := byte ≠ comma && byte ≠ lineFeed && byte ≠ carriageReturn

/-- The bytes of the first field, and what follows it: a comma, a line break or nothing. -/
def splitField : List Byte → List Byte × List Byte
  | [] => ([], [])
  | byte :: rest =>
    if byte = quote then
      (byte :: (splitQuoted rest).1 ++ (splitQuoted rest).2.takeWhile isPlain,
        (splitQuoted rest).2.dropWhile isPlain)
    else ((byte :: rest).takeWhile isPlain, (byte :: rest).dropWhile isPlain)

theorem splitQuoted_append (bytes : List Byte) :
    (splitQuoted bytes).1 ++ (splitQuoted bytes).2 = bytes := by
  fun_induction splitQuoted bytes with
  | case1 => rfl
  | case2 => rfl
  | case3 rest' ih => simp [ih]
  | case4 => rfl
  | case5 byte rest hbyte ih => simp [ih]

theorem splitField_append (bytes : List Byte) :
    (splitField bytes).1 ++ (splitField bytes).2 = bytes := by
  unfold splitField
  split
  · rfl
  · split
    · rw [List.append_assoc, List.takeWhile_append_dropWhile, List.cons_append, splitQuoted_append]
    · exact List.takeWhile_append_dropWhile

theorem length_splitField_le (bytes : List Byte) : (splitField bytes).2.length ≤ bytes.length := by
  have hlength := congrArg List.length (splitField_append bytes)
  rw [List.length_append] at hlength
  omega

abbrev Record := List (List Byte)

/-- The records of a file with the bytes of their fields, blank ones included. -/
def csvRecords (bytes : List Byte) : List Record :=
  match _h : (splitField bytes).2 with
  | [] => [[(splitField bytes).1]]
  | byte :: rest =>
    if byte = comma then
      match csvRecords rest with
      | record :: more => ((splitField bytes).1 :: record) :: more
      | [] => [[(splitField bytes).1]]
    else [(splitField bytes).1] :: csvRecords (afterBreak byte rest)
termination_by bytes.length
decreasing_by
  all_goals
    have hle := length_splitField_le bytes
    have hbreak := length_afterBreak_le byte rest
    rw [_h, List.length_cons] at hle
    omega

/-- A record of one field without any bytes. -/
def IsBlank (record : Record) : Prop := record = [[]]

instance : DecidablePred IsBlank := fun record => inferInstanceAs (Decidable (record = [[]]))

structure Shape where
  rows : Nat := 0
  cells : Nat := 0
  widest : Nat := 0

/-- The rows, the fields and the width of the records that are not blank. -/
def csvShape (records : List Record) : Shape :=
  let kept := records.filter fun record => ¬IsBlank record
  ⟨kept.length, (kept.map List.length).sum, (kept.map List.length).foldr max 0⟩

/-- The shape has too many rows, or too many cells, counted alone or as a rectangle. -/
def Shape.Exceeds (shape : Shape) (limits : SpreadsheetLimits) : Prop :=
  limits.Exceeded shape.rows (max shape.cells (shape.rows * shape.widest))

theorem splitField_head {bytes rest : List Byte} {byte : Byte}
    (h : (splitField bytes).2 = byte :: rest) :
    byte = comma ∨ byte = lineFeed ∨ byte = carriageReturn := by
  have hplain : ∀ bytes : List Byte, bytes.dropWhile isPlain = byte :: rest → isPlain byte = false := by
    intro bytes hdrop
    simpa [hdrop] using List.head?_dropWhile_not isPlain bytes
  have hbyte : isPlain byte = false := by
    unfold splitField at h
    split at h
    · cases h
    · split at h
      · exact hplain _ h
      · exact hplain _ h
  simpa [isPlain, or_assoc, Decidable.or_iff_not_imp_left] using hbyte

theorem csvRecords_cons (bytes : List Byte) :
    ∃ field record more, csvRecords bytes = (field :: record) :: more := by
  fun_induction csvRecords bytes with
  | case1 bytes h => exact ⟨_, _, _, rfl⟩
  | case2 bytes rest h record more hrecords ih => exact ⟨_, _, _, rfl⟩
  | case3 bytes rest h hrecords ih => exact ⟨_, _, _, rfl⟩
  | case4 bytes byte rest h hbyte ih => exact ⟨_, _, _, rfl⟩

end Records

section Shapes

namespace Shape

variable {shape : Shape} {limits : SpreadsheetLimits}

def add (shape : Shape) (columns : Nat) : Shape :=
  ⟨shape.rows + 1, shape.cells + columns, max shape.widest columns⟩

def addRecord (shape : Shape) (record : Record) : Shape :=
  if IsBlank record then shape else shape.add record.length

/-- No row, cell or column is lost. -/
structure Le (shape shape' : Shape) : Prop where
  rows : shape.rows ≤ shape'.rows
  cells : shape.cells ≤ shape'.cells
  widest : shape.widest ≤ shape'.widest

theorem Le.exceeds {shape' : Shape} (h : shape.Le shape') (hexceeds : shape.Exceeds limits) :
    shape'.Exceeds limits := by
  have hmul : shape.rows * shape.widest ≤ shape'.rows * shape'.widest :=
    Nat.mul_le_mul h.rows h.widest
  rcases hexceeds with hrows | hcells
  · exact .inl (Nat.lt_of_lt_of_le hrows h.rows)
  · exact .inr (Nat.lt_of_lt_of_le hcells (max_le_max h.cells hmul))

theorem Le.trans {shape' shape'' : Shape} (h : shape.Le shape') (h' : shape'.Le shape'') :
    shape.Le shape'' :=
  ⟨h.rows.trans h'.rows, h.cells.trans h'.cells, h.widest.trans h'.widest⟩

theorem le_add (shape : Shape) (columns : Nat) : shape.Le (shape.add columns) :=
  ⟨Nat.le_succ _, Nat.le_add_right _ _, Nat.le_max_left _ _⟩

theorem add_le_add {columns columns' : Nat} (h : columns ≤ columns') :
    (shape.add columns).Le (shape.add columns') :=
  ⟨Nat.le_refl _, Nat.add_le_add_left h _, max_le_max_left _ h⟩

theorem le_foldl (shape : Shape) (records : List Record) :
    shape.Le (records.foldl addRecord shape) := by
  induction records generalizing shape with
  | nil => exact ⟨Nat.le_refl _, Nat.le_refl _, Nat.le_refl _⟩
  | cons record records ih =>
    refine Le.trans ?_ (ih _)
    unfold addRecord
    split
    · exact ⟨Nat.le_refl _, Nat.le_refl _, Nat.le_refl _⟩
    · exact le_add shape _

theorem foldl_addRecord (shape : Shape) (records : List Record) :
    records.foldl addRecord shape = ⟨shape.rows + (csvShape records).rows,
      shape.cells + (csvShape records).cells, max shape.widest (csvShape records).widest⟩ := by
  induction records generalizing shape with
  | nil => simp [csvShape]
  | cons record records ih =>
    rw [List.foldl_cons, ih, addRecord]
    by_cases hblank : IsBlank record
    · simp [csvShape, hblank]
    · simp [csvShape, hblank, add, Nat.add_assoc, Nat.add_comm 1, max_assoc]

theorem foldl_records (records : List Record) : records.foldl addRecord {} = csvShape records := by
  rw [foldl_addRecord]
  simp

end Shape

end Shapes

section Scanning

variable {limits : SpreadsheetLimits} {shape : Shape} {columns : Nat} {quotes : Bool}

/-- The scan where the `columns`-th field of a record begins. -/
def atField (shape : Shape) (columns : Nat) : CsvScan :=
  ⟨shape.rows, shape.cells, shape.widest, columns, decide (1 < columns), false, true⟩

/-- The scan behind a byte of the `columns`-th field. -/
def inField (shape : Shape) (columns : Nat) (quotes : Bool) : CsvScan :=
  ⟨shape.rows, shape.cells, shape.widest, columns, true, quotes, false⟩

theorem scanCsv_close {rest : List Byte} (h : rest.head? ≠ some quote) :
    scanCsv limits (inField shape columns true) (quote :: rest) =
      scanCsv limits (inField shape columns false) rest := by
  rw [scanCsv]
  simp [inField, h]

/-- Up to the quote that closes the field, or to the end. -/
theorem scanCsv_quoted (bytes : List Byte) : scanCsv limits (inField shape columns true) bytes =
    scanCsv limits (inField shape columns false) (splitQuoted bytes).2 := by
  fun_induction splitQuoted bytes with
  | case1 =>
    rw [scanCsv, scanCsv]
    simp [CsvScan.endRow, inField]
  | case2 => exact scanCsv_close (by simp)
  | case3 rest' ih =>
    rw [scanCsv, if_pos rfl]
    exact ih
  | case4 next rest' hnext => exact scanCsv_close (by simpa using hnext)
  | case5 byte rest hbyte ih =>
    rw [scanCsv, if_neg hbyte, if_neg (by simp [inField]), if_neg (by simp [inField])]
    exact ih

theorem scanCsv_bare (bytes : List Byte) : scanCsv limits (inField shape columns false) bytes =
    scanCsv limits (inField shape columns false) (bytes.dropWhile isPlain) := by
  induction bytes with
  | nil => rfl
  | cons byte rest ih =>
    by_cases hplain : isPlain byte = true
    · rw [List.dropWhile_cons_of_pos hplain, ← ih, scanCsv]
      simp only [isPlain, Bool.and_eq_true, decide_eq_true_iff] at hplain
      obtain ⟨⟨hcomma, hfeed⟩, hreturn⟩ := hplain
      split
      · rfl
      · rw [if_neg (not_and_of_not_left _ hcomma),
          if_neg (not_and_of_not_left _ (not_or.mpr ⟨hfeed, hreturn⟩))]
        rfl
    · rw [List.dropWhile_cons_of_neg hplain]

/-- A field is passed over as the parser splits it off. -/
theorem scanCsv_field (bytes : List Byte) : scanCsv limits (atField shape columns) bytes =
    if (splitField bytes).1 = [] then scanCsv limits (atField shape columns) (splitField bytes).2
    else scanCsv limits (inField shape columns false) (splitField bytes).2 := by
  cases bytes with
  | nil => rfl
  | cons byte rest =>
    unfold splitField
    by_cases hquote : byte = quote
    · subst hquote
      simp only [if_true, List.cons_append, List.cons_ne_nil, if_false]
      rw [scanCsv, if_pos rfl, if_neg (by simp [atField])]
      exact (scanCsv_quoted rest).trans (scanCsv_bare _)
    · simp only [if_neg hquote]
      by_cases hplain : isPlain byte = true
      · rw [List.takeWhile_cons_of_pos hplain, if_neg (List.cons_ne_nil _ _),
          List.dropWhile_cons_of_pos hplain, scanCsv, if_neg hquote]
        simp only [isPlain, Bool.and_eq_true, decide_eq_true_iff] at hplain
        obtain ⟨⟨hcomma, hfeed⟩, hreturn⟩ := hplain
        rw [if_neg (not_and_of_not_left _ hcomma),
          if_neg (not_and_of_not_left _ (not_or.mpr ⟨hfeed, hreturn⟩))]
        exact scanCsv_bare rest
      · rw [List.takeWhile_cons_of_neg hplain, if_pos rfl, List.dropWhile_cons_of_neg hplain]

/-- The scan at the end of the `columns`-th field. -/
def fieldEnd (shape : Shape) (columns : Nat) (data start : Bool) : CsvScan :=
  ⟨shape.rows, shape.cells, shape.widest, columns, data, false, start⟩

theorem exists_fieldEnd (limits : SpreadsheetLimits) (shape : Shape) (columns : Nat)
    (bytes : List Byte) : ∃ start, scanCsv limits (atField shape columns) bytes =
      scanCsv limits (fieldEnd shape columns (decide (1 < columns ∨ (splitField bytes).1 ≠ [])) start)
        (splitField bytes).2 := by
  rw [scanCsv_field]
  split
  · rename_i hempty
    exact ⟨true, by simp [fieldEnd, atField, hempty]⟩
  · rename_i hfield
    exact ⟨false, by simp [fieldEnd, inField, hfield]⟩

end Scanning

section Refusals

variable {limits : SpreadsheetLimits} {shape : Shape} {columns : Nat} {data start : Bool}
  {rest : List Byte} {byte : Byte}

/-- The scan stops with an error. -/
def Refuses (limits : SpreadsheetLimits) (s : CsvScan) (bytes : List Byte) : Prop :=
  ∃ e, scanCsv limits s bytes = .error e

theorem bind_refuses {α : Type} {rows cells : Nat} {f : Unit → Except SourceLimitError α} :
    (∃ e, (enforceSpreadsheetBounds rows cells limits >>= f) = .error e) ↔
      limits.Exceeded rows cells ∨ ∃ e, f () = .error e := by
  by_cases hexceeded : limits.Exceeded rows cells
  · obtain ⟨e, he⟩ := enforceSpreadsheetBounds_error.mpr hexceeded
    rw [he]
    exact iff_of_true ⟨e, rfl⟩ (.inl hexceeded)
  · rw [enforceSpreadsheetBounds_ok.mpr hexceeded, ok_bind]
    exact (or_iff_right hexceeded).symm

theorem endRow_data (shape : Shape) (columns : Nat) (start : Bool) :
    (fieldEnd shape columns true start).endRow limits =
      enforceSpreadsheetBounds (shape.add columns).rows
        (max (shape.add columns).cells ((shape.add columns).rows * (shape.add columns).widest)) limits
      >>= fun _ => pure (fieldEnd (shape.add columns) columns true start) := rfl

theorem refuses_end : Refuses limits (fieldEnd shape columns data start) [] ↔
    data = true ∧ (shape.add columns).Exceeds limits := by
  unfold Refuses
  rw [scanCsv]
  cases data with
  | false => simp [fieldEnd, CsvScan.endRow]
  | true =>
    rw [endRow_data, bind_assoc, bind_refuses]
    simp [Shape.Exceeds]

theorem refuses_break (hbreak : byte = lineFeed ∨ byte = carriageReturn) :
    Refuses limits (fieldEnd shape columns data start) (byte :: rest) ↔
      if data then (shape.add columns).Exceeds limits ∨
        Refuses limits (atField (shape.add columns) 1) (afterBreak byte rest)
      else Refuses limits (atField shape 1) (afterBreak byte rest) := by
  have hquote : byte ≠ quote := by rcases hbreak with rfl | rfl <;> decide
  have hcomma : byte ≠ comma := by rcases hbreak with rfl | rfl <;> decide
  unfold Refuses
  rw [scanCsv, if_neg hquote, if_neg (not_and_of_not_left _ hcomma), if_pos ⟨hbreak, rfl⟩]
  cases data with
  | false => rfl
  | true =>
    rw [endRow_data, bind_assoc, bind_refuses]
    rfl

theorem refuses_comma (hcolumns : 1 ≤ columns) :
    Refuses limits (fieldEnd shape columns data start) (comma :: rest) ↔
      (shape.add (columns + 1)).Exceeds limits ∨ Refuses limits (atField shape (columns + 1)) rest := by
  unfold Refuses
  rw [scanCsv, if_neg (by decide), if_pos ⟨rfl, rfl⟩]
  dsimp only [fieldEnd]
  rw [bind_refuses, atField, decide_eq_true (Nat.lt_succ_of_le hcolumns)]
  rfl

/-- The records from the `columns`-th field of the first of them on, added to those before. -/
def Shape.finish (shape : Shape) (columns : Nat) : List Record → Shape
  | [] => shape
  | record :: more => more.foldl addRecord
    (if columns = 1 ∧ IsBlank record then shape else shape.add (columns - 1 + record.length))

theorem foldl_eq_finish {records : List Record} (h : records ≠ []) :
    records.foldl Shape.addRecord shape = shape.finish 1 records := by
  obtain ⟨record, more, rfl⟩ := List.exists_cons_of_ne_nil h
  rw [List.foldl_cons, Shape.addRecord, Shape.finish]
  simp

/-- A record of one field is blank when nothing of it was seen. -/
theorem finish_singleton (hcolumns : 1 ≤ columns) (field : List Byte) (more : List Record) :
    shape.finish columns ([field] :: more) = more.foldl Shape.addRecord
      (if 1 < columns ∨ field ≠ [] then shape.add columns else shape) := by
  rw [Shape.finish]
  by_cases hseen : 1 < columns ∨ field ≠ []
  · rw [if_pos hseen, if_neg, List.length_singleton, Nat.sub_add_cancel hcolumns]
    rintro ⟨rfl, hblank⟩
    rcases hseen with hlt | hne
    · exact absurd hlt (Nat.lt_irrefl 1)
    · exact hne (List.head_eq_of_cons_eq hblank)
  · obtain ⟨hone, hempty⟩ := not_or.mp hseen
    rw [if_neg hseen, if_pos ⟨by omega, by rw [IsBlank, not_not.mp hempty]⟩]

theorem finish_cons (field : List Byte) {record : Record} (hrecord : record ≠ [])
    (more : List Record) : shape.finish columns ((field :: record) :: more) =
      more.foldl Shape.addRecord (shape.add (columns - 1 + (record.length + 1))) := by
  rw [Shape.finish, if_neg, List.length_cons]
  rintro ⟨-, hblank⟩
  exact hrecord (List.cons_eq_cons.mp hblank).2

theorem refuses_field (limits : SpreadsheetLimits) (shape : Shape) (columns : Nat)
    (bytes : List Byte) : ∃ start, Refuses limits (atField shape columns) bytes ↔
      Refuses limits (fieldEnd shape columns (decide (1 < columns ∨ (splitField bytes).1 ≠ [])) start)
        (splitField bytes).2 := by
  obtain ⟨start, hstart⟩ := exists_fieldEnd limits shape columns bytes
  exact ⟨start, by rw [Refuses, hstart, Refuses]⟩

/-- The scan refuses the rest of a file exactly when it makes the shape exceed the limits. -/
theorem refuses_iff (bytes : List Byte) (hcolumns : 1 ≤ columns) (hshape : ¬shape.Exceeds limits) :
    Refuses limits (atField shape columns) bytes ↔
      (shape.finish columns (csvRecords bytes)).Exceeds limits := by
  obtain ⟨start, hstart⟩ := refuses_field limits shape columns bytes
  fun_induction csvRecords bytes generalizing shape columns start with
  | case1 bytes h =>
    rw [hstart, h, refuses_end, decide_eq_true_iff, finish_singleton hcolumns, List.foldl_nil]
    split
    · rename_i hseen
      exact and_iff_right hseen
    · rename_i hnone
      exact iff_of_false (fun hrefused => hnone hrefused.1) hshape
  | case2 bytes rest record more hrecords h ih =>
    obtain ⟨field, tail, others, hcons⟩ := csvRecords_cons rest
    obtain ⟨rfl, rfl⟩ := List.cons_eq_cons.mp (hrecords.symm.trans hcons)
    obtain ⟨start', hstart'⟩ := refuses_field limits shape (columns + 1) rest
    have hlater := ih (Nat.le_succ_of_le hcolumns) hshape start' hstart'
    have hmore : shape.finish (columns + 1) ((field :: tail) :: more) =
        more.foldl Shape.addRecord (shape.add (columns - 1 + ((field :: tail).length + 1))) := by
      rw [Shape.finish, if_neg (fun hfirst => by omega), Nat.add_sub_cancel, ← Nat.add_assoc,
        Nat.add_right_comm, Nat.sub_add_cancel hcolumns]
    rw [hrecords, hmore] at hlater
    rw [hstart, h, refuses_comma hcolumns, hlater, finish_cons _ (List.cons_ne_nil _ _)]
    refine or_iff_right_of_imp fun hexceeds => ?_
    refine ((Shape.add_le_add ?_).trans (Shape.le_foldl _ more)).exceeds hexceeds
    rw [List.length_cons]
    omega
  | case3 bytes rest hnil h ih =>
    obtain ⟨field, record, more, hcons⟩ := csvRecords_cons rest
    rw [hnil] at hcons
    cases hcons
  | case4 bytes byte rest h hbyte ih =>
    have hbreak : byte = lineFeed ∨ byte = carriageReturn := (splitField_head h).resolve_left hbyte
    obtain ⟨field, record, more, hcons⟩ := csvRecords_cons (afterBreak byte rest)
    rw [hstart, h, refuses_break hbreak, finish_singleton hcolumns,
      foldl_eq_finish (by rw [hcons]; exact List.cons_ne_nil _ _)]
    have hnext : ∀ {shape : Shape}, ¬shape.Exceeds limits →
        (Refuses limits (atField shape 1) (afterBreak byte rest) ↔
          (shape.finish 1 (csvRecords (afterBreak byte rest))).Exceeds limits) := by
      intro shape hshape
      obtain ⟨start', hstart'⟩ := refuses_field limits shape 1 (afterBreak byte rest)
      exact ih (Nat.le_refl 1) hshape start' hstart'
    by_cases hseen : 1 < columns ∨ (splitField bytes).1 ≠ []
    · rw [if_pos (decide_eq_true hseen), if_pos hseen]
      by_cases hexceeds : (shape.add columns).Exceeds limits
      · refine iff_of_true (.inl hexceeds) ?_
        rw [← foldl_eq_finish (by rw [hcons]; exact List.cons_ne_nil _ _)]
        exact (Shape.le_foldl _ _).exceeds hexceeds
      · rw [or_iff_right hexceeds]
        exact hnext hexceeds
    · rw [if_neg (by simpa using hseen), if_neg hseen]
      exact hnext hshape

/-- The guard refuses a file exactly when its records that are not blank are too many, or have too
many fields, counted one by one or as a rectangle. -/
theorem guardCsvSpreadsheetBounds_iff (defaults : SpreadsheetLimits) (fileData : List Byte)
    (maxRows maxCells : Option Nat) :
    (∃ e, guardCsvSpreadsheetBounds defaults fileData maxRows maxCells = .error e) ↔
      (csvShape (csvRecords fileData)).Exceeds
        ⟨maxRows.getD defaults.maxRows, maxCells.getD defaults.maxCells⟩ := by
  have hempty : ∀ limits, ¬({} : Shape).Exceeds limits := by
    intro limits hexceeds
    rcases hexceeds with hrows | hcells
    · exact absurd hrows (Nat.not_lt_zero _)
    · exact absurd hcells (Nat.not_lt_zero _)
  obtain ⟨field, record, more, hcons⟩ := csvRecords_cons fileData
  have hfinish : ({} : Shape).finish 1 (csvRecords fileData) = csvShape (csvRecords fileData) := by
    rw [← foldl_eq_finish (by rw [hcons]; exact List.cons_ne_nil _ _), Shape.foldl_records]
  rw [← hfinish]
  exact refuses_iff fileData (Nat.le_refl 1) (hempty _)

end Refusals

end Cygnus.Substrate
