import Cygnus.Data.Result

/-! The guards that count the rows and cells of a spreadsheet before a reader builds it. -/

namespace Cygnus.Substrate

open Result

/-- `SourceDocumentLimitError` and `SourceXMLLimitError`. -/
inductive SourceLimitError
  | document (message : String)
  | xml (message : String)
deriving DecidableEq

structure SpreadsheetLimits where
  maxRows : Nat
  maxCells : Nat

def enforceSpreadsheetBounds (rows cells : Nat) (limits : SpreadsheetLimits) :
    Except SourceLimitError Unit := do
  require (rows ≤ limits.maxRows)
    (.document s!"Spreadsheet row count exceeds the limit of {limits.maxRows}")
  require (cells ≤ limits.maxCells)
    (.document s!"Spreadsheet cell count exceeds the limit of {limits.maxCells}")

/-- The rows or the cells are more than the limits allow. -/
def SpreadsheetLimits.Exceeded (limits : SpreadsheetLimits) (rows cells : Nat) : Prop :=
  limits.maxRows < rows ∨ limits.maxCells < cells

theorem enforceSpreadsheetBounds_ok {rows cells : Nat} {limits : SpreadsheetLimits} :
    enforceSpreadsheetBounds rows cells limits = .ok () ↔ ¬limits.Exceeded rows cells := by
  simp [enforceSpreadsheetBounds, bind_ok, SpreadsheetLimits.Exceeded]

theorem enforceSpreadsheetBounds_error {rows cells : Nat} {limits : SpreadsheetLimits} :
    (∃ e, enforceSpreadsheetBounds rows cells limits = .error e) ↔ limits.Exceeded rows cells := by
  cases h : enforceSpreadsheetBounds rows cells limits with
  | ok u => simpa using enforceSpreadsheetBounds_ok.mp h
  | error e =>
    refine ⟨fun _ => ?_, fun _ => ⟨e, rfl⟩⟩
    by_contra hnot
    rw [enforceSpreadsheetBounds_ok.mpr hnot] at h
    cases h

section Csv

abbrev Byte := UInt8

def quote : Byte := 0x22

def comma : Byte := 0x2C

def lineFeed : Byte := 0x0A

def carriageReturn : Byte := 0x0D

structure CsvScan where
  rowCount : Nat := 0
  totalCells : Nat := 0
  maxColumns : Nat := 0
  rowColumns : Nat := 1
  rowHasData : Bool := false
  inQuotes : Bool := false
  atFieldStart : Bool := true

/-- A row that has data is counted when it ends. -/
def CsvScan.endRow (s : CsvScan) (limits : SpreadsheetLimits) : Except SourceLimitError CsvScan :=
  if s.rowHasData then do
    let rowCount := s.rowCount + 1
    let totalCells := s.totalCells + s.rowColumns
    let maxColumns := max s.maxColumns s.rowColumns
    enforceSpreadsheetBounds rowCount (max totalCells (rowCount * maxColumns)) limits
    pure { s with rowCount := rowCount, totalCells := totalCells, maxColumns := maxColumns }
  else pure s

/-- What follows a line break: a line feed right behind a carriage return belongs to it. -/
def afterBreak (byte : Byte) (rest : List Byte) : List Byte :=
  if byte = carriageReturn ∧ rest.head? = some lineFeed then rest.tail else rest

theorem length_afterBreak_le (byte : Byte) (rest : List Byte) :
    (afterBreak byte rest).length ≤ rest.length := by
  unfold afterBreak
  split
  · rw [List.length_tail]
    exact Nat.sub_le _ _
  · exact Nat.le_refl _

/-- The `while` loop over the bytes that are left, and the row that the end of them ends. -/
def scanCsv (limits : SpreadsheetLimits) (s : CsvScan) : List Byte → Except SourceLimitError Unit
  | [] => do
    let _ ← s.endRow limits
  | byte :: rest =>
    if byte = quote then
      if s.inQuotes then
        if rest.head? = some quote then scanCsv limits { s with rowHasData := true } rest.tail
        else scanCsv limits { s with rowHasData := true, inQuotes := false, atFieldStart := false } rest
      else scanCsv limits
        { s with rowHasData := true, inQuotes := s.atFieldStart, atFieldStart := false } rest
    else if byte = comma ∧ s.inQuotes = false then do
      let rowColumns := s.rowColumns + 1
      let projectedColumns := max s.maxColumns rowColumns
      enforceSpreadsheetBounds (s.rowCount + 1)
        (max (s.totalCells + rowColumns) ((s.rowCount + 1) * projectedColumns)) limits
      scanCsv limits { s with rowHasData := true, rowColumns := rowColumns, atFieldStart := true } rest
    else if (byte = lineFeed ∨ byte = carriageReturn) ∧ s.inQuotes = false then do
      let s ← s.endRow limits
      scanCsv limits { s with rowColumns := 1, rowHasData := false, atFieldStart := true }
        (afterBreak byte rest)
    else scanCsv limits { s with rowHasData := true, atFieldStart := false } rest
termination_by bytes => bytes.length
decreasing_by
  all_goals first
  | exact Nat.lt_succ_of_le (length_afterBreak_le _ _)
  | simp only [List.length_tail, List.length_cons]; omega

/-- The limits that are not given are those of the settings. -/
def guardCsvSpreadsheetBounds (defaults : SpreadsheetLimits) (fileData : List Byte)
    (maxRows maxCells : Option Nat) : Except SourceLimitError Unit :=
  scanCsv ⟨maxRows.getD defaults.maxRows, maxCells.getD defaults.maxCells⟩ {} fileData

end Csv

section Worksheet

/-- What the parser of a worksheet reports. -/
inductive XmlEvent
  | start (tag : String) (attrib : List (String × String))
  | stop

/-- `tag.rsplit("}", 1)[-1]`. -/
def localName (tag : String) : String :=
  String.ofList (tag.toList.reverse.takeWhile (· ≠ '\x7d')).reverse

/-- `[1-9][0-9]*`. -/
def isNumeral (cs : List Char) : Bool := cs ≠ [] && cs.all Char.isDigit && cs.head? ≠ some '0'

def numeral (cs : List Char) : Nat := Nat.ofDigitChars 10 cs 0

def columnNumber (letters : List Char) : Nat :=
  letters.foldl (fun column c => column * 26 + (c.toUpper.toNat - 'A'.toNat + 1)) 0

/-- Column and row of a cell reference. -/
def spreadsheetCellPosition (reference : String) : Except SourceLimitError (Nat × Nat) := do
  require (reference.length ≤ 32) (.document "Spreadsheet cell reference is not bounded")
  let letters := reference.toList.takeWhile Char.isAlpha
  let digits := reference.toList.dropWhile Char.isAlpha
  require (letters ≠ [] ∧ isNumeral digits) (.document "Spreadsheet cell reference is not valid")
  pure (columnNumber letters, numeral digits)

/-- The part up to the first colon and the part behind it; the whole text twice when there is none. -/
def rangeEndpoints (reference : String) : String × String :=
  let first := reference.toList.takeWhile (· ≠ ':')
  let last := reference.toList.dropWhile (· ≠ ':')
  (String.ofList first, if last = [] then reference else String.ofList last.tail)

def spreadsheetRangeExtent (reference : String) : Except SourceLimitError (Nat × Nat) := do
  require (reference.length ≤ 65) (.document "Spreadsheet range reference is not bounded")
  let (startColumn, startRow) ← spreadsheetCellPosition (rangeEndpoints reference).1
  let (endColumn, endRow) ← spreadsheetCellPosition (rangeEndpoints reference).2
  require (startColumn ≤ endColumn ∧ startRow ≤ endRow)
    (.document "Spreadsheet range reference is not valid")
  pure (endColumn, endRow)

def rowReference (reference : String) : Except SourceLimitError Nat := do
  require (reference.length ≤ 20 ∧ isNumeral reference.toList)
    (.document "Spreadsheet row reference is not valid")
  pure (numeral reference.toList)

structure SheetScan where
  depth : Nat := 0
  sawRoot : Bool := false
  actualRows : Nat := 0
  actualCells : Nat := 0
  maxRowIndex : Nat := 0
  maxColumnIndex : Nat := 0
  currentRowCells : Nat := 0

namespace SheetScan

def sheetRows (s : SheetScan) : Nat := max s.actualRows s.maxRowIndex

def sheetCells (s : SheetScan) : Nat := max s.actualCells (s.sheetRows * s.maxColumnIndex)

/-- A place of the sheet that is referred to. -/
def reach (s : SheetScan) (column row : Nat) : SheetScan :=
  { s with maxColumnIndex := max s.maxColumnIndex column, maxRowIndex := max s.maxRowIndex row }

/-- `<dimension>` and `<mergeCell>`. -/
def range (s : SheetScan) (attrib : List (String × String)) : Except SourceLimitError SheetScan := do
  let reference ← demand ((attrib.lookup "ref").filter (· ≠ ""))
    (.document "Spreadsheet range reference is not valid")
  let (column, row) ← spreadsheetRangeExtent reference
  pure (s.reach column row)

def row (s : SheetScan) (attrib : List (String × String)) : Except SourceLimitError SheetScan := do
  let s := { s with actualRows := s.actualRows + 1, currentRowCells := 0 }
  match attrib.lookup "r" with
  | none => pure (s.reach 0 s.actualRows)
  | some reference =>
    let row ← rowReference reference
    pure (s.reach 0 row)

def cell (s : SheetScan) (attrib : List (String × String)) : Except SourceLimitError SheetScan := do
  let s := { s with actualCells := s.actualCells + 1, currentRowCells := s.currentRowCells + 1 }
  match attrib.lookup "r" with
  | none => pure (s.reach s.currentRowCells (max s.actualRows 1))
  | some reference =>
    let (column, row) ← spreadsheetCellPosition reference
    pure (s.reach column row)

end SheetScan

/-- What the guard of a sheet is called with. -/
structure SheetGuard where
  limits : SpreadsheetLimits
  maxDepth : Nat
  rowsUsed : Nat
  cellsUsed : Nat

def SheetGuard.enforce (guard : SheetGuard) (s : SheetScan) : Except SourceLimitError Unit :=
  enforceSpreadsheetBounds (guard.rowsUsed + s.sheetRows) (guard.cellsUsed + s.sheetCells) guard.limits

/-- The start of an element; those that shape the sheet are followed by a check of its bounds. -/
def SheetGuard.element (guard : SheetGuard) (s : SheetScan) (name : String)
    (attrib : List (String × String)) : Except SourceLimitError SheetScan :=
  if name = "dimension" ∨ name = "mergeCell" then do
    let s ← s.range attrib
    guard.enforce s
    pure s
  else if name = "row" then do
    let s ← s.row attrib
    guard.enforce s
    pure s
  else if name = "c" then do
    let s ← s.cell attrib
    guard.enforce s
    pure s
  else pure s

def scanSheet (guard : SheetGuard) (s : SheetScan) :
    List XmlEvent → Except SourceLimitError SheetScan
  | [] => pure s
  | .start tag attrib :: rest => do
    let s := { s with sawRoot := true, depth := s.depth + 1 }
    require (s.depth ≤ guard.maxDepth)
      (.xml s!"XML nesting depth exceeds the limit of {guard.maxDepth}")
    let s ← guard.element s (localName tag) attrib
    scanSheet guard s rest
  | .stop :: rest => scanSheet guard { s with depth := s.depth - 1 } rest

/-- `_inspect_spreadsheet_xml_bounds` behind the check of the payload: `wellFormed` tells whether the
parser gets to the end of the events. -/
def inspectSpreadsheetXmlBounds (guard : SheetGuard) (events : List XmlEvent) (wellFormed : Bool) :
    Except SourceLimitError (Nat × Nat) := do
  let s ← scanSheet guard {} events
  require (wellFormed = true) (.xml "XML document is not well-formed")
  require (s.sawRoot = true) (.xml "XML document has no root element")
  pure (s.sheetRows, s.sheetCells)

/-- The worksheets in `_guard_office_archive`, one after the other. -/
def inspectWorksheets (limits : SpreadsheetLimits) (maxDepth totalRows totalCells : Nat) :
    List (List XmlEvent × Bool) → Except SourceLimitError (Nat × Nat)
  | [] => pure (totalRows, totalCells)
  | sheet :: rest => do
    let bounds ← inspectSpreadsheetXmlBounds ⟨limits, maxDepth, totalRows, totalCells⟩ sheet.1 sheet.2
    inspectWorksheets limits maxDepth (totalRows + bounds.1) (totalCells + bounds.2) rest

end Worksheet

end Cygnus.Substrate
