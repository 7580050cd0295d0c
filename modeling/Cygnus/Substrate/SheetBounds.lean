import Cygnus.Substrate.SpreadsheetBounds
import Mathlib.Order.Lattice

/-! What the guard of a worksheet counts, and where a reader places its rows and cells. -/

namespace Cygnus.Substrate

open Result

section Placement

/-- Column and row of a cell reference that is valid. -/
def cellPlace (reference : String) : Nat × Nat :=
  (columnNumber (reference.toList.takeWhile Char.isAlpha),
    numeral (reference.toList.dropWhile Char.isAlpha))

/-- A row or cell of the sheet, by its place. -/
structure SheetItem where
  row : Nat
  column : Nat
  referenced : Bool
deriving DecidableEq

/-- The rows and cells where a reader places them, behind `column` of `row`: a reference says where,
and without one it is the next place. -/
def sheetItems (row column : Nat) : List XmlEvent → List SheetItem
  | [] => []
  | .stop :: rest => sheetItems row column rest
  | .start tag attrib :: rest =>
    if localName tag = "row" then
      match attrib.lookup "r" with
      | none => ⟨row + 1, 0, false⟩ :: sheetItems (row + 1) 0 rest
      | some reference =>
        ⟨numeral reference.toList, 0, true⟩ :: sheetItems (numeral reference.toList) 0 rest
    else if localName tag = "c" then
      match attrib.lookup "r" with
      | none => ⟨row, column + 1, false⟩ :: sheetItems row (column + 1) rest
      | some reference =>
        ⟨(cellPlace reference).2, (cellPlace reference).1, true⟩ ::
          sheetItems row (cellPlace reference).1 rest
    else sheetItems row column rest

/-- The elements of a name. -/
def elements (name : String) : List XmlEvent → Nat
  | [] => 0
  | .stop :: rest => elements name rest
  | .start tag _ :: rest => (if localName tag = name then 1 else 0) + elements name rest

/-- The end of the range that a `<dimension>` or `<mergeCell>` refers to. -/
def rangePlace (attrib : List (String × String)) : Nat × Nat :=
  cellPlace (rangeEndpoints ((attrib.lookup "ref").getD "")).2

/-- The largest row that is referred to; a cell without a reference takes the first one. -/
def largestRow : List XmlEvent → Nat
  | [] => 0
  | .stop :: rest => largestRow rest
  | .start tag attrib :: rest =>
    let row :=
      if localName tag = "dimension" ∨ localName tag = "mergeCell" then (rangePlace attrib).2
      else if localName tag = "row" then
        (attrib.lookup "r").elim 0 fun reference => numeral reference.toList
      else if localName tag = "c" then
        (attrib.lookup "r").elim 1 fun reference => (cellPlace reference).2
      else 0
    max row (largestRow rest)

/-- The largest column that is referred to, or counted at a cell without a reference; `counted` are the
cells of the row so far. -/
def largestColumn (counted : Nat) : List XmlEvent → Nat
  | [] => 0
  | .stop :: rest => largestColumn counted rest
  | .start tag attrib :: rest =>
    if localName tag = "dimension" ∨ localName tag = "mergeCell" then
      max (rangePlace attrib).1 (largestColumn counted rest)
    else if localName tag = "row" then largestColumn 0 rest
    else if localName tag = "c" then
      max ((attrib.lookup "r").elim (counted + 1) fun reference => (cellPlace reference).1)
        (largestColumn (counted + 1) rest)
    else largestColumn counted rest

/-- The rows that the guard counts. -/
def countedRows (events : List XmlEvent) : Nat := max (elements "row" events) (largestRow events)

end Placement

section Counting

variable {guard : SheetGuard} {s s' : SheetScan} {attrib : List (String × String)}
  {events : List XmlEvent} {reference name : String}

theorem spreadsheetCellPosition_ok {place : Nat × Nat}
    (h : spreadsheetCellPosition reference = .ok place) : place = cellPlace reference := by
  simp only [spreadsheetCellPosition, bind_ok, pure_ok] at h
  obtain ⟨-, -, -, -, rfl⟩ := h
  rfl

theorem spreadsheetRangeExtent_ok {place : Nat × Nat}
    (h : spreadsheetRangeExtent reference = .ok place) :
    place = cellPlace (rangeEndpoints reference).2 := by
  simp only [spreadsheetRangeExtent, bind_ok, pure_ok] at h
  obtain ⟨-, -, -, -, last, hlast, -, -, rfl⟩ := h
  exact spreadsheetCellPosition_ok hlast

theorem rowReference_ok {row : Nat} (h : rowReference reference = .ok row) :
    row = numeral reference.toList := by
  simp only [rowReference, bind_ok, pure_ok] at h
  obtain ⟨-, -, rfl⟩ := h
  rfl

theorem range_ok (h : s.range attrib = .ok s') :
    s' = s.reach (rangePlace attrib).1 (rangePlace attrib).2 := by
  simp only [SheetScan.range, bind_ok, demand_ok, pure_ok] at h
  obtain ⟨reference, hreference, place, hplace, rfl⟩ := h
  obtain ⟨hlookup, -⟩ := Option.filter_eq_some_iff.mp hreference
  rw [spreadsheetRangeExtent_ok hplace, rangePlace, hlookup, Option.getD_some]

theorem row_ok (h : s.row attrib = .ok s') :
    s' = { s with actualRows := s.actualRows + 1, currentRowCells := 0 }.reach 0
      ((attrib.lookup "r").elim (s.actualRows + 1) fun reference => numeral reference.toList) := by
  unfold SheetScan.row at h
  dsimp only at h
  split at h
  · rename_i hlookup
    rw [hlookup]
    exact (pure_ok.mp h).symm
  · rename_i reference hlookup
    rw [hlookup]
    obtain ⟨row, hrow, hs⟩ := bind_ok.mp h
    rw [Option.elim_some, ← rowReference_ok hrow]
    exact (pure_ok.mp hs).symm

theorem cell_ok (h : s.cell attrib = .ok s') :
    s' = { s with actualCells := s.actualCells + 1, currentRowCells := s.currentRowCells + 1 }.reach
      ((attrib.lookup "r").elim (s.currentRowCells + 1) fun reference => (cellPlace reference).1)
      ((attrib.lookup "r").elim (max s.actualRows 1) fun reference => (cellPlace reference).2) := by
  unfold SheetScan.cell at h
  dsimp only at h
  split at h
  · rename_i hlookup
    rw [hlookup]
    exact (pure_ok.mp h).symm
  · rename_i reference hlookup
    rw [hlookup]
    obtain ⟨place, hplace, hs⟩ := bind_ok.mp h
    rw [Option.elim_some, Option.elim_some, ← spreadsheetCellPosition_ok hplace]
    exact (pure_ok.mp hs).symm

/-- What the start of an element changes, and that the bounds hold after each that counts. -/
theorem element_ok (h : guard.element s name attrib = .ok s') :
    ((name = "dimension" ∨ name = "mergeCell") ∧ s.range attrib = .ok s' ∨
      name = "row" ∧ s.row attrib = .ok s' ∨ name = "c" ∧ s.cell attrib = .ok s') ∧
        guard.enforce s' = .ok () ∨
      (¬(name = "dimension" ∨ name = "mergeCell") ∧ name ≠ "row" ∧ name ≠ "c" ∧ s' = s) := by
  have hchecked : ∀ {x : Except SourceLimitError SheetScan},
      (x >>= fun s => guard.enforce s >>= fun _ => pure s) = .ok s' →
        x = .ok s' ∧ guard.enforce s' = .ok () := by
    intro x hx
    simp only [bind_ok, pure_ok] at hx
    obtain ⟨s₁, hx, u, henforce, rfl⟩ := hx
    exact ⟨hx, henforce⟩
  unfold SheetGuard.element at h
  split at h
  · rename_i hname
    obtain ⟨hs, henforce⟩ := hchecked h
    exact .inl ⟨.inl ⟨hname, hs⟩, henforce⟩
  · rename_i hrange
    split at h
    · rename_i hname
      obtain ⟨hs, henforce⟩ := hchecked h
      exact .inl ⟨.inr (.inl ⟨hname, hs⟩), henforce⟩
    · rename_i hrow
      split at h
      · rename_i hname
        obtain ⟨hs, henforce⟩ := hchecked h
        exact .inl ⟨.inr (.inr ⟨hname, hs⟩), henforce⟩
      · rename_i hcell
        exact .inr ⟨hrange, hrow, hcell, (pure_ok.mp h).symm⟩

/-- What a scan adds up. -/
structure Counts (s s' : SheetScan) (events : List XmlEvent) : Prop where
  rows : s'.actualRows = s.actualRows + elements "row" events
  cells : s'.actualCells = s.actualCells + elements "c" events
  row : s'.sheetRows =
    max (max s.maxRowIndex (s.actualRows + elements "row" events)) (largestRow events)
  column : s'.maxColumnIndex = max s.maxColumnIndex (largestColumn s.currentRowCells events)

theorem scanSheet_counts (h : scanSheet guard s events = .ok s') : Counts s s' events := by
  induction events generalizing s with
  | nil =>
    obtain rfl := pure_ok.mp h
    exact ⟨rfl, rfl, by simp [SheetScan.sheetRows, elements, largestRow, max_comm],
      by simp [largestColumn]⟩
  | cons event rest ih =>
    cases event with
    | stop =>
      obtain ⟨hrows, hcells, hrow, hcolumn⟩ := ih h
      exact ⟨hrows, hcells, hrow, hcolumn⟩
    | start tag attrib =>
      rw [scanSheet] at h
      obtain ⟨-, -, h⟩ := bind_ok.mp h
      obtain ⟨s₁, helement, h⟩ := bind_ok.mp h
      obtain ⟨hrows, hcells, hrow, hcolumn⟩ := ih h
      simp only [SheetScan.sheetRows] at hrow
      rcases element_ok helement with ⟨⟨hname, hs⟩ | ⟨hname, hs⟩ | ⟨hname, hs⟩, -⟩ |
        ⟨hrange, hnotRow, hnotCell, rfl⟩
      · obtain rfl := range_ok hs
        have hnotRow : localName tag ≠ "row" := by rcases hname with h | h <;> rw [h] <;> decide
        have hnotCell : localName tag ≠ "c" := by rcases hname with h | h <;> rw [h] <;> decide
        simp only [SheetScan.reach] at hrows hcells hrow hcolumn
        refine ⟨?_, ?_, ?_, ?_⟩
        · rw [hrows, elements, if_neg hnotRow, Nat.zero_add]
        · rw [hcells, elements, if_neg hnotCell, Nat.zero_add]
        · rw [SheetScan.sheetRows, hrow, elements, if_neg hnotRow, largestRow, if_pos hname]
          omega
        · rw [hcolumn, largestColumn, if_pos hname]
          omega
      · obtain rfl := row_ok hs
        have hnotRange : ¬(localName tag = "dimension" ∨ localName tag = "mergeCell") := by
          rw [hname]
          decide
        have hnotCell : localName tag ≠ "c" := by
          rw [hname]
          decide
        simp only [SheetScan.reach] at hrows hcells hrow hcolumn
        refine ⟨?_, ?_, ?_, ?_⟩
        · rw [hrows, elements, if_pos hname]
          omega
        · rw [hcells, elements, if_neg hnotCell, Nat.zero_add]
        · rw [SheetScan.sheetRows, hrow, elements, if_pos hname, largestRow, if_neg hnotRange,
            if_pos hname]
          cases attrib.lookup "r" with
          | none =>
            simp only [Option.elim_none]
            omega
          | some reference =>
            simp only [Option.elim_some]
            omega
        · rw [hcolumn, largestColumn, if_neg hnotRange, if_pos hname]
          omega
      · obtain rfl := cell_ok hs
        have hnotRange : ¬(localName tag = "dimension" ∨ localName tag = "mergeCell") := by
          rw [hname]
          decide
        have hnotRow : localName tag ≠ "row" := by
          rw [hname]
          decide
        simp only [SheetScan.reach] at hrows hcells hrow hcolumn
        refine ⟨?_, ?_, ?_, ?_⟩
        · rw [hrows, elements, if_neg hnotRow, Nat.zero_add]
        · rw [hcells, elements, if_pos hname]
          omega
        · rw [SheetScan.sheetRows, hrow, elements, if_neg hnotRow, largestRow, if_neg hnotRange,
            if_neg hnotRow, if_pos hname]
          cases attrib.lookup "r" with
          | none =>
            simp only [Option.elim_none]
            omega
          | some reference =>
            simp only [Option.elim_some]
            omega
        · rw [hcolumn, largestColumn, if_neg hnotRange, if_neg hnotRow, if_pos hname]
          omega
      · dsimp only at hrows hcells hrow hcolumn
        refine ⟨?_, ?_, ?_, ?_⟩
        · rw [hrows, elements, if_neg hnotRow, Nat.zero_add]
        · rw [hcells, elements, if_neg hnotCell, Nat.zero_add]
        · rw [SheetScan.sheetRows, hrow, elements, if_neg hnotRow, largestRow, if_neg hrange,
            if_neg hnotRow, if_neg hnotCell]
          omega
        · rw [hcolumn, largestColumn, if_neg hrange, if_neg hnotRow, if_neg hnotCell]

/-- The bounds hold after every scan from where they held. -/
theorem scanSheet_within (h : scanSheet guard s events = .ok s') (hs : guard.enforce s = .ok ()) :
    guard.enforce s' = .ok () := by
  induction events generalizing s with
  | nil =>
    obtain rfl := pure_ok.mp h
    exact hs
  | cons event rest ih =>
    cases event with
    | stop => exact ih h hs
    | start tag attrib =>
      rw [scanSheet] at h
      obtain ⟨-, -, h⟩ := bind_ok.mp h
      obtain ⟨s₁, helement, h⟩ := bind_ok.mp h
      refine ih h ?_
      rcases element_ok helement with ⟨-, henforce⟩ | ⟨-, -, -, rfl⟩
      · exact henforce
      · exact hs

/-- What the guard returns for a sheet that it accepts. -/
theorem inspectSpreadsheetXmlBounds_ok {wellFormed : Bool} {bounds : Nat × Nat}
    (h : inspectSpreadsheetXmlBounds guard events wellFormed = .ok bounds)
    (hrows : guard.rowsUsed ≤ guard.limits.maxRows)
    (hcells : guard.cellsUsed ≤ guard.limits.maxCells) :
    bounds = (countedRows events,
      max (elements "c" events) (countedRows events * largestColumn 0 events)) ∧
    guard.rowsUsed + bounds.1 ≤ guard.limits.maxRows ∧
    guard.cellsUsed + bounds.2 ≤ guard.limits.maxCells := by
  simp only [inspectSpreadsheetXmlBounds, bind_ok, pure_ok] at h
  obtain ⟨s, hscan, -, -, -, -, rfl⟩ := h
  have hcounts := scanSheet_counts hscan
  have hempty : guard.enforce {} = .ok () := by
    refine enforceSpreadsheetBounds_ok.mpr (not_or.mpr ⟨?_, ?_⟩)
    · simpa [SheetScan.sheetRows] using hrows
    · simpa [SheetScan.sheetCells] using hcells
  have hwithin := enforceSpreadsheetBounds_ok.mp (scanSheet_within hscan hempty)
  rw [SpreadsheetLimits.Exceeded, not_or, Nat.not_lt, Nat.not_lt] at hwithin
  have hrow : s.sheetRows = countedRows events := by
    rw [hcounts.row, Nat.zero_add, Nat.zero_max, countedRows]
  have hcell : s.sheetCells =
      max (elements "c" events) (countedRows events * largestColumn 0 events) := by
    rw [SheetScan.sheetCells, hcounts.cells, hrow, hcounts.column, Nat.zero_add, Nat.zero_max]
  exact ⟨by rw [hrow, hcell], hwithin⟩

end Counting

section Bounding

variable {events : List XmlEvent} {item : SheetItem}

/-- What is referred to is counted. -/
theorem referenced_counted {row column : Nat} (counted : Nat)
    (h : item ∈ sheetItems row column events) (hreferenced : item.referenced = true) :
    item.row ≤ largestRow events ∧ item.column ≤ largestColumn counted events := by
  induction events generalizing row column counted with
  | nil => cases h
  | cons event rest ih =>
    cases event with
    | stop => exact ih counted h
    | start tag attrib =>
      have hrowMax : ∀ {row column row' : Nat}, item ∈ sheetItems row column rest →
          item.row ≤ max row' (largestRow rest) :=
        fun hlater => (ih 0 hlater).1.trans (le_max_right _ _)
      have hmax : ∀ {row column row' column' counted' : Nat}, item ∈ sheetItems row column rest →
          item.row ≤ max row' (largestRow rest) ∧
            item.column ≤ max column' (largestColumn counted' rest) :=
        fun hlater => ⟨hrowMax hlater, (ih _ hlater).2.trans (le_max_right _ _)⟩
      rw [sheetItems] at h
      rw [largestRow, largestColumn]
      by_cases hrange : localName tag = "dimension" ∨ localName tag = "mergeCell"
      · have hnotRow : localName tag ≠ "row" := by rcases hrange with h | h <;> rw [h] <;> decide
        have hnotCell : localName tag ≠ "c" := by rcases hrange with h | h <;> rw [h] <;> decide
        rw [if_neg hnotRow, if_neg hnotCell] at h
        rw [if_pos hrange, if_pos hrange]
        exact hmax h
      · rw [if_neg hrange, if_neg hrange]
        by_cases hrow : localName tag = "row"
        · rw [if_pos hrow] at h
          rw [if_pos hrow, if_pos hrow]
          cases hlookup : attrib.lookup "r" with
          | none =>
            rw [hlookup] at h
            rcases List.mem_cons.mp h with rfl | hlater
            · cases hreferenced
            · exact ⟨hrowMax hlater, (ih 0 hlater).2⟩
          | some reference =>
            rw [hlookup] at h
            rcases List.mem_cons.mp h with rfl | hlater
            · exact ⟨le_max_left _ _, Nat.zero_le _⟩
            · exact ⟨hrowMax hlater, (ih 0 hlater).2⟩
        · rw [if_neg hrow] at h
          rw [if_neg hrow, if_neg hrow]
          by_cases hcell : localName tag = "c"
          · rw [if_pos hcell] at h
            rw [if_pos hcell, if_pos hcell]
            cases hlookup : attrib.lookup "r" with
            | none =>
              rw [hlookup] at h
              rcases List.mem_cons.mp h with rfl | hlater
              · cases hreferenced
              · exact hmax hlater
            | some reference =>
              rw [hlookup] at h
              rcases List.mem_cons.mp h with rfl | hlater
              · exact ⟨le_max_left _ _, le_max_left _ _⟩
              · exact hmax hlater
          · rw [if_neg hcell] at h
            rw [if_neg hcell, if_neg hcell]
            exact ⟨hrowMax h, (ih counted h).2⟩

/-- The rows without a reference are not placed below what the guard counts. -/
def RowsCounted (events : List XmlEvent) : Prop :=
  ∀ item ∈ sheetItems 0 0 events, item.referenced = false → item.row ≤ countedRows events

/-- The cells without a reference are not placed to the right of what the guard counts. -/
def ColumnsCounted (events : List XmlEvent) : Prop :=
  ∀ item ∈ sheetItems 0 0 events, item.referenced = false → item.column ≤ largestColumn 0 events

/-- The bounds of a sheet hold what a reader builds of it. -/
structure Bounded (guard : SheetGuard) (events : List XmlEvent) (bounds : Nat × Nat) : Prop where
  rows : ∀ item ∈ sheetItems 0 0 events, item.row ≤ bounds.1
  area : ∀ low ∈ sheetItems 0 0 events, ∀ wide ∈ sheetItems 0 0 events,
    low.row * wide.column ≤ bounds.2
  rowsUsed : guard.rowsUsed + bounds.1 ≤ guard.limits.maxRows
  cellsUsed : guard.cellsUsed + bounds.2 ≤ guard.limits.maxCells

/-- The counted rectangle has room to spare: no row is as low as the rows counted, or the cells are as
many as a rectangle around them all. -/
def Slack (events : List XmlEvent) : Prop :=
  (∀ item ∈ sheetItems 0 0 events, item.row < countedRows events) ∨
    ∀ low ∈ sheetItems 0 0 events, ∀ wide ∈ sheetItems 0 0 events,
      low.row * wide.column ≤ elements "c" events

/-- The totals that the loop over the worksheets goes on with are within the limits, so each worksheet
is inspected from such totals. -/
theorem inspectWorksheets_within {limits : SpreadsheetLimits} {maxDepth rows cells : Nat}
    {sheets : List (List XmlEvent × Bool)} {totals : Nat × Nat}
    (h : inspectWorksheets limits maxDepth rows cells sheets = .ok totals)
    (hrows : rows ≤ limits.maxRows) (hcells : cells ≤ limits.maxCells) :
    (totals.1 ≤ limits.maxRows ∧ totals.2 ≤ limits.maxCells) ∧
    ∀ sheet ∈ sheets, ∃ rowsUsed ≤ limits.maxRows, ∃ cellsUsed ≤ limits.maxCells, ∃ bounds,
      inspectSpreadsheetXmlBounds ⟨limits, maxDepth, rowsUsed, cellsUsed⟩ sheet.1 sheet.2 =
        .ok bounds := by
  induction sheets generalizing rows cells with
  | nil =>
    obtain rfl := pure_ok.mp h
    exact ⟨⟨hrows, hcells⟩, by simp⟩
  | cons sheet rest ih =>
    obtain ⟨bounds, hsheet, hrest⟩ := bind_ok.mp h
    obtain ⟨-, hmoreRows, hmoreCells⟩ := inspectSpreadsheetXmlBounds_ok hsheet hrows hcells
    obtain ⟨htotals, hall⟩ := ih hrest hmoreRows hmoreCells
    exact ⟨htotals, List.forall_mem_cons.mpr ⟨⟨rows, hrows, cells, hcells, bounds, hsheet⟩, hall⟩⟩

end Bounding

end Cygnus.Substrate
