import Spreadsheet.Address.Cell
/-!
# Grids

A grid has a fixed number of rows and columns and keeps the text of each cell
as it was written. An empty text is no content. A text that starts with an
equals sign is a formula.
-/

namespace Spreadsheet

/-- The text is a formula, well formed or not. -/
def isFormula (content : String) : Bool := content.toList.head? = some '='

/-- The text shown in place of a value that could not be computed. -/
def errorMark : String := "#####"

/-- A bounded grid of cell contents. -/
structure Grid where
  rows : Nat
  columns : Nat
  contents : Std.TreeMap Cell String
  rows_le : rows ≤ rowLimit
  columns_le : columns ≤ columnLimit

namespace Grid

/-- An empty grid. -/
def ofSize (rows columns : Nat) : Except AddressError Grid :=
  if h : (0 < rows ∧ rows ≤ rowLimit) ∧ (0 < columns ∧ columns ≤ columnLimit) then
    .ok ⟨rows, columns, ∅, h.1.2, h.2.2⟩
  else .error (.dimensions rows columns)

/-- The row and column lie in the grid. -/
def inBounds (g : Grid) (row column : Nat) : Bool := row < g.rows && column < g.columns

/-- The cell lies in the grid. -/
def contains (g : Grid) (c : Cell) : Bool := g.inBounds c.row c.column

/-- The cell in the given row and column of the grid. -/
def cellAt (g : Grid) (row column : Nat) : Except AddressError Cell :=
  if hr : row < g.rows then
    if hc : column < g.columns then
      .ok {
        row := ⟨row, Nat.lt_of_lt_of_le hr g.rows_le⟩
        column := ⟨column, Nat.lt_of_lt_of_le hc g.columns_le⟩ }
    else .error (.columnOutside column g.columns)
  else .error (.rowOutside row g.rows)

/-- The cell of the grid that a text addresses. -/
def locate (g : Grid) (address : String) : Except AddressError Cell := do
  let c ← Cell.ofText address
  g.cellAt c.row c.column

/-- The content of a cell; empty outside the grid. -/
def content (g : Grid) (c : Cell) : String := g.contents.getD c ""

/-- The content in a row and column; empty outside the grid. -/
def contentAt (g : Grid) (row column : Nat) : String :=
  match g.cellAt row column with
  | .ok c => g.content c
  | .error _ => ""

/-- The grid with another content in one cell. -/
def put (g : Grid) (c : Cell) (content : String) : Grid :=
  if content.isEmpty then { g with contents := g.contents.erase c }
  else { g with contents := g.contents.insert c content }

/-- Writes to the cell in the given row and column. -/
def setAt (g : Grid) (row column : Nat) (content : String) : Except AddressError Grid := do
  let c ← g.cellAt row column
  return g.put c content

/-- Writes to the cell that a text addresses. -/
def set (g : Grid) (address content : String) : Except AddressError Grid := do
  let c ← g.locate address
  return g.put c content

/-- The content of the cell that a text addresses. -/
def get (g : Grid) (address : String) : Except AddressError String := do
  let c ← g.locate address
  return g.content c

/-- The grid without its contents. -/
def clear (g : Grid) : Grid := { g with contents := ∅ }

/-- The cells with a content, row by row. -/
def cells (g : Grid) : List (Cell × String) := g.contents.toList

/-- The number of cells with a content. -/
def count (g : Grid) : Nat := g.contents.size

/-- All cells of a row, from left to right. -/
def rowCells (g : Grid) (row : Nat) : List Cell :=
  (List.range g.columns).filterMap fun column => (g.cellAt row column).toOption

/-- All cells, row by row. -/
def cellRows (g : Grid) : List (List Cell) := (List.range g.rows).map g.rowCells

end Grid

end Spreadsheet
