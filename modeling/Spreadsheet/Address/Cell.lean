import Spreadsheet.Decimal.Basic
import Std.Data.TreeMap
/-!
# Cell addresses

A cell is addressed by a column letter and a row number, such as `B12`. Rows
are counted from one in the text and from zero inside. Addresses are ordered
row by row.
-/

namespace Spreadsheet

/-- The number of columns, one for each letter. -/
def columnLimit : Nat := 26

/-- The number of rows; the last row number fills 32 bits. -/
def rowLimit : Nat := 4294967295

/-- The address of a cell: its row and column, counted from zero. -/
structure Cell where
  row : Fin rowLimit
  column : Fin columnLimit
  deriving DecidableEq

/-- Why a text or a pair of numbers does not address a cell, or a grid cannot be made. -/
inductive AddressError where
  | malformedCell (text : String)
  | malformedLink (text : String)
  | rowOutside (row rows : Nat)
  | columnOutside (column columns : Nat)
  | dimensions (rows columns : Nat)
  deriving DecidableEq

/-- What is said of the error. -/
def AddressError.message : AddressError → String
  | .malformedCell text => "Invalid cell identifier: " ++ text
  | .malformedLink text => "Invalid table reference: " ++ text
  | .rowOutside row rows => s!"Row index {row} out of bounds (rows: {rows})"
  | .columnOutside column columns =>
    s!"Column index {column} out of bounds (columns: {columns})"
  | .dimensions rows columns =>
    s!"Invalid grid dimensions {rows}x{columns} (columns must be 1..={columnLimit}, rows >= 1)"

namespace Cell

/-- Row by row, and by column within a row. -/
instance : Ord Cell := ⟨compareLex (compareOn row) (compareOn column)⟩

instance : Std.TransOrd Cell :=
  inferInstanceAs (Std.TransCmp (compareLex (compareOn row) (compareOn column)))

instance : Std.LawfulEqOrd Cell where
  eq_of_compare {a b} h := by
    have ⟨hr, hc⟩ := compareLex_eq_eq.1 h
    cases a; cases b
    simp_all [compareOn, Std.LawfulEqCmp.compare_eq_iff_eq]

/-- The cell in the given row and column, counted from zero. -/
def ofIndices (row column : Nat) : Except AddressError Cell :=
  if hc : column < columnLimit then
    if hr : row < rowLimit then .ok ⟨⟨row, hr⟩, ⟨column, hc⟩⟩
    else .error (.rowOutside row rowLimit)
  else .error (.columnOutside column columnLimit)

/-- The letter of the cell's column. -/
def letter (c : Cell) : Char := Char.ofNat ('A'.toNat + c.column)

/-- The text of the address: the column letter and the row number. -/
def text (c : Cell) : String := String.ofList (c.letter :: Nat.toDigits 10 (c.row + 1))

/-- The row number that digits denote, if they start with no zero. -/
def readRow? : List Char → Option Nat
  | [] => none
  | d :: digits =>
    if d ≠ '0' && (d :: digits).all Char.isDigit then
      some (Decimal.ofDigits (d :: digits))
    else none

/-- The text has the form of an address: a capital letter and a row number. The row
may be beyond all cells. -/
def isAddress : List Char → Bool
  | [] => false
  | c :: digits => c.isUpper && (readRow? digits).isSome

/-- The cell that a text addresses. -/
def ofText? : List Char → Option Cell
  | [] => none
  | c :: digits => do
    if !c.isUpper then none
    let row ← readRow? digits
    (ofIndices (row - 1) (c.toNat - 'A'.toNat)).toOption

/-- The cell that a text addresses, or the reason why it addresses none. -/
def ofText (text : String) : Except AddressError Cell :=
  match ofText? text.toList with
  | some c => .ok c
  | none => .error (.malformedCell text)

end Cell

end Spreadsheet
