import Spreadsheet.Address.Cell
import Spreadsheet.Unicode.CharacterClass
/-!
# Links to other tables

A link names a cell of another table, such as `Sales 2024:B3`. Links are
ordered by the name of the table, then by the cell.
-/

namespace Spreadsheet

/-- A cell of the table with the given name. -/
structure Link where
  table : String
  cell : Cell
  deriving DecidableEq

namespace Link

/-- By table name, code point by code point, then by cell. -/
instance : Ord Link := ⟨compareLex (compareOn table) (compareOn cell)⟩

instance : Std.TransOrd Link :=
  inferInstanceAs (Std.TransCmp (compareLex (compareOn table) (compareOn cell)))

instance : Std.LawfulEqOrd Link where
  eq_of_compare {a b} h := by
    have ⟨ht, hc⟩ := compareLex_eq_eq.1 h
    cases a; cases b
    simp_all [compareOn, Std.LawfulEqCmp.compare_eq_iff_eq]

/-- The text of the link. -/
def text (l : Link) : String := l.table ++ ":" ++ l.cell.text

/-- The character may stand in the name of a table. -/
def isNameCharacter (c : Char) : Bool :=
  Unicode.isIdentifierCharacter c || Unicode.isWhitespace c

/-- The link that a text denotes: a name, a colon and an address. White space around
the name is no part of it. -/
def ofText? (text : List Char) : Option Link :=
  match text.dropWhile isNameCharacter with
  | ':' :: address => do
    let table := Unicode.trim (text.takeWhile isNameCharacter)
    let cell ← Cell.ofText? address
    if table.isEmpty then none else some ⟨String.ofList table, cell⟩
  | _ => none

/-- The link that a text denotes, or the reason why it denotes none. -/
def ofText (text : String) : Except AddressError Link :=
  match ofText? text.toList with
  | some l => .ok l
  | none => .error (.malformedLink text)

end Link

end Spreadsheet
