import Spreadsheet.Address.Link
import Std.Data.TreeMap
/-!
# Sources of linked values

The cells of other tables are asked for in batches, all the links of one formula
at a time. A fixed table of values answers each link by itself.
-/

namespace Spreadsheet

/-- Answers a batch of distinct links, given in order: for each what the other table has,
if anything. -/
abbrev LinkSource := (batch : List Link) → Link → Option String

/-- The source that knows no other table. -/
def LinkSource.none : LinkSource := fun _ _ => .none

/-- Fixed values of links. -/
structure LinkTable where
  values : Std.TreeMap Link String

namespace LinkTable

/-- The table without values. -/
def empty : LinkTable := ⟨∅⟩

/-- The table with another value for one link. -/
def insert (t : LinkTable) (l : Link) (value : String) : LinkTable := ⟨t.values.insert l value⟩

/-- The table with the given values. Of two values of one link the later one counts. -/
def ofList (rows : List (Link × String)) : LinkTable :=
  rows.foldl (fun t (l, value) => t.insert l value) empty

/-- The number of links that have a value. -/
def size (t : LinkTable) : Nat := t.values.size

/-- The value of a link. -/
def get? (t : LinkTable) (l : Link) : Option String := t.values[l]?

/-- The table as a source of linked values. -/
def source (t : LinkTable) : LinkSource := fun _ l => t.get? l

end LinkTable

end Spreadsheet
