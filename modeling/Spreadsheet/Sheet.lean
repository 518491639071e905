import Spreadsheet.Cache
/-!
# Sheets

A sheet is a grid with its settings, its source of links and its cache. Editing
a cell drops the values that depend on it. Reading changes nothing but the
cache; it is a run on the cache, whose trace holds what was reported.
-/

namespace Spreadsheet

/-- A grid whose formulas are evaluated when they are read. -/
structure Sheet where
  grid : Grid
  options : Options
  links : LinkSource
  cache : Cache

namespace Sheet

/-- A sheet over a grid, with default settings, no links and an empty cache. -/
def ofGrid (grid : Grid) : Sheet := ⟨grid, {}, LinkSource.none, .empty⟩

/-- The sheet with other settings. What was remembered under the old ones is forgotten. -/
def withOptions (options : Options) (s : Sheet) : Sheet :=
  { s with options, cache := s.cache.clear }

/-- The sheet with another source of links. Nothing that depends on links is remembered. -/
def withLinks (links : LinkSource) (s : Sheet) : Sheet := { s with links }

/-! ## Editing -/

/-- Writes to the cell that a text addresses. -/
def set (address content : String) (s : Sheet) : Except AddressError Sheet := do
  let c ← s.grid.locate address
  return { s with grid := s.grid.put c content, cache := (s.cache.invalidate c).2 }

/-- Empties the cell that a text addresses. -/
def clearCell (address : String) (s : Sheet) : Except AddressError Sheet := s.set address ""

/-- Forgets all remembered values. -/
def clearCache (s : Sheet) : Sheet := { s with cache := s.cache.clear }

/-! ## Reading -/

/-- What reading evaluates in. -/
def context (s : Sheet) : Context Cache := ⟨s.grid, s.links, s.options, Cache.memo⟩

/-- What a run on the cache yields, its trace, and the sheet afterwards. -/
def read {α : Type} (run : Run Cache α) (s : Sheet) : α × Trace × Sheet :=
  let (a, trace, cache) := run s.cache
  (a, trace, { s with cache })

/-- The content of the cell that a text addresses. -/
def raw (address : String) (s : Sheet) : Except AddressError String := s.grid.get address

/-- The value of the cell that a text addresses. -/
def value (address : String) (s : Sheet) : Except AddressError (Value × Trace × Sheet) := do
  let c ← s.grid.locate address
  return s.read (s.context.evaluateCell c)

/-- The text shown for the cell that a text addresses. -/
def display (address : String) (s : Sheet) : Except AddressError (String × Trace × Sheet) := do
  let c ← s.grid.locate address
  return s.read (s.context.displayCell c)

/-- The texts shown for all cells, row by row. -/
def displayGrid (s : Sheet) : List (List String) × Trace × Sheet :=
  s.read (s.grid.cellRows.mapM fun row => row.mapM s.context.displayCell)

/-- The value of a content that stands in no cell. -/
def evaluate (content : String) (s : Sheet) : Value × Trace × Sheet :=
  s.read (s.context.evaluate content)

/-- The cell that a text addresses has a remembered value. -/
def isCached (address : String) (s : Sheet) : Except AddressError Bool := do
  return s.cache.isCached (← s.grid.locate address)

/-- The cells that have read the one that a text addresses, in order. -/
def dependents (address : String) (s : Sheet) : Except AddressError (List Cell) := do
  return s.cache.dependents (← s.grid.locate address)

end Sheet

end Spreadsheet
