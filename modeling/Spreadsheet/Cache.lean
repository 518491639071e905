import Spreadsheet.DependencyGraph
import Spreadsheet.Evaluation
/-!
# Remembered values

The values of formula cells are remembered until a cell that they depend on
changes. What each formula has read is recorded when its value is stored, and a
change drops the values of all cells that depend on the changed one. Volatile
values are never remembered, but what they read is.
-/

namespace Spreadsheet

/-- How well the cache has served. -/
structure CacheStatistics where
  evaluations : Nat
  hits : Nat
  /-- How many values are remembered now. -/
  cached : Nat
  /-- How many values were dropped after changes. -/
  invalidations : Nat
  deriving DecidableEq, Repr

/-- The remembered values of formula cells and what those cells have read. -/
structure Cache where
  values : Std.TreeMap Cell Value
  graph : DependencyGraph
  evaluations : Nat
  hits : Nat
  invalidations : Nat

namespace Cache

/-- A cache that has never been used. -/
def empty : Cache := ⟨∅, .empty, 0, 0, 0⟩

/-- The remembered value of a cell; finding one is counted. -/
def lookup (c : Cell) (cache : Cache) : Option Value × Cache :=
  match cache.values[c]? with
  | some value => (some value, { cache with hits := cache.hits + 1 })
  | none => (none, cache)

/-- Takes note of an evaluated cell. -/
def store (c : Cell) (value : Value) (reads : List Cell) (volatile : Bool) (cache : Cache) :
    Cache :=
  { cache with
    values := if volatile then cache.values.erase c else cache.values.insert c value
    graph := cache.graph.setPrecedents c reads
    evaluations := cache.evaluations + 1 }

/-- The cache as a memory for evaluation. -/
def memo : Memo Cache := ⟨lookup, store⟩

/-- The cell has a remembered value. -/
def isCached (cache : Cache) (c : Cell) : Bool := cache.values.contains c

/-- Drops what depends on a cell that changes, and what that cell has read. Also answers
how many values were dropped. -/
def invalidate (c : Cell) (cache : Cache) : Nat × Cache :=
  let stale := cache.graph.invalidationSet c
  let dropped := stale.countP cache.isCached
  (dropped,
    { cache with
      values := stale.foldl (fun values d => values.erase d) cache.values
      graph := cache.graph.clearPrecedents c
      invalidations := cache.invalidations + dropped })

/-- The cells that have read a cell, in order. -/
def dependents (cache : Cache) (c : Cell) : List Cell := cache.graph.dependents c

/-- Forgets all values and what was read, but not how well the cache has served. -/
def clear (cache : Cache) : Cache := { cache with values := ∅, graph := .empty }

/-- How well the cache has served. -/
def statistics (cache : Cache) : CacheStatistics :=
  ⟨cache.evaluations, cache.hits, cache.values.size, cache.invalidations⟩

end Cache

end Spreadsheet
