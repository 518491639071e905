import Spreadsheet.Address.Cell
import Std.Data.TreeSet
/-!
# Dependencies between cells

A cell depends on the cells that its formula has read, its precedents. Both
directions are kept, so that each is found at once. A change of a cell spreads
to its dependents, to theirs, and so on.
-/

namespace Spreadsheet

/-- A relation between cells, as the set of related cells for each cell that has any. -/
abbrev CellRelation := Std.TreeMap Cell (Std.TreeSet Cell)

namespace CellRelation

/-- The cells that are related to `c`. -/
def related (r : CellRelation) (c : Cell) : Std.TreeSet Cell := r.getD c ∅

/-- Relates `d` to `c`. -/
def relate (r : CellRelation) (c d : Cell) : CellRelation := r.insert c ((related r c).insert d)

/-- Relates `d` to `c` no longer. -/
def unrelate (r : CellRelation) (c d : Cell) : CellRelation :=
  let rest := (related r c).erase d
  if rest.isEmpty then r.erase c else r.insert c rest

end CellRelation

/-- Which cells read which. -/
structure DependencyGraph where
  /-- The cells that read each cell. -/
  dependentsOf : CellRelation
  /-- The cells that each cell reads. -/
  precedentsOf : CellRelation

namespace DependencyGraph

/-- No cell reads another. -/
def empty : DependencyGraph := ⟨∅, ∅⟩

/-- The cells that read `c`, in order. -/
def dependents (g : DependencyGraph) (c : Cell) : List Cell := (g.dependentsOf.related c).toList

/-- The cells that `c` reads, in order. -/
def precedents (g : DependencyGraph) (c : Cell) : List Cell := (g.precedentsOf.related c).toList

/-- Takes note that `dependent` reads `precedent`. -/
def add (g : DependencyGraph) (precedent dependent : Cell) : DependencyGraph where
  dependentsOf := g.dependentsOf.relate precedent dependent
  precedentsOf := g.precedentsOf.relate dependent precedent

/-- Forgets what `c` reads. -/
def clearPrecedents (g : DependencyGraph) (c : Cell) : DependencyGraph where
  dependentsOf := (g.precedents c).foldl (fun r p => r.unrelate p c) g.dependentsOf
  precedentsOf := g.precedentsOf.erase c

/-- Replaces what `c` reads. -/
def setPrecedents (g : DependencyGraph) (c : Cell) (precedents : List Cell) : DependencyGraph :=
  precedents.foldl (fun g p => g.add p c) (g.clearPrecedents c)

/-- The cells of a list that read `c`. -/
def readers (g : DependencyGraph) (c : Cell) (cells : List Cell) : List Cell :=
  cells.filter fun d => (g.dependentsOf.related c).contains d

/-- The cells of a list that do not read `c`. -/
def others (g : DependencyGraph) (c : Cell) (cells : List Cell) : List Cell :=
  cells.filter fun d => !(g.dependentsOf.related c).contains d

theorem length_readers_add_length_others (g : DependencyGraph) (c : Cell) (cells : List Cell) :
    (g.readers c cells).length + (g.others c cells).length = cells.length := by
  induction cells with
  | nil => rfl
  | cons d cells ih =>
    simp only [readers, others, List.filter_cons] at ih ⊢
    cases (g.dependentsOf.related c).contains d <;> simp <;> omega

/-- The cells to which a change spreads from those of `queue`, in the order in which it
reaches them, where `unseen` are the cells it has not reached. -/
def spread (g : DependencyGraph) (unseen queue : List Cell) : List Cell :=
  match queue with
  | [] => []
  | c :: queue => c :: g.spread (g.others c unseen) (queue ++ g.readers c unseen)
termination_by unseen.length + queue.length
decreasing_by
  have := g.length_readers_add_length_others c unseen
  simp only [List.length_append, List.length_cons]
  omega

/-- The cell and all that depend on it, directly or not, nearer ones first. -/
def invalidationSet (g : DependencyGraph) (c : Cell) : List Cell :=
  g.spread (g.precedentsOf.keys.filter (· ≠ c)) [c]

end DependencyGraph

end Spreadsheet
