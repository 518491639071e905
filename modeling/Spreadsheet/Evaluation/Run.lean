import Spreadsheet.Evaluation.Arithmetic
/-!
# Runs

Evaluation computes a value and leaves a trace: which cells the formula at hand
has read, whether its value is volatile, and what happened on the way. A run
may also change a state, in which the values of formula cells are remembered.

The trace of a run is what the run itself adds, so that the trace of two runs
in a row is the trace of the one followed by that of the other.
-/

namespace Spreadsheet

/-- Something that happened during evaluation. -/
inductive Event where
  /-- A failure arose, or was met again in a cell that a formula refers to. -/
  | reported (f : Failure)
  /-- The values of links were asked for, all those of one formula together. -/
  | resolved (batch : List Link)
  /-- The evaluation of a formula cell began. -/
  | opened (c : Cell)
  /-- The evaluation of a formula cell ended. -/
  | closed (c : Cell) (value : Value) (reads : List Cell) (volatile : Bool)
  deriving DecidableEq

/-- What a run leaves behind. -/
structure Trace where
  /-- The cells that the formula at hand has read, in order. -/
  reads : List Cell
  /-- The value of the formula at hand depends on more than the cells it has read. -/
  volatile : Bool
  events : List Event

namespace Trace

/-- The trace of a run in which nothing happens. -/
def empty : Trace := ⟨[], false, []⟩

/-- One trace after another. -/
def append (t u : Trace) : Trace :=
  ⟨t.reads ++ u.reads, t.volatile || u.volatile, t.events ++ u.events⟩

instance : Append Trace := ⟨append⟩

theorem append_def (t u : Trace) :
    t ++ u = ⟨t.reads ++ u.reads, t.volatile || u.volatile, t.events ++ u.events⟩ := rfl

theorem empty_append (t : Trace) : empty ++ t = t := by simp [append_def, empty]

theorem append_empty (t : Trace) : t ++ empty = t := by simp [append_def, empty]

theorem append_assoc (t u v : Trace) : t ++ u ++ v = t ++ (u ++ v) := by
  simp [append_def, Bool.or_assoc]

end Trace

/-- A computation with state `σ` that leaves a trace. -/
def Run (σ α : Type) : Type := σ → α × Trace × σ

namespace Run
variable {σ α β : Type}

/-- The result of a run in which nothing happens. -/
def pure (a : α) : Run σ α := fun s => (a, .empty, s)

/-- One run after another, which depends on the result of the first. -/
def bind (x : Run σ α) (f : α → Run σ β) : Run σ β := fun s =>
  let (a, t, s) := x s
  let (b, u, s) := f a s
  (b, t ++ u, s)

instance : Monad (Run σ) where
  pure := Run.pure
  bind := Run.bind

theorem bind_pure (x : Run σ α) : bind x pure = x := by
  funext s
  show ((x s).1, (x s).2.1 ++ Trace.empty, (x s).2.2) = x s
  rw [Trace.append_empty]

theorem pure_bind (a : α) (f : α → Run σ β) : bind (pure a) f = f a := by
  funext s
  show ((f a s).1, Trace.empty ++ (f a s).2.1, (f a s).2.2) = f a s
  rw [Trace.empty_append]

theorem bind_assoc {γ : Type} (x : Run σ α) (f : α → Run σ β) (g : β → Run σ γ) :
    bind (bind x f) g = bind x fun a => bind (f a) g := by
  funext s
  simp only [bind, Trace.append_assoc]

instance : LawfulMonad (Run σ) := LawfulMonad.mk' (Run σ) bind_pure pure_bind bind_assoc

/-- The run in which one thing happens. -/
def emit (e : Event) : Run σ Unit := fun s => ((), ⟨[], false, [e]⟩, s)

/-- The run that makes the value of the formula at hand volatile. -/
def markVolatile : Run σ Unit := fun s => ((), ⟨[], true, []⟩, s)

/-- The run in which the formula at hand reads a cell. -/
def read (c : Cell) : Run σ Unit := fun s => ((), ⟨[c], false, []⟩, s)

/-- Links make the value of the formula at hand volatile. -/
instance : Observer (Run σ) where
  report f := emit (.reported f)
  read := read
  resolve batch := do
    markVolatile
    emit (.resolved batch)

end Run

end Spreadsheet
