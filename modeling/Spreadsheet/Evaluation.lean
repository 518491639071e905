import Spreadsheet.Evaluation.Host
import Spreadsheet.Evaluation.Run
/-!
# Evaluation of cells

The cells that a formula refers to are evaluated in turn where they hold
formulas. A cell that is reached again while its own formula is being evaluated
is a failure, and so is a chain of formula cells that is too long.

Values of formula cells may be remembered. What is remembered must not depend
on where evaluation started: a value is volatile if a link or a broken cycle had
a part in it, also through the cells that its formula refers to.
-/

namespace Spreadsheet

/-- The settings of evaluation. -/
structure Options where
  pipeline : Pipeline := .grammar
  /-- Values of formula cells are remembered. -/
  cache : Bool := true
  /-- How many formula cells may be under evaluation at a time. -/
  maxDepth : Nat := 256
  deriving DecidableEq, Repr

/-- A memory for values of formula cells, kept in a state. -/
structure Memo (σ : Type) where
  /-- The remembered value of a cell. -/
  lookup : Cell → σ → Option Value × σ
  /-- Takes note of the value of a cell that was evaluated, of what it read and of
  whether it is volatile. -/
  store : Cell → Value → (reads : List Cell) → (volatile : Bool) → σ → σ

/-- The memory that remembers nothing. -/
def Memo.off {σ : Type} : Memo σ := ⟨fun _ s => (none, s), fun _ _ _ _ s => s⟩

/-- What evaluation works on. -/
structure Context (σ : Type) where
  grid : Grid
  links : LinkSource := LinkSource.none
  options : Options := {}
  memo : Memo σ := Memo.off

namespace Context
variable {σ : Type} (ctx : Context σ)

/-- The memory that the options leave in use. -/
def activeMemo : Memo σ := if ctx.options.cache then ctx.memo else Memo.off

/-! ## Cells -/

/-- The remembered value of a cell, or else the result of `run`. -/
def rememberedOr (c : Cell) (run : Run σ Value) : Run σ Value := fun s =>
  match ctx.activeMemo.lookup c s with
  | (some value, s) => (value, .empty, s)
  | (none, s) => run s

/-- Ends a chain of formula cells. All that is under evaluation becomes volatile, as
each formula passes this on to the one that refers to it. -/
def breakOff (f : Failure) : Run σ Value := do
  Run.markVolatile
  Evaluation.fail f

/-- Evaluates the formula of a cell by `run` and takes note of its value. What the formula
read is no read of the formula that refers to the cell. -/
def visit (c : Cell) (run : Run σ Value) : Run σ Value := fun s =>
  let (value, trace, s) := run s
  let closed := .closed c value trace.reads trace.volatile
  (value, ⟨[], trace.volatile, .opened c :: trace.events ++ [closed]⟩,
    ctx.activeMemo.store c value trace.reads trace.volatile s)

/-- The value of a cell with a valid formula, reached over the cells of `path`, which are
under evaluation. `remaining` more may be so. -/
def formulaCell : (remaining : Nat) → (path : List Cell) → Cell → Run σ Value
  | 0, path, c =>
    ctx.rememberedOr c (breakOff (if c ∈ path then .circular c else .chainTooDeep c))
  | remaining + 1, path, c =>
    ctx.rememberedOr c <|
      if c ∈ path then breakOff (.circular c)
      else
        ctx.visit c <|
          (ctx.grid.host ctx.links (formulaCell remaining (c :: path))).evaluateFormula
            ctx.options.pipeline (ctx.grid.content c).toList

/-! ## Entry points -/

/-- The value of a cell with a valid formula when nothing is under evaluation. -/
def rootCell (c : Cell) : Run σ Value := ctx.formulaCell ctx.options.maxDepth [] c

/-- The value of a cell. -/
def evaluateCell (c : Cell) : Run σ Value := ctx.grid.cellValue ctx.rootCell c

/-- The text shown for a cell: that of its value if it holds a valid formula, otherwise
its content. -/
def displayCell (c : Cell) : Run σ String := do
  if !ctx.grid.contains c || Textual.isValid (ctx.grid.content c).toList then
    return (← ctx.evaluateCell c).display
  else return ctx.grid.content c

/-- The value of a content that stands in no cell. -/
def evaluate (content : String) : Run σ Value :=
  if Textual.isValid content.toList then
    (ctx.grid.host ctx.links ctx.rootCell).evaluateFormula ctx.options.pipeline content.toList
  else if isFormula content then return .text content
  else return .ofLiteral content

/-- The text shown for a content that stands in no cell. -/
def display (content : String) : Run σ String := do
  if Textual.isValid content.toList then return (← ctx.evaluate content).display
  else return content

end Context

end Spreadsheet
