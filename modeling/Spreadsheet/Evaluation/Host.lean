import Spreadsheet.Evaluation.Scope
import Spreadsheet.LinkTable
import Spreadsheet.Textual.Reduction
/-!
# Formulas

A formula is read as an expression, or it is reduced as a text from left to
right. Either way it asks its host for the values of cells and links, in
whatever monad the host works. The cells of a grid are a host once it is known
what their own formulas yield.
-/

namespace Spreadsheet

/-- How the text of a formula is turned into a value. -/
inductive Pipeline where
  /-- Formulas are parsed as a whole. -/
  | grammar
  /-- Formulas are reduced from left to right, and only operands are parsed. -/
  | textual
  deriving DecidableEq, Repr

/-- What formulas ask for. -/
structure Host (m : Type → Type) where
  /-- The value of a cell that is referred to. -/
  reference : Cell → m Value
  /-- What other tables have for links, all those of one expression together. -/
  resolve : (batch : List Link) → m (Link → Option String)

namespace Host
variable {m : Type → Type} [Monad m] [Reporter m] (host : Host m)

/-- The value of an expression. All its links are resolved at once, before anything else. -/
def evaluateExpr (e : Expr) : m Value := do
  if e.batch.isEmpty then e.eval { reference := host.reference, link := fun _ => none }
  else
    let link ← host.resolve e.batch
    e.eval { reference := host.reference, link }

/-- The value of an expression that may fail to be one. -/
def evaluateParsed : Except ParseError Expr → m Value
  | .ok e => host.evaluateExpr e
  | .error e => Evaluation.fail (.malformed e)

/-- The value of an operand of a text that is reduced. -/
def evaluateOperand (token : List Char) : m Value :=
  let source := Textual.restore token
  if (Unicode.trim source).isEmpty then Evaluation.fail .missingOperand
  else host.evaluateParsed (Expr.ofText source)

/-- The value of the body of a formula, reduced from left to right. -/
def reduceBody (body : List Char) : m Value :=
  if Textual.nestingDepth body > nestingLimit then Evaluation.fail (.malformed .nestedTooDeeply)
  else Textual.reduce host.evaluateOperand Evaluation.arithmetic (Textual.normalize body)

/-- The value of a formula. -/
def evaluateFormula (pipeline : Pipeline) (formula : List Char) : m Value :=
  match pipeline with
  | .grammar => host.evaluateParsed (Expr.ofFormula formula)
  | .textual => host.reduceBody (formula.drop 1)

end Host

namespace Grid
variable {m : Type → Type} [Monad m] [Observer m] (g : Grid)

/-- The value of a cell, where `formula` gives the values of the cells with valid
formulas. Other contents are literal, and an invalid formula is its own text. -/
def cellValue (formula : Cell → m Value) (c : Cell) : m Value :=
  if !g.contains c then Evaluation.fail (.outsideGrid c)
  else
    let content := g.content c
    if Textual.isValid content.toList then formula c
    else if isFormula content then return .text content
    else return .ofLiteral content

/-- The value of a cell that a formula refers to. Beyond the value of the cell itself,
it has to hold something, and a failure in it is reported again. -/
def reference (formula : Cell → m Value) (c : Cell) : m Value :=
  if !g.contains c then Evaluation.fail (.outsideGrid c)
  else do
    Observer.read c
    let content := g.content c
    if content.isEmpty then Evaluation.fail (.emptyCell c)
    else if content = errorMark then Evaluation.fail (.invalidCell c)
    else
      let value ← g.cellValue formula c
      if value.isError then
        Reporter.report (.invalidCell c)
      return value

/-- The host that looks up cells in the grid, where `formula` gives the values of the
cells with valid formulas. -/
def host (links : LinkSource) (formula : Cell → m Value) : Host m where
  reference := g.reference formula
  resolve batch := do
    Observer.resolve batch
    return links batch

end Grid

end Spreadsheet
