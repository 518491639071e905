import Spreadsheet.Evaluation.Call
/-!
# Expressions in their surroundings

An expression is evaluated in surroundings that give it the values of the cells
and links it refers to.
-/

namespace Spreadsheet

/-- The surroundings of an expression. -/
structure Scope (m : Type → Type) where
  /-- The value of a cell that is referred to. -/
  reference : Cell → m Value
  /-- What the other table has for a link, if anything. -/
  link : Link → Option String

/-- The value of what another table has for a link. -/
def Evaluation.follow {m : Type → Type} [Monad m] [Reporter m] (l : Link) :
    Option String → m Value
  | none => fail (.lookupFailed l)
  | some content =>
    if content = errorMark then fail (.lookupFailed l) else return .ofLiteral content

mutual

/-- The value of an expression. An operator whose left operand fails leaves the right one
unevaluated. -/
def Expr.eval {m : Type → Type} [Monad m] [Reporter m] (scope : Scope m) : Expr → m Value
  | .number x => return .number x
  | .text s => return .text s
  | .cell c => scope.reference c
  | .link l => Evaluation.follow l (scope.link l)
  | .negate operand => do Evaluation.negate (← operand.eval scope)
  | .binary op left right => do
    let a ← left.eval scope
    if a.isError then return a
    Evaluation.arithmetic op a (← right.eval scope)
  | .call name arguments => Evaluation.call name (Argument.delay scope arguments)

/-- Arguments as the computations of their values. -/
def Argument.delay {m : Type → Type} [Monad m] [Reporter m] (scope : Scope m) :
    List (Argument Expr) → List (Argument (m Value))
  | [] => []
  | .value operand :: rest => .value (operand.eval scope) :: Argument.delay scope rest
  | .condition op left right :: rest =>
    .condition op (left.eval scope) (right.eval scope) :: Argument.delay scope rest
  | .criterion op operand :: rest =>
    .criterion op (operand.eval scope) :: Argument.delay scope rest

end

end Spreadsheet
