import Spreadsheet.Evaluation.Arithmetic
import Spreadsheet.Formula.Expr
/-!
# Calls

A function is given its arguments before they are evaluated, each as the
computation of its value. So a choice evaluates only the branch it takes, and
conditions can be told from values.
-/

namespace Spreadsheet.Evaluation

variable {m : Type → Type} [Monad m] [Reporter m]

/-- The value of an argument. Conditions and criteria have none. -/
def argument : Argument (m Value) → m Value
  | .value v => v
  | .condition op _ _ => fail (.misplacedComparison op)
  | .criterion op _ => fail (.misplacedComparison op)

/-- The number that a computation yields. -/
def numberOf (v : m Value) : ExceptT Failure m Float := do
  number (← v)

/-- The numbers of arguments, up to the first failure. -/
def numbers (arguments : List (Argument (m Value))) : ExceptT Failure m (List Float) :=
  arguments.mapM fun a => numberOf (argument a)

/-- The value of `if(condition; then; else)`. -/
def choose : List (Argument (m Value)) → m Value
  | .condition op left right :: branches => settle do
    let a ← numberOf left
    let b ← numberOf right
    match op.select a b branches[0]? branches[1]? with
    | some branch => (argument branch : m Value)
    | none => fail .noAlternative
  | _ => fail .noCondition

/-- The value of `countif(values; criterion)`. -/
def countWhere (arguments : List (Argument (m Value))) : m Value :=
  match arguments.getLast? with
  | some (.criterion op operand) => settle do
    let threshold ← numberOf operand
    let xs ← numbers arguments.dropLast
    return .number (Float.ofNat (xs.countP (op.holds · threshold)))
  | _ => fail .noCriterion

/-- The sum of numbers, from left to right. -/
def total (xs : List Float) : Float := xs.foldl (· + ·) 0.0

/-- The less of two numbers. -/
def lesser (a b : Float) : Float := if b < a then b else a

/-- The greater of two numbers. -/
def greater (a b : Float) : Float := if a < b then b else a

/-- The value of a function with the given arguments. An average counts arguments that
are no numbers too, as if they were zero. -/
def apply (f : Function) (arguments : List (Argument (m Value))) : m Value :=
  match f with
  | .sum => settle do
    finite (total (← numbers arguments))
  | .average => do
    let values ← arguments.mapM argument
    finite (total (values.filterMap Value.number?) / Float.ofNat arguments.length)
  | .count => do
    let values ← arguments.mapM argument
    return .number (Float.ofNat (values.countP (!·.isError)))
  | .minimum => settle do
    finite ((← numbers arguments).foldl lesser (1.0 / 0.0))
  | .maximum => settle do
    finite ((← numbers arguments).foldl greater (-1.0 / 0.0))
  | .choice => choose arguments
  | .countWhere => countWhere arguments

/-- The value of a call. -/
def call (name : String) (arguments : List (Argument (m Value))) : m Value :=
  match Function.ofName? name with
  | none => fail (.unknownFunction name)
  | some f =>
    if f.arity.accepts arguments.length then apply f arguments
    else fail (.wrongArity f)

end Spreadsheet.Evaluation
