import Spreadsheet.Value
/-!
# Numbers and failures during evaluation

Evaluation works in any monad in which failures can be reported. Each failure is
reported once, where it arises, and is then handed on as a value.
-/

namespace Spreadsheet

/-- A monad in which failures can be reported. -/
class Reporter (m : Type → Type) where
  /-- Takes note of a failure. -/
  report : Failure → m Unit

instance {ε : Type} {m : Type → Type} [Monad m] [Reporter m] : Reporter (ExceptT ε m) where
  report f := ExceptT.lift (Reporter.report f)

/-- A monad in which it is noted what the formula at hand depends on. -/
class Observer (m : Type → Type) extends Reporter m where
  /-- Takes note that the formula reads a cell. -/
  read : Cell → m Unit
  /-- Takes note that the values of links are asked for, all those of one formula together. -/
  resolve : List Link → m Unit

namespace Evaluation
variable {m : Type → Type} [Monad m] [Reporter m]

/-- The failure as a value, after it is reported. -/
def fail (f : Failure) : m Value := do
  Reporter.report f
  return .error f

/-- A computation that stops at its first failure, settled as a value. -/
def settle (x : ExceptT Failure m Value) : m Value := do
  match ← x.run with
  | .ok v => return v
  | .error f => return .error f

/-- The number of a value. A failure stays as it is; a text that is no number is a new
failure. -/
def number (v : Value) : ExceptT Failure m Float :=
  match v with
  | .error f => throw f
  | v =>
    match v.number? with
    | some x => return x
    | none => do
      Reporter.report (.notANumber v.display)
      throw (.notANumber v.display)

/-- A computed number as a value, which must be finite. -/
def finite (x : Float) : m Value :=
  if x.isFinite then return .number x else fail .outOfRange

/-- The value with its sign changed. -/
def negate (v : Value) : m Value := settle do
  return .number (-(← number v))

/-- The value of an operator between two values. The first failure among them is the
result. -/
def arithmetic (op : Operator) (left right : Value) : m Value :=
  match left, right with
  | .error f, _ => return .error f
  | _, .error f => return .error f
  | left, right => settle do
    let a ← number left
    let b ← number right
    if op = .divide ∧ b == 0.0 then fail .divisionByZero
    else finite (op.apply a b)

end Evaluation

end Spreadsheet
