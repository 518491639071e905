import Spreadsheet.Formula.Token
import Spreadsheet.Function
import Spreadsheet.Grid
/-!
# Values

A formula has one value: a number, a text, or a failure that keeps its cause.
All failures are shown by the same mark. A failure belongs to one of seven
kinds, and its wording follows from its cause.
-/

namespace Spreadsheet

/-- The kind of a failure. -/
inductive FailureKind where
  | invalidSyntax
  | invalidNumber
  | invalidReference
  | invalidFunction
  | externalLookupFailure
  | circularReference
  | divisionByZero
  deriving DecidableEq, Repr

/-- Why a formula has no value. -/
inductive Failure where
  | malformed (error : ParseError)
  | missingOperand
  /-- A comparison stands where a value is needed. -/
  | misplacedComparison (op : Comparison)
  | noCondition
  | noAlternative
  | noCriterion
  | unknownFunction (name : String)
  | wrongArity (f : Function)
  | notANumber (text : String)
  | outOfRange
  | divisionByZero
  | outsideGrid (c : Cell)
  | emptyCell (c : Cell)
  | invalidCell (c : Cell)
  | lookupFailed (l : Link)
  | circular (c : Cell)
  | chainTooDeep (c : Cell)
  /-- A failure from elsewhere, known by its kind and wording. -/
  | stated (kind : FailureKind) (message : String)
  deriving DecidableEq

namespace Failure

/-- The kind of the failure. -/
def kind : Failure → FailureKind
  | malformed (.malformedNumber _) => .invalidNumber
  | malformed _ | missingOperand | misplacedComparison _ => .invalidSyntax
  | noCondition | noAlternative | noCriterion => .invalidSyntax
  | unknownFunction _ | wrongArity _ => .invalidFunction
  | notANumber _ | outOfRange => .invalidNumber
  | divisionByZero => .divisionByZero
  | outsideGrid _ | emptyCell _ | invalidCell _ => .invalidReference
  | lookupFailed _ => .externalLookupFailure
  | circular _ | chainTooDeep _ => .circularReference
  | stated kind _ => kind

/-- What is said of the failure. -/
def message : Failure → String
  | malformed error => error.message
  | missingOperand => "invalid formula: missing operand"
  | misplacedComparison op =>
    "invalid formula: comparison '" ++ op.symbol ++ "' outside a function condition"
  | noCondition => "invalid formula: if condition must be a comparison"
  | noAlternative => "invalid formula: condition false without else"
  | noCriterion => "invalid formula: countif expects a criterion as its last argument"
  | unknownFunction name => "invalid formula: unknown function '" ++ name ++ "'"
  | wrongArity f => "invalid formula: " ++ f.name ++ " expects " ++ f.arity.describe
  | notANumber text => "invalid number: '" ++ text ++ "'"
  | outOfRange => "invalid number: result out of range"
  | divisionByZero => "division by zero"
  | outsideGrid c => "invalid reference: " ++ c.text ++ " is outside the grid"
  | emptyCell c => "invalid reference: " ++ c.text ++ " is empty"
  | invalidCell c => "invalid cell data: " ++ c.text
  | lookupFailed l => "external lookup failed: " ++ l.text
  | circular c => "circular reference: " ++ c.text
  | chainTooDeep c => "circular reference: reference chain too deep at " ++ c.text
  | stated _ message => message

theorem message_invalidCell (c : Cell) :
    (invalidCell c).message = "invalid cell data: " ++ c.text := rfl

end Failure

/-- The value of a formula or of a cell. -/
inductive Value where
  | number (x : Float)
  | text (s : String)
  | error (f : Failure)
  deriving DecidableEq

namespace Value

/-- The value of a text that is no formula: a number if it denotes a finite one,
otherwise the text itself. -/
def ofLiteral (s : String) : Value :=
  match Number.read? s with
  | some x => number x
  | none => text s

/-- The number that the value is or, as a text, denotes. -/
def number? : Value → Option Float
  | number x => some x
  | text s => Number.read? s
  | error _ => none

/-- The value is a failure. -/
def isError : Value → Bool
  | error _ => true
  | _ => false

/-- The text shown for the value. -/
def display : Value → String
  | number x => Number.text x
  | text s => s
  | error _ => errorMark

end Value

end Spreadsheet
