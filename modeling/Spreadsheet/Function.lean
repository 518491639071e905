/-!
# Functions

The functions that formulas may call, their names and how many arguments they
take.
-/

namespace Spreadsheet

/-- A function of formulas. -/
inductive Function where
  | sum | average | count | minimum | maximum | choice | countWhere
  deriving DecidableEq, Repr

/-- How many arguments a function takes; without a greatest number, any number from
the least on. -/
structure Arity where
  least : Nat
  greatest : Option Nat

namespace Arity

/-- So many arguments are enough and not too many. -/
def accepts (a : Arity) (count : Nat) : Bool :=
  a.least ≤ count && a.greatest.all (count ≤ ·)

/-- The arity in words. -/
def describe (a : Arity) : String :=
  match a.greatest with
  | none => s!"at least {a.least} arguments"
  | some greatest =>
    if greatest = a.least then s!"{greatest} arguments"
    else s!"{a.least} to {greatest} arguments"

end Arity

namespace Function

/-- All functions. -/
def all : List Function := [sum, average, count, minimum, maximum, choice, countWhere]

/-- The name of the function in formulas. -/
def name : Function → String
  | sum => "sum"
  | average => "avg"
  | count => "count"
  | minimum => "min"
  | maximum => "max"
  | choice => "if"
  | countWhere => "countif"

/-- The function with the given name, in capitals or small letters. -/
def ofName? (name : String) : Option Function :=
  all.find? fun f => f.name.toList == name.toList.map Char.toLower

/-- How many arguments the function takes. -/
def arity : Function → Arity
  | choice => ⟨2, some 3⟩
  | countWhere => ⟨3, none⟩
  | _ => ⟨1, none⟩

end Function

end Spreadsheet
