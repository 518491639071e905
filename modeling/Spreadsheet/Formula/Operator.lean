/-!
# Operators

The four operators of arithmetic, and the comparisons that conditions are made
of. Comparisons know numbers only, and two numbers closer than a small
tolerance are equal, so that `0.1+0.2=0.3` holds.
-/

namespace Spreadsheet

/-- An operator between two numbers. -/
inductive Operator where
  | add | subtract | multiply | divide
  deriving DecidableEq, Repr

namespace Operator

/-- The character that stands for the operator. -/
def symbol : Operator → Char
  | add => '+'
  | subtract => '-'
  | multiply => '*'
  | divide => '/'

/-- The operator that a character stands for. -/
def ofChar? : Char → Option Operator
  | '+' => some add
  | '-' => some subtract
  | '*' => some multiply
  | '/' => some divide
  | _ => none

/-- The result of the operation on floats. -/
def apply : Operator → Float → Float → Float
  | add, a, b => a + b
  | subtract, a, b => a - b
  | multiply, a, b => a * b
  | divide, a, b => a / b

end Operator

/-- A comparison of two numbers. -/
inductive Comparison where
  | less | lessEqual | greater | greaterEqual | unequal | equal
  deriving DecidableEq, Repr

namespace Comparison

/-- The spelling of the comparison. -/
def symbol : Comparison → String
  | less => "<"
  | lessEqual => "<="
  | greater => ">"
  | greaterEqual => ">="
  | unequal => "<>"
  | equal => "="

/-- The comparison with the given spelling. -/
def ofSymbol? : String → Option Comparison
  | "<" => some less
  | "<=" => some lessEqual
  | ">" => some greater
  | ">=" => some greaterEqual
  | "<>" => some unequal
  | "=" => some equal
  | _ => none

/-- There are six comparisons, each with its own spelling. -/
theorem ofSymbol?_eq_some_iff (s : String) (op : Comparison) :
    ofSymbol? s = some op ↔ (s, op) ∈ [("<", less), ("<=", lessEqual), (">", greater),
      (">=", greaterEqual), ("<>", unequal), ("=", equal)] := by
  simp only [List.mem_cons, Prod.mk.injEq, List.not_mem_nil, or_false]
  constructor
  · intro h
    unfold ofSymbol? at h
    split at h <;> cases h <;> simp
  · rintro (⟨rfl, rfl⟩ | ⟨rfl, rfl⟩ | ⟨rfl, rfl⟩ | ⟨rfl, rfl⟩ | ⟨rfl, rfl⟩ | ⟨rfl, rfl⟩) <;> rfl

/-- The distance below which two numbers are equal. -/
def tolerance : Float := 1e-10

/-- The numbers are equal up to the tolerance. -/
def close (a b : Float) : Bool := (a - b).abs < tolerance

/-- The comparison holds between the two numbers. -/
def holds (op : Comparison) (a b : Float) : Bool :=
  match op with
  | less => a < b && !close a b
  | lessEqual => a < b || close a b
  | greater => b < a && !close a b
  | greaterEqual => b < a || close a b
  | unequal => !close a b
  | equal => close a b

/-- The first of two choices if the comparison holds, otherwise the second. -/
def select {α : Type} (op : Comparison) (a b : Float) (yes no : α) : α :=
  if op.holds a b then yes else no

end Comparison

end Spreadsheet
