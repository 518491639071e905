import Spreadsheet.Textual.Precedence
import Spreadsheet.Value
import Spreadsheet.Formula.Parser
/-!
# Evaluation from left to right

A text is evaluated by joining its operands strictly from left to right. An
operand that is a single group is evaluated the same way, and what becomes of
the other operands and of two values around an operator is up to the caller,
in whatever monad the caller works.
-/

namespace Spreadsheet.Textual

/-- What follows an operator is shorter than the whole. -/
theorem length_lt_of_cut {text before after : List Char} {op : Operator}
    (h : cut? text = some (before, op, after)) : after.length < text.length := by
  fun_induction cut? text generalizing before with
  | case1 => simp at h
  | case2 => simp at h
  | case3 rest n _ ih =>
    obtain ⟨⟨b, o, a⟩, h', heq⟩ := Option.map_eq_some_iff.1 h
    simp only [Prod.mk.injEq] at heq
    obtain ⟨_, rfl, rfl⟩ := heq
    have := ih h'
    simp at this ⊢
    omega
  | case4 => simp_all
  | case5 c rest _ hop ih =>
    obtain ⟨⟨b, o, a⟩, h', heq⟩ := Option.map_eq_some_iff.1 h
    simp only [Prod.mk.injEq] at heq
    obtain ⟨_, rfl, rfl⟩ := heq
    have := ih h'
    simp
    omega

/-- The first operand of the text, and each later one with the operator before it. -/
def operands (text : List Char) : List Char × List (Operator × List Char) :=
  match _ : cut? text with
  | none => (text, [])
  | some (before, op, after) =>
    let (next, rest) := operands after
    (before, (op, next) :: rest)
termination_by text.length
decreasing_by
  rename_i h
  exact length_lt_of_cut h

/-- How deeply groups may be nested in a text to be reduced: making precedence explicit
turns one level into three and adds two. -/
def groupLimit : Nat := 3 * nestingLimit + 2

section
variable {m : Type → Type} [Monad m]

/-- Joins the operands of a text from left to right, where `term` evaluates each. -/
def joinOperands (combine : Operator → Value → Value → m Value) (term : List Char → m Value)
    (text : List Char) : m Value := do
  let (first, rest) := operands text
  let start ← term first
  rest.foldlM (fun value (op, next) => do combine op value (← term next)) start

/-- Evaluates a text with groups nested at most `levels` deep. -/
def reduceWithin (operand : List Char → m Value) (combine : Operator → Value → Value → m Value) :
    (levels : Nat) → List Char → m Value
  | 0, text =>
    joinOperands combine (fun token =>
      match group? token with
      | some _ => return .error (.malformed .nestedTooDeeply)
      | none => operand token) text
  | levels + 1, text =>
    joinOperands combine (fun token =>
      match group? token with
      | some inner => reduceWithin operand combine levels inner
      | none => operand token) text

/-- Evaluates a text from left to right: groups by themselves, all other operands by
`operand`, and each operator by `combine`. -/
def reduce (operand : List Char → m Value) (combine : Operator → Value → Value → m Value)
    (text : List Char) : m Value :=
  reduceWithin operand combine groupLimit text

end

end Spreadsheet.Textual
