import Spreadsheet.Formula.Operator
import Spreadsheet.Address.Link
import Std.Data.TreeSet
/-!
# Expressions

The tree that a formula denotes. Comparisons stand only in the arguments of
calls, between two expressions or in front of one.
-/

namespace Spreadsheet

/-- An argument of a call: a value, a condition `left op right`, or a criterion
`op operand`, which is a condition without its left side. -/
inductive Argument (α : Type) where
  | value (operand : α)
  | condition (op : Comparison) (left right : α)
  | criterion (op : Comparison) (operand : α)

/-- An expression. -/
inductive Expr where
  | number (x : Float)
  | text (s : String)
  | cell (c : Cell)
  | link (l : Link)
  | negate (operand : Expr)
  | binary (op : Operator) (left right : Expr)
  | call (name : String) (arguments : List (Argument Expr))

mutual

/-- The links in an expression, from left to right. -/
def Expr.links : Expr → List Link
  | .number _ | .text _ | .cell _ => []
  | .link l => [l]
  | .negate operand => operand.links
  | .binary _ left right => left.links ++ right.links
  | .call _ arguments => Argument.links arguments

/-- The links in arguments, from left to right. -/
def Argument.links : List (Argument Expr) → List Link
  | [] => []
  | .value operand :: rest => operand.links ++ Argument.links rest
  | .condition _ left right :: rest => left.links ++ right.links ++ Argument.links rest
  | .criterion _ operand :: rest => operand.links ++ Argument.links rest

end

/-- The distinct links in an expression, in order. -/
def Expr.batch (e : Expr) : List Link := (Std.TreeSet.ofList e.links).toList

end Spreadsheet
