import Spreadsheet.Formula.Operator
/-!
# Parentheses in texts

Formula texts can be cut at their operators without being read as tokens. An
operator counts if no parenthesis is open before it, and the search for it goes
from each opening parenthesis straight to the one that closes it.
-/

namespace Spreadsheet.Textual

/-- There are as many opening as closing parentheses, in whatever order. -/
def isBalanced (text : List Char) : Bool := text.count '(' == text.count ')'

/-- The text may be evaluated: it starts with an equals sign and is balanced. -/
def isValid (text : List Char) : Bool := text.head? = some '=' && isBalanced text

/-- The deepest nesting reached when `depth` parentheses are open before the text. A
closing parenthesis too many is passed over. -/
def nestingFrom (depth : Nat) : List Char → Nat
  | [] => depth
  | '(' :: rest => max depth (nestingFrom (depth + 1) rest)
  | ')' :: rest => max depth (nestingFrom (depth - 1) rest)
  | _ :: rest => nestingFrom depth rest

/-- The deepest nesting of parentheses in the text. -/
def nestingDepth (text : List Char) : Nat := nestingFrom 0 text

/-- The number of characters before the parenthesis that closes the last of `depth`
open ones. -/
def closing? (depth : Nat) : List Char → Option Nat
  | [] => none
  | '(' :: rest => (closing? (depth + 1) rest).map (· + 1)
  | ')' :: rest =>
    match depth with
    | 0 => none
    | 1 => some 0
    | depth + 1 => (closing? depth rest).map (· + 1)
  | _ :: rest => (closing? depth rest).map (· + 1)

/-- The text before and after its first operator outside parentheses, and that operator.
There is none behind a parenthesis that nothing closes. -/
def cut? (text : List Char) : Option (List Char × Operator × List Char) :=
  match text with
  | [] => none
  | '(' :: rest =>
    match closing? 1 rest with
    | none => none
    | some n =>
      (cut? (rest.drop (n + 1))).map fun (before, op, after) =>
        ('(' :: rest.take (n + 1) ++ before, op, after)
  | c :: rest =>
    match Operator.ofChar? c with
    | some op => some ([], op, rest)
    | none => (cut? rest).map fun (before, op, after) => (c :: before, op, after)
termination_by text.length

/-- The text inside its parentheses, if it is a single group. -/
def group? : List Char → Option (List Char)
  | '(' :: rest => if closing? 1 rest = some (rest.length - 1) then some rest.dropLast else none
  | _ => none

/-- The length of a text in bytes of UTF-8, by which positions are counted. -/
def byteLength (text : List Char) : Nat := text.foldr (fun c n => c.utf8Size + n) 0

/-- The position of the first operator outside parentheses. -/
def firstOperator (text : List Char) : Option Nat :=
  (cut? text).map fun (before, _, _) => byteLength before

/-- The position of the parenthesis that closes the first opening one. -/
def firstClosing (text : List Char) : Option Nat :=
  let before := text.takeWhile (· ≠ '(')
  (closing? 0 (text.drop before.length)).map fun n =>
    byteLength (text.take (before.length + n))

end Spreadsheet.Textual
