import Spreadsheet.Formula.Expr
import Spreadsheet.Formula.Lexer
import Spreadsheet.Unicode.Casing
/-!
# From tokens to expressions

    sum      = product (("+" | "-") product)*
    product  = signed (("*" | "/") signed)*
    signed   = "-" signed | "+" signed | primary
    primary  = number | text | link | cell | word | "(" sum ")" | call
    call     = (word | cell) "(" [argument (";" argument)*] ")"
    argument = sum | sum comparison sum | comparison sum

Operators of one rank group to the left, a plus sign in front of an operand
means nothing, and a word that calls nothing stands for itself.

The functions below read each of these from the front of a list of tokens. All
but `signed` are given the reader of signed operands, so that the only
recursion through the grammar is on the nesting that is still allowed. What
has been read is shorter than what there was, which ends the loops.
-/

namespace Spreadsheet

/-- How deeply groups, calls and signs may be nested in a formula. -/
def nestingLimit : Nat := 128

/-- Something read from the front of `tokens`, and the tokens after it. -/
structure Parsed (α : Type) (tokens : List Token) where
  value : α
  rest : List Token
  shorter : rest.length < tokens.length

/-- The same reading within a longer list of tokens, with its value changed by `f`. -/
def Parsed.lift {α β : Type} {inner outer : List Token} (f : α → β) (p : Parsed α inner)
    (h : inner.length ≤ outer.length) : Parsed β outer :=
  ⟨f p.value, p.rest, Nat.lt_of_lt_of_le p.shorter h⟩

/-- A reader of some part of a formula. -/
abbrev Reader (α : Type) := (tokens : List Token) → Except ParseError (Parsed α tokens)

namespace Reader

/-- Reads on while operators that are accepted follow, grouping to the left. -/
def extend (operand : Reader Expr) (accepts : Operator → Bool) {tokens : List Token} :
    Parsed Expr tokens → Except ParseError (Parsed Expr tokens)
  | ⟨left, .operator op :: rest, h⟩ =>
    if accepts op then
      match operand rest with
      | .error e => .error e
      | .ok right =>
        extend operand accepts ⟨.binary op left right.value, right.rest, by
          have := right.shorter
          simp only [List.length_cons] at h
          omega⟩
    else .ok ⟨left, .operator op :: rest, h⟩
  | p => .ok p
termination_by p => p.rest.length
decreasing_by
  have := right.shorter
  simp only [List.length_cons]
  omega

/-- The operator binds tighter than the others. -/
def isTight (op : Operator) : Bool := op = .multiply || op = .divide

/-- Signed operands joined by multiplication and division. -/
def product (signed : Reader Expr) : Reader Expr := fun tokens => do
  extend signed isTight (← signed tokens)

/-- Products joined by addition and subtraction. -/
def sum (signed : Reader Expr) : Reader Expr := fun tokens => do
  extend (product signed) (!isTight ·) (← product signed tokens)

/-- The comparison that a token spells. -/
def comparison (spelling : String) : Except ParseError Comparison :=
  match Comparison.ofSymbol? spelling with
  | some op => .ok op
  | none => .error (.unknownComparison spelling)

/-- Goes on over a closing parenthesis. -/
def close {α : Type} {tokens : List Token} :
    Parsed α tokens → Except ParseError (Parsed α tokens)
  | ⟨value, .closeParen :: rest, h⟩ => .ok ⟨value, rest, Nat.lt_trans (Nat.lt_succ_self _) h⟩
  | ⟨_, rest, _⟩ => .error (.expected .closeParen rest.head?)

/-- A sum, and its right side if it is the left side of a condition. -/
def condition (signed : Reader Expr) : Reader (Argument Expr) := fun tokens => do
  match ← sum signed tokens with
  | ⟨left, .comparison spelling :: rest, h⟩ =>
    let op ← comparison spelling
    let right ← sum signed rest
    return right.lift (.condition op left) (by simp only [List.length_cons] at h; omega)
  | p => return p.lift .value (Nat.le_refl _)

/-- An argument of a call. -/
def argument (signed : Reader Expr) : Reader (Argument Expr)
  | .comparison spelling :: rest => do
    let op ← comparison spelling
    let operand ← sum signed rest
    return operand.lift (.criterion op) (Nat.le_succ _)
  | .separator :: _ => .error .emptyArgument
  | .closeParen :: _ => .error .emptyArgument
  | tokens => condition signed tokens

/-- Reads on while separators follow. -/
def moreArguments (signed : Reader Expr) {tokens : List Token} :
    Parsed (List (Argument Expr)) tokens →
      Except ParseError (Parsed (List (Argument Expr)) tokens)
  | ⟨arguments, .separator :: rest, h⟩ =>
    match argument signed rest with
    | .error e => .error e
    | .ok next =>
      moreArguments signed ⟨arguments ++ [next.value], next.rest, by
        have := next.shorter
        simp only [List.length_cons] at h
        omega⟩
  | p => .ok p
termination_by p => p.rest.length
decreasing_by
  have := next.shorter
  simp only [List.length_cons]
  omega

/-- The arguments of a call and the closing parenthesis after them. -/
def arguments (signed : Reader Expr) : Reader (List (Argument Expr))
  | .closeParen :: rest => .ok ⟨[], rest, Nat.lt_succ_self _⟩
  | tokens => do
    let first ← argument signed tokens
    close (← moreArguments signed (first.lift ([·]) (Nat.le_refl _)))

/-- A call of the function with the given name. Names know no case. -/
def call (name : String) (arguments : List (Argument Expr)) : Expr :=
  .call (String.ofList (Unicode.lowercase name.toList)) arguments

/-- An operand without sign. -/
def primary (signed : Reader Expr) : Reader Expr
  | .number x :: rest => .ok ⟨.number x, rest, Nat.lt_succ_self _⟩
  | .text s :: rest => .ok ⟨.text s, rest, Nat.lt_succ_self _⟩
  | .link l :: rest => .ok ⟨.link l, rest, Nat.lt_succ_self _⟩
  | .openParen :: rest => do
    let inner ← sum signed rest
    close (inner.lift id (Nat.le_succ _))
  | .cell c :: .openParen :: rest => do
    let p ← arguments signed rest
    return p.lift (call c.text) (by simp only [List.length_cons]; omega)
  | .cell c :: rest => .ok ⟨.cell c, rest, Nat.lt_succ_self _⟩
  | .word w :: .openParen :: rest => do
    let p ← arguments signed rest
    return p.lift (call w) (by simp only [List.length_cons]; omega)
  | .word w :: rest => .ok ⟨.text w, rest, Nat.lt_succ_self _⟩
  | .comparison spelling :: _ => .error (.comparisonOutsideCall spelling)
  | tokens => .error (.unexpected tokens.head?)

/-- An operand with or without signs, where what is nested in it has the reader `signed`. -/
def signedOperand (signed : Reader Expr) : Reader Expr
  | .operator .subtract :: rest => do
    let operand ← signed rest
    return operand.lift .negate (Nat.le_succ _)
  | .operator .add :: rest => do
    let operand ← signed rest
    return operand.lift id (Nat.le_succ _)
  | tokens => primary signed tokens

/-- An operand with at most `levels` operands nested in one another, itself included. -/
def signed : (levels : Nat) → Reader Expr
  | 0 => fun _ => .error .nestedTooDeeply
  | levels + 1 => signedOperand (signed levels)

end Reader

namespace Expr

/-- The expression that tokens denote. -/
def ofTokens (tokens : List Token) : Except ParseError Expr :=
  if tokens.isEmpty then .error .emptyExpression
  else do
    let p ← Reader.sum (Reader.signed nestingLimit) tokens
    match p.rest with
    | [] => .ok p.value
    | .comparison spelling :: _ => .error (.comparisonOutsideCall spelling)
    | t :: _ => .error (.unexpectedAfter t)

/-- The expression that a text denotes. -/
def ofText (text : List Char) : Except ParseError Expr := do
  ofTokens (← Token.tokenize text)

/-- The expression that a formula denotes, which is a text after an equals sign. -/
def ofFormula (formula : List Char) : Except ParseError Expr :=
  match formula with
  | '=' :: body => ofText body
  | _ => .error .noEqualsSign

end Expr

end Spreadsheet
