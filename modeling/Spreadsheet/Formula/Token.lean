import Spreadsheet.Address.Link
import Spreadsheet.Formula.Operator
import Spreadsheet.Number
/-!
# Tokens of formulas

The words and marks that a formula is made of, and what can be wrong with a
formula. An error names its cause; its wording is in one place.
-/

namespace Spreadsheet

/-- A token of a formula. -/
inductive Token where
  | number (x : Float)
  /-- A text in quotes. -/
  | text (s : String)
  /-- The name of a function, or words that stand for themselves. -/
  | word (s : String)
  | cell (c : Cell)
  | link (l : Link)
  | operator (op : Operator)
  /-- A run of the characters `<`, `>` and `=`, which need not spell a comparison. -/
  | comparison (spelling : String)
  | openParen
  | closeParen
  | separator
  deriving DecidableEq

namespace Token

/-- How an error names the token. -/
def describe : Token → String
  | number x => "number " ++ Number.text x
  | text s => "text \"" ++ s ++ "\""
  | word s => "'" ++ s ++ "'"
  | cell c => "cell " ++ c.text
  | link l => "reference " ++ l.text
  | operator op => "'" ++ op.symbol.toString ++ "'"
  | comparison spelling => "'" ++ spelling ++ "'"
  | openParen => "'('"
  | closeParen => "')'"
  | separator => "';'"

/-- How an error names what was found: a token, or the end. -/
def describeFound : Option Token → String
  | some t => t.describe
  | none => "end of formula"

end Token

/-- What is wrong with the text of a formula. -/
inductive ParseError where
  | noEqualsSign
  | emptyExpression
  | emptyArgument
  | unterminatedText
  | nestedTooDeeply
  | comparisonOutsideCall (spelling : String)
  | unexpected (found : Option Token)
  | unexpectedAfter (found : Token)
  | expected (wanted : Token) (found : Option Token)
  | malformedNumber (text : String)
  | unknownComparison (spelling : String)
  deriving DecidableEq

namespace ParseError

/-- What is said of the error. -/
def message : ParseError → String
  | noEqualsSign => "invalid formula: formula must start with '='"
  | emptyExpression => "invalid formula: empty expression"
  | emptyArgument => "invalid formula: empty argument"
  | unterminatedText => "invalid formula: unterminated string"
  | nestedTooDeeply => "invalid formula: formula nested too deeply"
  | comparisonOutsideCall spelling =>
    "invalid formula: comparison '" ++ spelling ++ "' is only allowed as a function condition"
  | unexpected found => "invalid formula: unexpected " ++ Token.describeFound found
  | unexpectedAfter found =>
    "invalid formula: unexpected " ++ found.describe ++ " after expression"
  | expected wanted found =>
    "invalid formula: expected " ++ wanted.describe ++ ", got " ++ Token.describeFound found
  | malformedNumber text => "invalid number: '" ++ text ++ "'"
  | unknownComparison spelling => "invalid operator: '" ++ spelling ++ "'"

end ParseError

end Spreadsheet
