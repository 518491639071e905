import Spreadsheet.Textual.Parentheses
/-!
# Precedence by parentheses

A text evaluated from left to right respects precedence if every product is a
group of its own. Normalisation puts the parentheses there: each operator and
each parenthesis is replaced by itself among further parentheses, looser
operators with more of them, and the whole is wrapped in two groups. This can
be undone, also on a part of the result.
-/

namespace Spreadsheet.Textual

/-- What a character is replaced by. -/
def spread : Char → List Char
  | '+' => [')', ')', '+', '(', '(']
  | '-' => [')', ')', '-', '(', '(']
  | '*' => [')', '*', '(']
  | '/' => [')', '/', '(']
  | '(' => ['(', '(', '(']
  | ')' => [')', ')', ')']
  | c => [c]

/-- Makes precedence explicit, in a text whose parentheses are balanced. -/
def normalize (body : List Char) : List Char :=
  let result := '(' :: '(' :: body.flatMap spread ++ [')', ')']
  if isBalanced result then result else body

/-- Undoes `spread` wherever one of its results starts. -/
def restore : List Char → List Char
  | ')' :: ')' :: '+' :: '(' :: '(' :: rest => '+' :: restore rest
  | ')' :: ')' :: '-' :: '(' :: '(' :: rest => '-' :: restore rest
  | ')' :: ')' :: ')' :: rest => ')' :: restore rest
  | ')' :: '*' :: '(' :: rest => '*' :: restore rest
  | ')' :: '/' :: '(' :: rest => '/' :: restore rest
  | '(' :: '(' :: '(' :: rest => '(' :: restore rest
  | c :: rest => c :: restore rest
  | [] => []

end Spreadsheet.Textual
