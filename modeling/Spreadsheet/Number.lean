import Spreadsheet.Decimal.Shortest
import Spreadsheet.Unicode.CharacterClass
/-!
# Numbers as text

Numbers are binary floats. They are written with the fewest digits that read
back, without an exponent, and they are read from decimal notation with an
optional sign, point and exponent.
-/

namespace Spreadsheet.Number

/-- The text of a number. Zero has no sign, and whole numbers have no fraction. -/
def text (x : Float) : String :=
  if x.isNaN then "NaN"
  else if x == 0.0 then "0"
  else
    let magnitude :=
      if x.isInf then "inf".toList else (Decimal.Binary.ofBits x.toBits).shortest.text
    String.ofList (if x < 0.0 then '-' :: magnitude else magnitude)

/-- Reads a sign off the front of a text; true stands for minus. -/
def readSign : List Char → Bool × List Char
  | '-' :: rest => (true, rest)
  | '+' :: rest => (false, rest)
  | rest => (false, rest)

/-- The text has digits and nothing else. -/
def isDigits (text : List Char) : Bool := !text.isEmpty && text.all Char.isDigit

/-- The exponent that ends a decimal notation: nothing, or the letter e with an
optional sign and digits. -/
def readExponent? : List Char → Option Int
  | [] => some 0
  | e :: rest =>
    let (negative, digits) := readSign rest
    if (e = 'e' || e = 'E') && isDigits digits then
      let n := Decimal.ofDigits digits
      some (if negative then -n else n)
    else none

/-- The decimal that a text without sign denotes: digits with at most one point, at
least one digit, and an optional exponent. -/
def readDecimal? (text : List Char) : Option Decimal := do
  let whole := text.takeWhile Char.isDigit
  let (fraction, rest) :=
    match text.dropWhile Char.isDigit with
    | '.' :: rest => (rest.takeWhile Char.isDigit, rest.dropWhile Char.isDigit)
    | rest => ([], rest)
  if whole.isEmpty && fraction.isEmpty then none
  let exponent ← readExponent? rest
  return ⟨Decimal.ofDigits (whole ++ fraction), exponent - fraction.length⟩

/-- The finite number that a text denotes, surrounding white space aside. Decimals too
large for any float, and the names of infinities, denote none. -/
def read? (text : String) : Option Float := do
  let (negative, unsigned) := readSign (Unicode.trim text.toList)
  let magnitude := (← readDecimal? unsigned).toFloat
  if magnitude.isFinite then some (if negative then -magnitude else magnitude) else none

end Spreadsheet.Number
