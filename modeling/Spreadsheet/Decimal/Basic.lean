/-!
# Decimal numbers

A decimal number is a whole number of units `10 ^ exponent`. It has a
positional text, and it denotes the float nearest to it.
-/

namespace Spreadsheet

/-- The number `digits * 10 ^ exponent`. -/
structure Decimal where
  digits : Nat
  exponent : Int
  deriving DecidableEq, Repr

namespace Decimal

/-- The number of decimal digits of `n`; zero has one. -/
def length (n : Nat) : Nat := (Nat.toDigits 10 n).length

/-- The whole number written by decimal digits. -/
def ofDigits (digits : List Char) : Nat :=
  digits.foldl (fun n c => 10 * n + (c.toNat - '0'.toNat)) 0

/-- The positional text of a number with `digits` as its digits: zeros fill up to the
point, and no exponent is written. -/
def layout (digits : List Char) : Int → List Char
  | .ofNat zeros => digits ++ List.replicate zeros '0'
  | .negSucc n =>
    let places := n + 1
    if places < digits.length then
      digits.take (digits.length - places) ++ '.' :: digits.drop (digits.length - places)
    else
      '0' :: '.' :: List.replicate (places - digits.length) '0' ++ digits

/-- Digits without the zeros at their end, each of which raises the exponent by one. -/
def dropZeros (digits : List Char) (exponent : Int) : List Char × Int :=
  let zeros := (digits.reverse.takeWhile (· == '0')).length
  (digits.take (digits.length - zeros), exponent + zeros)

/-- The positional text of the number, without zeros at the end of its fraction. -/
def text (d : Decimal) : List Char :=
  let (digits, exponent) := dropZeros (Nat.toDigits 10 d.digits) d.exponent
  layout digits exponent

/-- The float nearest to the number, infinite if the number is beyond all floats. The
bounds on the number of places keep the powers of ten small; outside them the answer
is certain. -/
def toFloat (d : Decimal) : Float :=
  let places := length d.digits + d.exponent
  if d.digits = 0 ∨ places < -330 then 0.0
  else if places > 310 then 1.0 / 0.0
  else
    match d.exponent with
    | .ofNat n => Float.ofScientific d.digits false n
    | .negSucc n => Float.ofScientific d.digits true (n + 1)

end Decimal

end Spreadsheet
