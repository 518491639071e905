import Spreadsheet.Decimal.Basic
/-!
# The shortest decimal that reads back

A float stands for all the numbers that round to it. Of the decimals in that
interval the shortest are those on the coarsest grid of powers of ten that
meets it, and of those the nearest is chosen. All comparisons are exact, by
cross-multiplied natural numbers.
-/

namespace Spreadsheet.Decimal

/-- A positive float `mantissa * 2 ^ exponent`. -/
structure Binary where
  mantissa : Nat
  exponent : Int
  /-- The next smaller float is nearer than the next larger one. -/
  narrowBelow : Bool

/-- The value that the bits of a finite float stand for, without its sign. -/
def Binary.ofBits (bits : UInt64) : Binary :=
  let exponent : Nat := bits.toNat / Nat.pow 2 52 % Nat.pow 2 11
  let fraction := bits.toNat % Nat.pow 2 52
  if exponent = 0 then ⟨fraction, -1074, false⟩
  else ⟨Nat.pow 2 52 + fraction, (exponent : Int) - 1075, fraction == 0 && exponent > 1⟩

/-- `numerator / denominator * 10 ^ exponent`, with a numerator and a denominator
that are whole. -/
def scale (numerator denominator : Nat) : Int → Nat × Nat
  | .ofNat n => (numerator * Nat.pow 10 n, denominator)
  | .negSucc n => (numerator, denominator * Nat.pow 10 (n + 1))

namespace Binary

/-- The value as a quotient of whole numbers. -/
def quotient (b : Binary) : Nat × Nat :=
  match b.exponent with
  | .ofNat n => (b.mantissa * Nat.pow 2 n, 1)
  | .negSucc n => (b.mantissa, Nat.pow 2 (n + 1))

/-- The lower and upper end of the interval that rounds to the value, in quarters of
its last binary place. -/
def ends (b : Binary) : Nat × Nat :=
  (4 * b.mantissa - (if b.narrowBelow then 1 else 2), 4 * b.mantissa + 2)

/-- The decimal rounds to the value. The ends of the interval belong to it if the
mantissa is even. -/
def readsBack (b : Binary) (d : Decimal) : Bool :=
  let (low, high) := b.ends
  let (unit, parts) := (Binary.mk 1 b.exponent false).quotient
  let (numerator, denominator) := scale d.digits 1 d.exponent
  let x := numerator * parts * 4
  let low := low * unit * denominator
  let high := high * unit * denominator
  if b.mantissa % 2 = 0 then low ≤ x && x ≤ high else low < x && x < high

/-- The neighbour of the value on the grid of `10 ^ exponent` that reads back: of two,
the nearer, and the greater if both are as near. -/
def onGrid? (b : Binary) (exponent : Int) : Option Decimal :=
  let (numerator, denominator) := b.quotient
  let (numerator, denominator) := scale numerator denominator (-exponent)
  let below : Decimal := ⟨numerator / denominator, exponent⟩
  let above : Decimal := ⟨numerator / denominator + 1, exponent⟩
  match b.readsBack below, b.readsBack above with
  | true, true =>
    if 2 * numerator < (2 * below.digits + 1) * denominator then some below else some above
  | true, false => some below
  | false, true => some above
  | false, false => none

/-- A power of ten above the value, as an exponent. -/
def magnitude (b : Binary) : Int :=
  let (numerator, denominator) := b.quotient
  if numerator ≥ denominator then length (numerator / denominator)
  else 1 - length (denominator / numerator)

/-- Tries `count` grids, each ten times as fine as the one before. -/
def search (b : Binary) : (count : Nat) → (exponent : Int) → Decimal
  | 0, exponent =>
    let (numerator, denominator) := b.quotient
    let (numerator, denominator) := scale numerator denominator (-exponent)
    ⟨numerator / denominator, exponent⟩
  | count + 1, exponent =>
    match b.onGrid? exponent with
    | some d => d
    | none => b.search count (exponent - 1)

/-- The shortest decimal that reads back. Seventeen digits always suffice. -/
def shortest (b : Binary) : Decimal := b.search 19 b.magnitude

end Binary

end Spreadsheet.Decimal
