/-!
# Ranges of code points

A character property is given by ASCII letters and digits that are tested
directly and, beyond ASCII, by an ascending list of ranges of code points. The
tables list a property from U+0080 on, as the Unicode character database 17.0
assigns it.
-/

namespace Spreadsheet.Unicode

/-- The character's code point lies in one of the ranges, ends included. -/
def inRanges (ranges : List (Nat × Nat)) (c : Char) : Bool :=
  ranges.any fun (low, high) => low ≤ c.toNat && c.toNat ≤ high

/-- The character is one of the 128 of ASCII. -/
def isAscii (c : Char) : Bool := c.toNat < 0x80

end Spreadsheet.Unicode
