import Spreadsheet.Unicode.Alphabetic
import Spreadsheet.Unicode.Mark
import Spreadsheet.Unicode.Number
/-!
# Classes of characters

White space, letters and numbers, and the characters of identifiers. The last
two differ: `½` is a number and no identifier character, while a combining
accent is an identifier character and neither letter nor number. Identifiers
also know fewer of the most recent letters.
-/

namespace Spreadsheet.Unicode

/-- The white space beyond ASCII. -/
def whitespaceRanges : List (Nat × Nat) :=
  [(0x85, 0x85), (0xA0, 0xA0), (0x1680, 0x1680), (0x2000, 0x200A), (0x2028, 0x2029),
   (0x202F, 0x202F), (0x205F, 0x205F), (0x3000, 0x3000)]

/-- The character has the property White_Space. -/
def isWhitespace (c : Char) : Bool :=
  if isAscii c then c.toNat == 0x20 || (0x09 ≤ c.toNat && c.toNat ≤ 0x0D)
  else inRanges whitespaceRanges c

/-- The text without the white space around it. -/
def trim (text : List Char) : List Char :=
  ((text.dropWhile isWhitespace).reverse.dropWhile isWhitespace).reverse

/-- The character is a letter or a number. -/
def isAlphanumeric (c : Char) : Bool := isAlphabetic c || isNumeric c

/-- The characters that join words, such as the low line (Pc). -/
def connectorRanges : List (Nat × Nat) :=
  [(0x5F, 0x5F), (0x203F, 0x2040), (0x2054, 0x2054), (0xFE33, 0xFE34), (0xFE4D, 0xFE4F),
   (0xFF3F, 0xFF3F)]

/-- The zero-width joiner and non-joiner (Join_Control). -/
def joinControlRanges : List (Nat × Nat) := [(0x200C, 0x200D)]

/-- The letters, marks and digits that version 17.0 of the character database added. -/
def recentRanges : List (Nat × Nat) :=
  [(0x88F, 0x88F), (0xC5C, 0xC5C), (0xCDC, 0xCDC), (0x1ACF, 0x1ADD), (0x1AE0, 0x1AEB),
   (0xA7CE, 0xA7CF), (0xA7D2, 0xA7D2), (0xA7D4, 0xA7D4), (0xA7F1, 0xA7F1), (0x10940, 0x10959),
   (0x10EC5, 0x10EC7), (0x10EFA, 0x10EFB), (0x11B60, 0x11B67), (0x11DB0, 0x11DDB),
   (0x11DE0, 0x11DE9), (0x16EA0, 0x16EB8), (0x16EBB, 0x16ED3), (0x16FF2, 0x16FF6),
   (0x187F8, 0x187FF), (0x18D09, 0x18D1E), (0x18D80, 0x18DF2), (0x1E6C0, 0x1E6DE),
   (0x1E6E0, 0x1E6F5), (0x1E6FE, 0x1E6FF), (0x2B73A, 0x2B73F), (0x2CEA2, 0x2CEAD),
   (0x323B0, 0x33479)]

/-- The character may stand in an identifier: letters, marks, decimal digits,
connectors and the two join controls. Identifiers keep to version 16.0 of the
character database, so what was added later is no part of them. -/
def isIdentifierCharacter (c : Char) : Bool :=
  (isAlphabetic c || isDecimalDigit c || inRanges connectorRanges c || isMark c
    || inRanges joinControlRanges c) && !inRanges recentRanges c

end Spreadsheet.Unicode
