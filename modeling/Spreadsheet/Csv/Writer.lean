/-!
# Writing CSV

Fields are separated by commas and records end with a line feed. A field is put
in quotes if it could be mistaken for something else without them, and quotes
in it are doubled.
-/

namespace Spreadsheet.Csv

/-- The field is ambiguous without quotes. -/
def needsQuotes (field : List Char) : Bool :=
  field.any fun c => c = ',' || c = '"' || c = '\r' || c = '\n'

/-- The field with its quotes doubled. -/
def doubleQuotes (field : List Char) : List Char :=
  field.flatMap fun c => if c = '"' then ['"', '"'] else [c]

/-- A field as it is written. -/
def writeField (field : List Char) : List Char :=
  if needsQuotes field then '"' :: doubleQuotes field ++ ['"'] else field

/-- A record as it is written. Quotes tell the record of one empty field from an empty
line. -/
def writeRecord : List (List Char) → List Char
  | [[]] => ['"', '"', '\n']
  | fields => (List.intersperse [','] (fields.map writeField)).flatten ++ ['\n']

/-- Records as they are written. -/
def write (records : List (List String)) : String :=
  String.ofList (records.flatMap fun fields => writeRecord (fields.map String.toList))

end Spreadsheet.Csv
