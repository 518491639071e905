import Spreadsheet.Csv.Reader
import Spreadsheet.Csv.Writer
import Spreadsheet.Sheet
/-!
# The command line

Two commands: one evaluates all cells of a grid given as CSV and writes the
texts shown for them as CSV, the other evaluates a single formula. Here they are
functions from the contents of files to what is written; opening and writing
files is left to the caller.
-/

namespace Spreadsheet.CommandLine

/-- The content of a file, or why it cannot be read. -/
abbrev File := Except String (List UInt8)

/-- Why a command fails. -/
inductive CommandError where
  | unreadable (path reason : String)
  | notCreated (path reason : String)
  | badRecord (row : Nat) (error : Csv.RecordError)
  | tooWide (path : String) (columns : Nat)
  | incompleteLink (row : Nat) (path : String)
  | badLinkCell (row : Nat) (path : String) (error : AddressError)
  | badAddress (error : AddressError)
  deriving DecidableEq

namespace CommandError

/-- What went wrong, and the cause if there is another one behind it. -/
def describe : CommandError → String × Option String
  | unreadable path reason => (s!"Failed to open '{path}'", some reason)
  | notCreated path reason => (s!"Failed to create '{path}'", some reason)
  | badRecord row error => (s!"Invalid CSV at row {row}", some error.message)
  | tooWide path columns =>
    (s!"'{path}' has {columns} columns; at most {columnLimit} are supported", none)
  | incompleteLink row path => (s!"Row {row} of '{path}' needs table,cell,value", none)
  | badLinkCell row path error => (s!"Row {row} of '{path}'", some error.message)
  | badAddress error => (error.message, none)

/-- A text with all its lines indented. -/
def indent (text : String) : String :=
  String.ofList ("    ".toList ++
    text.toList.flatMap fun c => if c = '\n' then "\n    ".toList else [c])

/-- The report of the error. -/
def report (e : CommandError) : String :=
  match e.describe with
  | (what, none) => "Error: " ++ what ++ "\n"
  | (what, some cause) => "Error: " ++ what ++ "\n\nCaused by:\n" ++ indent cause ++ "\n"

end CommandError

/-- The texts of the `number`-th record of a file, which stand in row `number + 1`. If a
number of fields is expected, there must be that many. -/
def rowTexts (input : List UInt8) (expected : Option Nat) (number : Nat) (r : Csv.Record) :
    Except CommandError (List String) :=
  (r.texts input number expected).mapError (.badRecord (number + 1))

/-- A grid with the given rows, as wide as the widest. -/
def gridOfRows (path : String) (rows : List (List String)) : Except CommandError Grid := do
  let columns := max 1 ((rows.map List.length).foldl max 0)
  if columns > columnLimit then throw (.tooWide path columns)
  let grid ← (Grid.ofSize (max 1 rows.length) columns).mapError .badAddress
  rows.zipIdx.foldlM (fun grid (fields, row) =>
    fields.zipIdx.foldlM (fun grid (field, column) =>
      (grid.setAt row column field).mapError .badAddress) grid) grid

/-- The grid in a CSV file. -/
def readGrid (path : String) (file : File) : Except CommandError Grid := do
  let input ← file.mapError (.unreadable path)
  let rows ← (Csv.read input).zipIdx.mapM fun (record, number) =>
    rowTexts input none number record
  gridOfRows path rows

/-- The value of a link in a row of a CSV file. -/
def readLink (path : String) (row : Nat) (fields : List String) :
    Except CommandError (Link × String) :=
  match fields with
  | table :: cell :: value :: _ => do
    let cell ← (Cell.ofText cell).mapError (.badLinkCell row path)
    return (⟨table, cell⟩, value)
  | _ => .error (.incompleteLink row path)

/-- The values of links in a CSV file. All records are as long as the first, and white
space around fields does not count. -/
def readLinks (path : String) (file : File) : Except CommandError LinkTable := do
  let input ← file.mapError (.unreadable path)
  let records := Csv.trimLater (Csv.read input)
  let expected := records.head?.map (·.fields.length)
  let rows ← records.zipIdx.mapM fun (record, number) => do
    let fields ← rowTexts input expected number record
    readLink path (number + 1) (fields.map fun s => String.ofList (Unicode.trim s.toList))
  return LinkTable.ofList rows

/-- The CSV text of what is shown for the grid in a file. -/
def evaluateGrid (path : String) (file : File) (links : Option (String × File))
    (options : Options) : Except CommandError String := do
  let grid ← readGrid path file
  let table ← match links with
    | some (path, file) => readLinks path file
    | none => pure .empty
  let sheet := (Sheet.ofGrid grid).withOptions options |>.withLinks table.source
  return Csv.write sheet.displayGrid.1

/-- The line of what is shown for a formula. -/
def evaluateFormula (formula : String) (options : Options) : Except CommandError String :=
  let shown : Except AddressError String := do
    let grid ← Grid.ofSize 1 1
    let sheet ← (Sheet.ofGrid grid).withOptions options |>.set "A1" formula
    return (← sheet.display "A1").1 ++ "\n"
  shown.mapError .badAddress

/-- What a command leaves behind. -/
structure Outcome where
  exitCode : Nat
  stdout : String
  stderr : String
  /-- The text for the output file, if there is one. -/
  written : Option String
  deriving DecidableEq

/-- The outcome of a command with the given result, which goes to the standard output or
to a file. -/
def Outcome.ofResult (result : Except CommandError String) (toFile : Bool) : Outcome :=
  match result with
  | .error e => ⟨1, "", e.report, none⟩
  | .ok text => if toFile then ⟨0, "", "", some text⟩ else ⟨0, text, "", none⟩

/-! ## Arguments -/

/-- What the arguments ask for. -/
inductive Request where
  | grid (input : String) (links output : Option String) (options : Options)
  | formula (text : String) (options : Options)
  deriving DecidableEq

/-- Arguments read so far. -/
structure Arguments where
  plain : List String := []
  links : Option String := none
  output : Option String := none
  textual : Bool := false
  noCache : Bool := false

/-- Reads arguments. Options stand anywhere up to two dashes; all else is plain. -/
def Arguments.read (a : Arguments) : List String → Option Arguments
  | [] => some a
  | "--" :: rest => some { a with plain := a.plain ++ rest }
  | "--links" :: path :: rest | "-l" :: path :: rest =>
    Arguments.read { a with links := some path } rest
  | "--output" :: path :: rest | "-o" :: path :: rest =>
    Arguments.read { a with output := some path } rest
  | "--textual" :: rest => Arguments.read { a with textual := true } rest
  | "--no-cache" :: rest => Arguments.read { a with noCache := true } rest
  | "--verbose" :: rest | "-v" :: rest => Arguments.read a rest
  | word :: rest =>
    if word.toList.head? = some '-' then none
    else Arguments.read { a with plain := a.plain ++ [word] } rest

/-- The settings that the arguments choose. -/
def Arguments.options (a : Arguments) : Options :=
  { pipeline := if a.textual then .textual else .grammar, cache := !a.noCache }

/-- What the arguments ask for, if they are complete. -/
def Request.ofArguments (arguments : List String) : Option Request := do
  let a ← Arguments.read {} arguments
  match a.plain with
  | ["eval", input] => some (.grid input a.links a.output a.options)
  | ["expr", text] =>
    if a.links.isSome || a.output.isSome || a.noCache then none
    else some (.formula text a.options)
  | _ => none

/-- How the program is called. -/
def usage : String :=
  "Usage: spreadsheet eval INPUT [--links FILE] [--output FILE] [--textual] [--no-cache]\n" ++
  "       spreadsheet expr FORMULA [--textual]\n"

end Spreadsheet.CommandLine
