import Spreadsheet.CommandLine
/-!
# The program

Reads the files that the command line names, runs the command and writes what
it leaves behind.
-/

namespace Spreadsheet.CommandLine

/-- What is said of a file that cannot be used. -/
def reasonOf : IO.Error → String
  | .noFileOrDirectory .. => "No such file or directory (os error 2)"
  | .permissionDenied .. => "Permission denied (os error 13)"
  | e => e.toString

/-- The content of a file. -/
def readFile (path : String) : IO File := do
  try
    return .ok (← IO.FS.readBinFile path).toList
  catch e => return .error (reasonOf e)

/-- The outcome of a request. A file for the output is made only when there is something
to write. -/
def perform : Request → IO Outcome
  | .formula text options => return .ofResult (evaluateFormula text options) false
  | .grid input links output options => do
    let file ← readFile input
    let links ← links.mapM fun path => do return (path, ← readFile path)
    let result := evaluateGrid input file links options
    match output, result with
    | some path, .ok text =>
      try
        IO.FS.writeFile path text
        return .ofResult result true
      catch e => return .ofResult (.error (.notCreated path (reasonOf e))) true
    | _, _ => return .ofResult result false

/-- Runs the command that the arguments ask for. -/
def runArguments (arguments : List String) : IO UInt32 := do
  match Request.ofArguments arguments with
  | none =>
    (← IO.getStderr).putStr usage
    return 2
  | some request =>
    let outcome ← perform request
    (← IO.getStdout).putStr outcome.stdout
    (← IO.getStderr).putStr outcome.stderr
    return outcome.exitCode.toUInt32

end Spreadsheet.CommandLine

def main (arguments : List String) : IO UInt32 :=
  Spreadsheet.CommandLine.runArguments arguments
