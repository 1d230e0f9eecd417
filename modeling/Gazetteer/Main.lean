import Gazetteer.Command

/-!
# The program

Runs a command line over the files it names.  Snapshots are read unpacked.  Help and usage
are short, errors go to the error stream, and the exit code tells success, failure and
misuse apart.
-/

namespace Gazetteer.Program

/-- How the program is called. -/
def usage : String :=
  "Usage: query [--config FILE] [--snapshot FILE] <COMMAND>\n\n" ++
  "Commands:\n" ++
  "  serve    Run the HTTP server\n" ++
  "  reverse  Resolve one coordinate and print the result as JSON\n" ++
  "  help     Print this message\n"

/-- The text of a file, if it can be read. -/
def readText (path : String) : IO (Option String) :=
  try
    return some (← IO.FS.readFile path)
  catch _ => return none

/-- The snapshot in a file. -/
def readSnapshot (path : String) : IO SnapshotFile := do
  match ← readText path with
  | none => return .missing
  | some text => return .text text

/-- Files on disk. -/
def files : Command.Files IO := ⟨readText, readSnapshot⟩

/-- Stop with a message. -/
def fail (message : String) : IO UInt32 := do
  IO.eprintln ("Error: " ++ message)
  return 1

/-- Show how a run ended. -/
def conclude : Command.Outcome → IO UInt32
  | .printed text => do
    IO.println text
    return 0
  | .failed message => fail message
  | .served endpoint _ _ => fail ("cannot listen on " ++ endpoint)
  | .help => do
    IO.print usage
    return 0
  | .misused => do
    IO.eprint usage
    return 2

end Gazetteer.Program

/-- Run the command line. -/
def main (words : List String) : IO UInt32 := do
  Gazetteer.Program.conclude (← Gazetteer.Command.run Gazetteer.Program.files words)
