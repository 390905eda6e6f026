import PocketPascal.CommandLine

/-!
# The program

Reads the command line and, if the command needs one, a file; writes the report.
-/

namespace PocketPascal

/-- The text of a file; none if it cannot be read or is not encoded as text. -/
def readText (path : String) : IO (Option String) := do
  try
    return String.fromUTF8? (← IO.FS.readBinFile path)
  catch _ =>
    return none

/-- The text of the file that a command line asks for. -/
def requestedText (args : List String) : IO (Option String) := do
  match CommandLine.command? args with
  | some (.run i) =>
      match i.path? with
      | some path => readText path
      | none => return none
  | _ => return none

end PocketPascal

open PocketPascal in
/-- Runs the program on its arguments. -/
def main (args : List String) : IO UInt32 := do
  let text ← requestedText args
  let report := CommandLine.report args fun _ => text
  (← IO.getStdout).putStr report.output
  (← IO.getStderr).putStr report.errors
  return report.status.toUInt32
