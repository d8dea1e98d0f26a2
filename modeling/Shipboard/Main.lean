import Shipboard.CommandLine
import Shipboard.Image.Png
import Shipboard.Task

/-!
# The program

`main` reads the command line and does the task of the day that it names in the world outside. All
that is decided is decided by `CommandLine.parse` and `Task.run`; here files are read and written.
-/

namespace Shipboard

/-- More instructions than any task comes to. -/
def instructionBudget : Nat := 1000000000000000000

/-- How the program is used. -/
def usage : String :=
  "Usage: shipboard [OPTIONS] <DAY>\n\n" ++
  "  -i, --input <INPUT>    Read the input of the task from this file\n" ++
  "  -o, --output <OUTPUT>  Write the picture to this file (day 8 only)\n" ++
  "      --width <WIDTH>    Width of each image layer\n" ++
  "      --height <HEIGHT>  Height of each image layer\n" ++
  "  -d, --display          Also print the picture\n" ++
  "  -h, --help             Print this\n" ++
  "  -V, --version          Print the version\n"

/-- What the system reports about a file, as a fault. -/
def fileFault : IO.Error → FileTree.Fault
  | .noFileOrDirectory .. => .notFound
  | .inappropriateType _ code words =>
    if code = 21 ∨ 0 - code = 21 then .isADirectory
    else if code = 20 ∨ 0 - code = 20 then .notADirectory
    else .other code.toNat "Other" words
  | .permissionDenied _ code words => .other code.toNat "PermissionDenied" words
  | .resourceExhausted _ code words => .other code.toNat "StorageFull" words
  | e => .other 0 "Other" (toString e)

/-- Say why the program does not succeed. -/
def complain : Failure → IO Unit
  | .fault why => IO.eprintln s!"Error: {why.inFull}"
  | .outOfRange => IO.eprintln "Error: a value left its range"
  | .unfinished => IO.eprintln "Error: the program runs for too long"

/-- Do something with a file, and take what the system reports for a fault. -/
def withFile {α : Type} (act : IO α) : IO (Except FileTree.Fault α) := do
  try return .ok (← act)
  catch e => return .error (fileFault e)

/-- The world outside, with notes in the given detail. -/
def outside (detail : Option Level) : World IO where
  read path := do
    match ← withFile (IO.FS.readBinFile path) with
    | .error why => return .error why
    | .ok data =>
      match String.fromUTF8? data with
      | some text => return .ok text
      | none => return .error .notText
  print line := IO.println line
  note journal := do
    if let some detail := detail then
      for note in journal detail do
        IO.eprintln note.line
  save := Png.save fun path data => withFile (IO.FS.writeBinFile path data)

/-- The variable of the environment that names the detail in which notes are made. -/
def detailVariable : String := "SHIPBOARD_LOG"

/-- Do the task that a command line names, and give the exit code. -/
def program (arguments : List String) : IO UInt32 := do
  match CommandLine.parse arguments with
  | .error .versionWanted =>
    IO.println "shipboard 0.1.0"
    return 0
  | .error .helpWanted =>
    IO.print usage
    return 0
  | .error refusal =>
    IO.eprintln s!"error: {refusal.name}"
    IO.eprint usage
    return 2
  | .ok request =>
    let detail := (← IO.getEnv detailVariable).bind Level.ofName?
    match ← Task.run (outside detail) instructionBudget request.day request.settings with
    | .ok () => return 0
    | .error failure =>
      complain failure
      return 1

end Shipboard

/-- The entry point of the program. -/
def main (arguments : List String) : IO UInt32 :=
  Shipboard.program arguments
