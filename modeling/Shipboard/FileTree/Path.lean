import Shipboard.FileTree.Fault
import Shipboard.Text.Lines

/-!
# Paths

A path is the names on the way to a file, with strokes between them. Strokes in a row count as one.
-/

namespace Shipboard.FileTree

/-- The way to a file. -/
structure Path where
  /-- The way starts at the root of all files, and not in the working directory. -/
  fromRoot : Bool
  names : List String
  /-- A stroke at the end asks for a directory. -/
  toDirectory : Bool
  deriving DecidableEq, Repr

namespace Path

/-- The greatest number of bytes in a path. -/
def lengthLimit : Nat := 4095

/-- The greatest number of bytes in a name. -/
def nameLimit : Nat := 255

/-- Read a path. -/
def parse (text : String) : Except Fault Path :=
  let cs := text.toList
  if '\x00' ∈ cs then .error .nulInName
  else if cs.isEmpty then .error .notFound
  else if lengthLimit < text.utf8ByteSize then .error .nameTooLong
  else .ok {
    fromRoot := cs.head? = some '/'
    names := ((Text.splitOn '/' cs).filter (!·.isEmpty)).map String.ofList
    toDirectory := cs.getLast? = some '/' }

/-- The name of the file that is to be written at a path. -/
def fileName (path : Path) : Except Fault String :=
  match path.names.getLast? with
  | none => .error .isADirectory
  | some name =>
    if path.toDirectory || name = "." || name = ".." then .error .isADirectory
    else if nameLimit < name.utf8ByteSize then .error .nameTooLong
    else .ok name

/-- What follows the last full stop of the last name on a path, unless the name starts with it. -/
def extension? (path : Path) : Option String := do
  let (tail, front) := (← path.names.getLast?).toList.reverse.span (· ≠ '.')
  match front with
  | [] | [_] => none
  | _ => some (String.ofList tail.reverse)

end Path

end Shipboard.FileTree
