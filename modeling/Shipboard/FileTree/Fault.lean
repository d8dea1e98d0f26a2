import Shipboard.Text.Quoted
import Shipboard.Text.Record

/-!
# Faults of the file tree

Why a file cannot be read or made. Most of them have a number by which they are known.
-/

namespace Shipboard.FileTree

/-- Why a file cannot be read or made. -/
inductive Fault
  /-- There is no such file, or no such directory on the way to it. -/
  | notFound
  /-- Something on the way to the file is a file itself. -/
  | notADirectory
  /-- What was to be read or overwritten is a directory. -/
  | isADirectory
  /-- A name has too many bytes. -/
  | nameTooLong
  /-- A name holds the character that ends names. -/
  | nulInName
  /-- The bytes of the file are no text. -/
  | notText
  /-- Anything else that the system reports, by its number, its class and its words. -/
  | other (number : Nat) (kind words : String)
  deriving DecidableEq, Repr

namespace Fault

/-- The number of a fault, if it has one. -/
def number? : Fault → Option Nat
  | notFound => some 2
  | notADirectory => some 20
  | isADirectory => some 21
  | nameTooLong => some 36
  | nulInName | notText => none
  | other number _ _ => some number

/-- The class of a fault. -/
def kind : Fault → String
  | notFound => "NotFound"
  | notADirectory => "NotADirectory"
  | isADirectory => "IsADirectory"
  | nameTooLong => "InvalidFilename"
  | nulInName => "InvalidInput"
  | notText => "InvalidData"
  | other _ kind _ => kind

/-- What is wrong, in words. -/
def words : Fault → String
  | notFound => "No such file or directory"
  | notADirectory => "Not a directory"
  | isADirectory => "Is a directory"
  | nameTooLong => "File name too long"
  | nulInName => "file name contained an unexpected NUL byte"
  | notText => "stream did not contain valid UTF-8"
  | other _ _ words => words

/-- The wording of a fault, with its number. -/
def message (fault : Fault) : String :=
  match fault.number? with
  | some n => s!"{fault.words} (os error {n})"
  | none => fault.words

/-- A fault with all that is known of it. -/
def inFull (fault : Fault) : String :=
  match fault.number? with
  | some n =>
    Text.record "Os" [("code", toString n), ("kind", fault.kind),
      ("message", Text.quoted fault.words)]
  | none =>
    Text.record "Error" [("kind", fault.kind), ("message", Text.quoted fault.words)]

end Fault

end Shipboard.FileTree
