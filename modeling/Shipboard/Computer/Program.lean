import Shipboard.Fault
import Shipboard.Computer.Basic
import Shipboard.Text.Lines

/-!
# The text of a program

A program is written as the values of its cells, with commas between them. Blanks may stand around
the text and around each value.
-/

namespace Shipboard.Computer

/-- Read the value of one cell, the piece at the given place of a program's text. -/
def parseCell (piece : List Char) (place : Nat) : Except Shipboard.Fault Int :=
  match Text.readSigned cellBits (Text.trim piece) with
  | .ok value => .ok value
  | .error why => .error (.misread 1 (.cell (String.ofList piece) place why))

/-- Read a program. -/
def parseProgram (text : String) : Except Shipboard.Fault (List Int) :=
  ((Text.splitOn ',' (Text.trim text.toList)).zipIdx).mapM fun (piece, place) =>
    parseCell piece place

end Shipboard.Computer
