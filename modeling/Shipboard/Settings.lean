import Shipboard.Text.Quoted
import Shipboard.Text.Record

/-!
# Settings

Where a task reads its input and writes its picture, and how large the layers of an image are.
-/

namespace Shipboard

/-- The settings of a task. -/
structure Settings where
  /-- The file that the input is read from. -/
  input : String := "./input"
  /-- The file that the picture is saved in, if it is to be saved. -/
  output : Option String := none
  /-- The width of a layer. -/
  width : Nat := 25
  /-- The height of a layer. -/
  height : Nat := 6
  /-- The picture is to be shown on the terminal too. -/
  display : Bool := false
  deriving DecidableEq, Repr

namespace Settings

/-- The settings of a day's task if nothing else is asked for. -/
def forDay : Nat → Settings
  | 1 => { input := "./inputs" }
  | 8 => { output := some "./out.png" }
  | _ => {}

/-- The settings as a note shows them. -/
def describe (s : Settings) : String :=
  let output := match s.output with
    | some path => Text.wrapped "Some" [Text.quoted path]
    | none => "None"
  Text.record "Config" [
    ("input", Text.quoted s.input),
    ("output", output),
    ("dimensions", "Vector2 " ++ Text.row [toString s.width, toString s.height]),
    ("display", Text.truth s.display)]

end Settings

end Shipboard
