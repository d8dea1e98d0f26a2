import Shipboard.Amplifier
import Shipboard.Boost
import Shipboard.Day
import Shipboard.Diagnostics
import Shipboard.Fuel
import Shipboard.GravityAssist
import Shipboard.Image.Picture
import Shipboard.Orbit.Transfer
import Shipboard.Passcode
import Shipboard.Settings
import Shipboard.Wire.Crossing

/-!
# Solvers

Every day has a solver, which gives the answers for the text of its input, or a failure.

* `Task.Answer` are the answers of a day and `Task.solve` is its solver.
-/

namespace Shipboard.Task

/-- An answer that can only end with a fault, beside those that can fail otherwise. -/
def orFault {α : Type} (answer : Except Fault α) : Except Failure α :=
  answer.mapError .fault

/-- The stream of digits in a text: all of it but the blanks at its ends. -/
def stream (text : String) : List Char :=
  Text.trim text.toList

/-- The layers that a text is cut into. -/
def layers (settings : Settings) (text : String) : Except Fault LayerStack :=
  LayerStack.split (stream text) settings.width settings.height

/-- The answers of a day. -/
def Answer : Day → Type
  | .fuel | .gravityAssist | .diagnostics | .boost => Int × Int
  | .wires | .passcodes => Nat × Nat
  | .orbits => Nat × Option Nat
  | .amplifiers => Amplifier.Amplified × Amplifier.Amplified
  | .image => Nat × Picture

/-- The solver of a day. That of the amplifiers keeps the phase settings that belong to a signal. -/
def solve (budget : Nat) (settings : Settings) (text : String) :
    (day : Day) → Except Failure (Answer day)
  | .fuel => Fuel.solve text
  | .gravityAssist => GravityAssist.solve budget text
  | .wires => Wire.solve text
  | .passcodes => (orFault (Passcode.solve text) : Except Failure (Nat × Nat))
  | .diagnostics => Diagnostics.solve budget text
  | .orbits => (orFault (Chart.solve text) : Except Failure (Nat × Option Nat))
  | .amplifiers => do
    let program ← Computer.parseProgram text
    let chain ← Amplifier.bestChain budget program
    let circle ← Amplifier.bestFeedback budget program
    return (chain, circle)
  | .image => do
    let stack ← layers settings text
    let checksum ← stack.checksum
    let picture ← stack.flatten
    return (checksum, picture)
  | .boost => Boost.solve budget text

end Shipboard.Task
