import Shipboard.Computer.Job
import Shipboard.Computer.Program

/-!
# The boost program

The boost program is given a mode and puts out one value. If the computer is at fault, it puts out
the numbers of the operations that do not work.

* `Boost.value` runs the program in a mode and gives its value;
* `Boost.solve` gives the values of the test mode and of the sensor boost mode.
-/

namespace Shipboard.Boost

/-- The mode in which the program tests the computer. -/
def testMode : Int := 1

/-- The mode in which the program boosts the sensors. -/
def sensorBoost : Int := 2

/-- The single value among a boost program's outputs. -/
def single (mode : Int) : List Int → Except Fault Int
  | [value] => .ok value
  | [] => .error (.unsolvable (.silentBoost mode))
  | faulty => .error (.unsolvable (.faultyOperations faulty.length mode))

/-- The value that the boost program puts out in a mode. -/
def value (budget : Nat) (program : List Int) (mode : Int) : Except Failure Int := do
  single mode (← Computer.outputsOf budget program [mode])

/-- The key code and the coordinates of the distress signal. -/
def solve (budget : Nat) (text : String) : Except Failure (Int × Int) := do
  let program ← Computer.parseProgram text
  return (← value budget program testMode, ← value budget program sensorBoost)

end Shipboard.Boost
