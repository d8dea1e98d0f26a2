import Shipboard.Computer.Job
import Shipboard.Computer.Program

/-!
# The diagnostic program

The diagnostic program is given the number of a system. It puts out the result of each of its tests,
which is zero if the test was passed, and then a diagnostic code.

* `Diagnostics.report` runs the program and parts the results from the code;
* `Diagnostics.code` gives the code, whatever the results;
* `Diagnostics.solve` gives the codes of the air conditioner and of the thermal radiator.
-/

namespace Shipboard.Diagnostics

/-- The number of the air conditioner. -/
def airConditioner : Int := 1

/-- The number of the thermal radiator's controller. -/
def thermalRadiator : Int := 5

/-- What the diagnostic program puts out. -/
structure Report where
  results : List Int
  code : Int
  deriving DecidableEq, Repr

/-- The number of tests that were not passed. -/
def Report.failures (r : Report) : Nat :=
  r.results.countP (· ≠ 0)

/-- Run the diagnostic program for a system. -/
def report (budget : Nat) (program : List Int) (system : Int) : Except Failure Report := do
  let outputs ← Computer.outputsOf budget program [system]
  match outputs.getLast? with
  | some code => return { results := outputs.dropLast, code }
  | none => Failure.because (.unsolvable (.silentSystem system))

/-- The code that the diagnostic program gives for a system. -/
def code (budget : Nat) (program : List Int) (system : Int) : Except Failure Int :=
  (report budget program system).map Report.code

/-- The codes of the air conditioner and of the thermal radiator. -/
def solve (budget : Nat) (text : String) : Except Failure (Int × Int) := do
  let program ← Computer.parseProgram text
  return (← code budget program airConditioner, ← code budget program thermalRadiator)

end Shipboard.Diagnostics
