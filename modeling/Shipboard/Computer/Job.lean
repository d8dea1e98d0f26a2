import Shipboard.Computer.Run
import Shipboard.Failure

/-!
# Computers at work

A computation that starts computers goes on with what they leave, or fails with their fault.

* `Computer.finish` runs a computer until it halts;
* `Computer.proceed` runs it until it halts or waits for an input, and tells which;
* `Computer.outputsOf` is what a program puts out, given its inputs.
-/

namespace Shipboard.Computer

/-- Run a computer until it halts. -/
def finish (budget : Nat) (c : Computer) : Except Failure Computer :=
  match c.runToHalt budget with
  | none => .error .unfinished
  | some ⟨.failed why, _⟩ => Failure.because (.computer why)
  | some ⟨_, computer⟩ => .ok computer

/-- Run a computer until it halts or waits for an input; the flag tells whether it has halted. -/
def proceed (budget : Nat) (c : Computer) : Except Failure (Computer × Bool) :=
  match c.run budget with
  | none => .error .unfinished
  | some ⟨.failed why, _⟩ => Failure.because (.computer why)
  | some ⟨.halted, computer⟩ => .ok (computer, true)
  | some ⟨.needsInput, computer⟩ => .ok (computer, false)

/-- Everything that a program puts out until it halts, given its inputs. -/
def outputsOf (budget : Nat) (program inputs : List Int) : Except Failure (List Int) := do
  let computer ← ((load program).feedAll inputs).finish budget
  return computer.outputs.toList

end Shipboard.Computer
