/-!
# Faults of the computer

What can be wrong with a program while it runs. Each fault but one names the position of the
instruction that could not be completed; a bad address is named itself.
-/

namespace Shipboard.Computer

/-- Why an instruction cannot be completed. -/
inductive Fault
  /-- The word is no instruction, whatever its parameter modes. -/
  | unknownOperation (word : Int) (position : Nat)
  /-- One of the three mode digits is not in use. -/
  | invalidMode (digit : Int) (position : Nat)
  /-- No cell has this address. -/
  | outOfBounds (address : Int)
  /-- A result does not fit a cell. -/
  | overflow (position : Nat)
  /-- The inputs are used up, where the program was to run until it halts. -/
  | missingInput (position : Nat)
  deriving DecidableEq, Repr

/-- The wording of a fault. -/
def Fault.message : Fault → String
  | .unknownOperation word position => s!"Unknown opcode {word} at position {position}"
  | .invalidMode digit position => s!"Unknown parameter mode {digit} at position {position}"
  | .outOfBounds address => s!"Address {address} is out of bounds"
  | .overflow position => s!"Arithmetic overflow at position {position}"
  | .missingInput position => s!"Program needs more input at position {position}"

/-- The position that a fault carries, if it carries one. -/
def Fault.position? : Fault → Option Nat
  | .unknownOperation _ position => some position
  | .invalidMode _ position => some position
  | .outOfBounds _ => none
  | .overflow position => some position
  | .missingInput position => some position

end Shipboard.Computer
