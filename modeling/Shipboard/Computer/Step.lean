import Shipboard.Computer.Basic
import Shipboard.Computer.Instruction

/-!
# One instruction

The next instruction is first worked out, which reads the computer and changes nothing, and then
carried out, which cannot fail.

* `fetch` reads the instruction at the current position;
* `effect` works out what it does: every operand is read before anything is written;
* `perform` carries an effect out;
* `step` puts the three together. A computer `rests` when it has halted, when it has to wait for an
  input, or when the instruction is at fault.

An instruction that is at fault leaves the computer as it was, with one exception: an input
instruction that has nowhere to put its value has used the value up.
-/

namespace Shipboard.Computer

/-- The instruction at the current position. -/
def fetch (c : Computer) : Except Fault Instruction :=
  match c.memory[c.position]? with
  | none => .error (.outOfBounds c.position)
  | some word => Instruction.decode word c.position

/-- A value that a cell can hold, as the result of the current instruction. -/
def checked (c : Computer) (v : Int) : Except Fault Int :=
  if fits v then .ok v else .error (.overflow c.position)

/-- The address that a parameter denotes. A parameter that is taken as a value denotes itself when
something is to be written there. -/
def address (c : Computer) (mode : Mode) (n : Nat) : Except Fault Int :=
  match mode with
  | .relative => do c.checked (c.base + (← c.parameter n))
  | .position | .immediate => c.parameter n

/-- The value that a parameter denotes. -/
def operand (c : Computer) (mode : Mode) (n : Nat) : Except Fault Int :=
  match mode with
  | .immediate => c.parameter n
  | .position | .relative => do c.read (← c.address mode n)

/-- The cell that a parameter denotes as the place of a result. -/
def target (c : Computer) (mode : Mode) (n : Nat) : Except Fault Nat := do
  cell (← c.address mode n)

/-- What a completed instruction does. -/
inductive Effect
  /-- Stop for good. -/
  | halt
  /-- Stop until there is an input. -/
  | wait
  /-- Put a result into a cell. -/
  | store (index : Nat) (value : Int)
  /-- Put the next input into a cell. -/
  | receive (index : Nat) (value : Int)
  /-- Put a value out. -/
  | emit (value : Int)
  /-- Set the base. -/
  | rebase (base : Int)
  /-- Go on at a position. -/
  | jump (position : Nat)
  /-- Go on behind the instruction. -/
  | pass
  deriving DecidableEq, Repr

/-- What an instruction at the current position does. -/
def effect (c : Computer) (i : Instruction) : Except Fault Effect :=
  match i.operation with
  | .halt => .ok .halt
  | .add => do
    let result ← c.checked ((← c.operand i.first 0) + (← c.operand i.second 1))
    return .store (← c.target i.third 2) result
  | .multiply => do
    let result ← c.checked ((← c.operand i.first 0) * (← c.operand i.second 1))
    return .store (← c.target i.third 2) result
  | .lessThan => do
    let left ← c.operand i.first 0
    let right ← c.operand i.second 1
    return .store (← c.target i.third 2) (if left < right then 1 else 0)
  | .equals => do
    let left ← c.operand i.first 0
    let right ← c.operand i.second 1
    return .store (← c.target i.third 2) (if left = right then 1 else 0)
  | .input =>
    match c.inputs with
    | [] => .ok .wait
    | value :: _ => do return .receive (← c.target i.first 0) value
  | .output => do return .emit (← c.operand i.first 0)
  | .jumpIfTrue => do
    let test ← c.operand i.first 0
    let goal ← c.operand i.second 1
    if test ≠ 0 then return .jump (← cell goal) else return .pass
  | .jumpIfFalse => do
    let test ← c.operand i.first 0
    let goal ← c.operand i.second 1
    if test = 0 then return .jump (← cell goal) else return .pass
  | .adjustBase => do return .rebase (← c.checked (c.base + (← c.operand i.first 0)))

/-- Why a computer is at rest. -/
inductive Ending
  /-- It is at a halt instruction, where it stays. -/
  | halted
  /-- It is at an input instruction and has no input left; with more input it goes on from there. -/
  | needsInput
  /-- The instruction it is at cannot be completed. -/
  | failed (fault : Fault)
  deriving DecidableEq, Repr

/-- A computer at rest. -/
structure Rest where
  ending : Ending
  computer : Computer
  deriving DecidableEq, Repr

/-- What comes of one instruction. -/
inductive Step
  | runs (computer : Computer)
  | rests (rest : Rest)
  deriving DecidableEq, Repr

/-- Go on behind an instruction that has so many parameters. -/
def advance (c : Computer) (arity : Nat) : Computer :=
  { c with position := c.position + 1 + arity }

/-- Carry out the effect of an instruction that has so many parameters. -/
def perform (c : Computer) (arity : Nat) : Effect → Step
  | .halt => .rests ⟨.halted, c⟩
  | .wait => .rests ⟨.needsInput, c⟩
  | .store index value => .runs ((c.store index value).advance arity)
  | .receive index value =>
    .runs (({ c with inputs := c.inputs.tail }.store index value).advance arity)
  | .emit value => .runs ({ c with outputs := c.outputs.push value }.advance arity)
  | .rebase base => .runs ({ c with base }.advance arity)
  | .jump position => .runs { c with position }
  | .pass => .runs (c.advance arity)

/-- The computer that is left when an instruction is at fault. -/
def abandon (c : Computer) (operation : Operation) : Computer :=
  if operation = .input then { c with inputs := c.inputs.tail } else c

/-- Execute the next instruction. -/
def step (c : Computer) : Step :=
  match c.fetch with
  | .error fault => .rests ⟨.failed fault, c⟩
  | .ok i =>
    match c.effect i with
    | .error fault => .rests ⟨.failed fault, c.abandon i.operation⟩
    | .ok effect => c.perform i.operation.arity effect

end Shipboard.Computer
