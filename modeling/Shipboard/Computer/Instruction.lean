import Shipboard.Computer.Fault

/-!
# Instruction words

An instruction is one word of the program: its last two decimal digits say what to do, and the
three digits in front of them, from right to left, how the first, the second and the third
parameter are to be taken.

* `Operation` is what an instruction does, with its `code` and its number of parameters;
* `Mode` is how a parameter is taken, with its `digit`;
* `Instruction.word` writes an instruction as a word and `Instruction.decode` reads it back.
-/

namespace Shipboard.Computer

/-- What an instruction does. -/
inductive Operation
  | add
  | multiply
  | input
  | output
  | jumpIfTrue
  | jumpIfFalse
  | lessThan
  | equals
  | adjustBase
  | halt
  deriving DecidableEq, Repr

namespace Operation

/-- The number that stands for an operation. -/
def code : Operation → Int
  | add => 1
  | multiply => 2
  | input => 3
  | output => 4
  | jumpIfTrue => 5
  | jumpIfFalse => 6
  | lessThan => 7
  | equals => 8
  | adjustBase => 9
  | halt => 99

/-- The operation that a number stands for. -/
def ofCode? : Int → Option Operation
  | 1 => some add
  | 2 => some multiply
  | 3 => some input
  | 4 => some output
  | 5 => some jumpIfTrue
  | 6 => some jumpIfFalse
  | 7 => some lessThan
  | 8 => some equals
  | 9 => some adjustBase
  | 99 => some halt
  | _ => none

@[simp] theorem ofCode?_code (operation : Operation) : ofCode? operation.code = some operation := by
  cases operation <;> rfl

theorem code_of_ofCode? {n : Int} {operation : Operation} (h : ofCode? n = some operation) :
    operation.code = n := by
  unfold ofCode? at h
  split at h <;> cases h <;> rfl

/-- How many parameters follow the instruction's word. -/
def arity : Operation → Nat
  | halt => 0
  | input | output | adjustBase => 1
  | jumpIfTrue | jumpIfFalse => 2
  | add | multiply | lessThan | equals => 3

/-- The name of an operation in a trace. -/
def name : Operation → String
  | add => "Add"
  | multiply => "Mul"
  | input => "Input"
  | output => "Output"
  | jumpIfTrue => "JumpIfTrue"
  | jumpIfFalse => "JumpIfFalse"
  | lessThan => "LessThan"
  | equals => "Equals"
  | adjustBase => "AdjustBase"
  | halt => "Halt"

end Operation

/-- How a parameter is taken. -/
inductive Mode
  /-- The parameter is an address. -/
  | position
  /-- The parameter is the value itself. -/
  | immediate
  /-- The parameter is an address that counts from the computer's base. -/
  | relative
  deriving DecidableEq, Repr

namespace Mode

/-- The digit that stands for a mode. -/
def digit : Mode → Int
  | position => 0
  | immediate => 1
  | relative => 2

/-- The mode that a digit stands for. -/
def ofDigit? : Int → Option Mode
  | 0 => some position
  | 1 => some immediate
  | 2 => some relative
  | _ => none

@[simp] theorem ofDigit?_digit (mode : Mode) : ofDigit? mode.digit = some mode := by
  cases mode <;> rfl

theorem digit_of_ofDigit? {n : Int} {mode : Mode} (h : ofDigit? n = some mode) :
    mode.digit = n := by
  unfold ofDigit? at h
  split at h <;> cases h <;> rfl

/-- Read a mode's digit, in an instruction at the given position. -/
def ofDigit (n : Int) (place : Nat) : Except Fault Mode :=
  match ofDigit? n with
  | some mode => .ok mode
  | none => .error (.invalidMode n place)

/-- The name of a mode in a trace. -/
def name : Mode → String
  | position => "Position"
  | immediate => "Immediate"
  | relative => "Relative"

end Mode

/-- An operation with the modes of its first, second and third parameter. An operation that has
fewer parameters carries the other modes without a use for them. -/
structure Instruction where
  operation : Operation
  first : Mode
  second : Mode
  third : Mode
  deriving DecidableEq, Repr

namespace Instruction

/-- The word that an instruction is written as. -/
def word (i : Instruction) : Int :=
  i.operation.code + 100 * i.first.digit + 1000 * i.second.digit + 10000 * i.third.digit

/-- Words from here on have more digits than an instruction. -/
def wordLimit : Int := 100000

/-- The operation that a word asks for. -/
def operation? (word : Int) : Option Operation :=
  if 0 ≤ word ∧ word < wordLimit then Operation.ofCode? (word % 100) else none

/-- Read the word at the given position as an instruction. A word without an operation is reported
before a bad mode, and of the bad modes the first. -/
def decode (word : Int) (position : Nat) : Except Fault Instruction :=
  match operation? word with
  | none => .error (.unknownOperation word position)
  | some operation => do
    let first ← Mode.ofDigit (word / 100 % 10) position
    let second ← Mode.ofDigit (word / 1000 % 10) position
    let third ← Mode.ofDigit (word / 10000 % 10) position
    return { operation, first, second, third }

/-- An instruction as a trace shows it. -/
def describe (i : Instruction) : String :=
  s!"{i.operation.name} [{i.first.name}, {i.second.name}, {i.third.name}]"

end Instruction

end Shipboard.Computer
