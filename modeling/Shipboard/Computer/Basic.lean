import Shipboard.Computer.Fault
import Shipboard.Text.Numeral

/-!
# The computer and its memory

A computer holds one list of cells, which is both its program and its working memory, the position
of the next instruction, a base for relative addresses, the inputs that wait to be read and the
outputs that have not been taken yet.

* `Computer.load` makes a computer from a program;
* `read` and `write` reach one cell by its address: cells past the end of memory hold zero, and
  memory grows when one of them is written;
* `feed`, `feedAll` and `takeOutputs` are the two ends of the wire to the outside.

A cell holds a signed word of sixty-four bits. Addresses from `memoryLimit` on are refused, so that
no program can ask for more memory than there is.
-/

namespace Shipboard

/-- A computer between two instructions. -/
structure Computer where
  /-- The cells that have been loaded or written so far. -/
  memory : Array Int
  /-- Where the next instruction stands. -/
  position : Nat := 0
  /-- What relative addresses count from. -/
  base : Int := 0
  /-- The values that wait to be read, the next one first. -/
  inputs : List Int := []
  /-- The values put out and not taken yet, in order. -/
  outputs : Array Int := #[]
  deriving DecidableEq, Repr

namespace Computer

/-- The bits of a cell. -/
def cellBits : Nat := 64

/-- The least value of a cell. -/
def leastValue : Int := Text.leastSigned cellBits

/-- The greatest value of a cell. -/
def greatestValue : Int := Text.greatestSigned cellBits

/-- A value that a cell can hold. -/
def fits (v : Int) : Bool :=
  leastValue ≤ v && v ≤ greatestValue

theorem fits_eq (v : Int) : fits v = Text.fitsSigned cellBits v := rfl

/-- Addresses at or beyond this, which is two to the power of twenty-four, are refused. -/
def memoryLimit : Nat := 16777216

/-- A computer that has a program in its memory and has not run yet. -/
def load (program : List Int) : Computer where
  memory := program.toArray

/-! ### Cells -/

/-- The cell that an address denotes. -/
def cell (address : Int) : Except Fault Nat :=
  if 0 ≤ address ∧ address < memoryLimit then .ok address.toNat
  else .error (.outOfBounds address)

/-- The value of a cell; past the end of memory it is zero. -/
def value (c : Computer) (index : Nat) : Int :=
  c.memory.getD index 0

/-- The value at an address. -/
def read (c : Computer) (address : Int) : Except Fault Int :=
  (cell address).map c.value

/-- Overwrite one cell, after zeros up to it if it is past the end of memory. -/
def store (c : Computer) (index : Nat) (value : Int) : Computer :=
  if h : index < c.memory.size then
    { c with memory := c.memory.set index value }
  else
    { c with memory := (c.memory ++ Array.replicate (index - c.memory.size) 0).push value }

/-- Overwrite the value at an address. -/
def write (c : Computer) (address value : Int) : Except Fault Computer :=
  (cell address).map fun index => c.store index value

/-! ### Inputs and outputs -/

/-- Queue a value behind the inputs that wait already. -/
def feed (c : Computer) (value : Int) : Computer :=
  { c with inputs := c.inputs ++ [value] }

/-- Queue values behind the inputs that wait already. -/
def feedAll (c : Computer) (values : List Int) : Computer :=
  { c with inputs := c.inputs ++ values }

/-- The computer once its outputs have been taken. -/
def takeOutputs (c : Computer) : Computer :=
  { c with outputs := #[] }

/-! ### Parameters of the next instruction -/

/-- A parameter exactly as it is written, counted from zero. -/
def parameter (c : Computer) (n : Nat) : Except Fault Int :=
  c.read (c.position + 1 + n : Nat)

end Computer

end Shipboard
