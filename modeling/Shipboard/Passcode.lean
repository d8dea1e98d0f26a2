import Shipboard.Failure
import Shipboard.Text.Lines

/-!
# Passcodes

A passcode is a number of a known range whose digits follow some rules.

* `Passcode.digits` are the decimal digits of a number, the most significant first;
* `Passcode.isSorted`, `Passcode.hasPair` and `Passcode.hasExactPair` are the rules;
* `Passcode.parseRange` reads the range, whose upper end is not part of it;
* `Passcode.count` counts the numbers of a range that are sorted and follow one more rule.
-/

namespace Shipboard.Passcode

/-- The bits of an end of the range. -/
def boundBits : Nat := 32

/-- The decimal digits of a number, the most significant first. -/
def digits (n : Nat) : List Nat :=
  if n < 10 then [n] else digits (n / 10) ++ [n % 10]

/-- The pairs of neighbours in a list. -/
def neighbours (ds : List Nat) : List (Nat × Nat) :=
  ds.zip ds.tail

/-- No digit is less than the one in front of it. -/
def isSorted (n : Nat) : Bool :=
  (neighbours (digits n)).all fun (a, b) => a ≤ b

/-- Two neighbouring digits are equal. -/
def hasPair (n : Nat) : Bool :=
  (neighbours (digits n)).any fun (a, b) => a == b

/-- The digits in runs of equal ones, each as long as it can be. -/
def runs (n : Nat) : List (List Nat) :=
  (digits n).splitBy (· == ·)

/-- Some run of equal digits has exactly two of them. -/
def hasExactPair (n : Nat) : Bool :=
  (runs n).any fun run => run.length == 2

/-- A range of numbers; its upper end is not part of it. -/
structure Range where
  first : Nat
  stop : Nat
  deriving DecidableEq, Repr

namespace Range

/-- The numbers of a range, in order. -/
def numbers (r : Range) : List Nat :=
  List.range' r.first (r.stop - r.first)

/-- A range as it is written in a message. -/
def describe (r : Range) : String :=
  s!"{r.first}..{r.stop}"

end Range

/-- Read one end of a range. -/
def parseBound (text : List Char) : Except Fault Nat :=
  match Text.readUnsigned boundBits (Text.trim text) with
  | .ok bound => .ok bound
  | .error why => .error (.misread 1 (.bound (String.ofList text) why))

/-- Read a range from the first line of a text: its two ends with a hyphen between them. -/
def parseRange (text : String) : Except Fault Range :=
  let line := Text.trim ((Text.lines text.toList).headD [])
  match Text.splitOnce '-' line with
  | none => .error (.misread 1 (.range (String.ofList line)))
  | some (first, stop) => do
    return { first := ← parseBound first, stop := ← parseBound stop }

/-- How many numbers of a range are sorted and follow a rule. -/
def count (range : Range) (rule : Nat → Bool) : Nat :=
  range.numbers.countP fun n => isSorted n && rule n

/-- The number of passcodes that have a pair, and of those that have an exact pair. -/
def solve (text : String) : Except Fault (Nat × Nat) := do
  let range ← parseRange text
  return (count range hasPair, count range hasExactPair)

end Shipboard.Passcode
