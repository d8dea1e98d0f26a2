import Shipboard.Failure

/-!
# Layers of an image

A layer is a rectangle of digits, stored row by row.

* `Layer.digit` is the digit at a coordinate, `Layer.digits` are all digits in order;
* `Layer.count` and `Layer.checksum` count digits.
-/

namespace Shipboard

/-- Rows of digits, all of one length. -/
structure Layer where
  rows : List (List Nat)
  deriving DecidableEq, Repr

namespace Layer

/-- The number of digits in a row. -/
def width (l : Layer) : Nat :=
  match l.rows with
  | [] => 0
  | row :: _ => row.length

/-- The number of rows. -/
def height (l : Layer) : Nat :=
  l.rows.length

/-- The digit in a column of a row. A coordinate outside the layer has none. -/
def digit (l : Layer) (x y : Nat) : Except Failure Nat :=
  match l.rows[y]?.bind (·[x]?) with
  | some digit => .ok digit
  | none => .error .outOfRange

/-- All digits, row by row. -/
def digits (l : Layer) : List Nat :=
  l.rows.flatten

/-- How often a digit occurs. -/
def count (l : Layer) (digit : Nat) : Nat :=
  l.digits.count digit

/-- The bits of a count. -/
def countBits : Nat := 64

/-- The number of ones times the number of twos, if it fits the word of a count. -/
def checksum (l : Layer) : Except Failure Nat :=
  withinUnsigned countBits (l.count 1 * l.count 2)

end Layer

end Shipboard
