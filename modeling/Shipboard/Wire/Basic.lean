import Shipboard.Fault
import Shipboard.Grid
import Shipboard.Text.Lines

/-!
# Wires on the grid

A wire starts at the origin and is laid move by move. A move is written as a letter for its
direction and a numeral for its distance, and moves are separated by commas.

* `Direction`, `Move` and `Move.parse` are the moves and how they are read;
* a `Segment` is the straight run of wire that one move lays, with the steps before it;
* `Wire.parse` reads the moves and lays the wire: coordinates are signed words of thirty-two bits
  and the number of steps along a wire is an unsigned word of sixty-four bits, and a move that
  leaves one of them is refused. Of two faults the one in the earlier move is reported.
-/

namespace Shipboard

/-- The four ways along the grid lines. -/
inductive Direction
  | up
  | down
  | left
  | right
  deriving DecidableEq, Repr

namespace Direction

/-- The letter that stands for a direction. -/
def letter : Direction → Char
  | up => 'U'
  | down => 'D'
  | left => 'L'
  | right => 'R'

/-- The direction that a letter stands for. -/
def ofLetter? : Char → Option Direction
  | 'U' => some up
  | 'D' => some down
  | 'L' => some left
  | 'R' => some right
  | _ => none

@[simp] theorem ofLetter?_letter (d : Direction) : ofLetter? d.letter = some d := by
  cases d <;> rfl

/-- So many steps in a direction. -/
def steps (d : Direction) (distance : Int) : Point :=
  match d with
  | up => ⟨0, distance⟩
  | down => ⟨0, -distance⟩
  | left => ⟨-distance, 0⟩
  | right => ⟨distance, 0⟩

end Direction

/-- A straight run of so many steps. -/
structure Move where
  direction : Direction
  distance : Nat
  deriving DecidableEq, Repr

namespace Move

/-- Where a move leads, seen from where it starts. -/
def offset (m : Move) : Point :=
  m.direction.steps m.distance

/-- The bits of a coordinate and of a distance. -/
def gridBits : Nat := 32

/-- Read a move. -/
def parse (text : List Char) : Except Misreading Move :=
  match text with
  | [] => .error (.direction "")
  | letter :: numeral =>
    match Direction.ofLetter? letter with
    | none => .error (.direction (String.ofList text))
    | some direction =>
      match Text.readSigned gridBits numeral with
      | .error why => .error (.distance (String.ofList text) why)
      | .ok distance =>
        if distance < 0 then .error (.negativeDistance (String.ofList text))
        else .ok ⟨direction, distance.toNat⟩

end Move

/-- A straight run of wire, along one axis. -/
structure Segment where
  start : Point
  finish : Point
  /-- The number of steps along the wire to the start. -/
  before : Nat
  deriving DecidableEq, Repr

namespace Segment

/-- The points that a segment goes through. -/
def region (s : Segment) : Region :=
  Region.spanning s.start s.finish

/-- The number of steps along the whole wire to a point on the segment. -/
def stepsTo (s : Segment) (p : Point) : Nat :=
  s.before + (p - s.start).length

end Segment

/-- A wire as the connected segments that it is laid in. -/
structure Wire where
  segments : List Segment
  deriving DecidableEq, Repr

namespace Wire

/-- A point whose coordinates fit their words. -/
def onGrid (p : Point) : Bool :=
  Text.fitsSigned Move.gridBits p.x && Text.fitsSigned Move.gridBits p.y

/-- The bits of a number of steps. -/
def stepBits : Nat := 64

/-- The least number of steps that is too great. -/
def lengthLimit : Nat := Text.wordCount stepBits

/-- Read moves and lay a segment for each, from a point that a number of steps leads to. -/
def layFrom (start : Point) (before : Nat) : List (List Char) → Except Misreading (List Segment)
  | [] => .ok []
  | text :: texts => do
    let move ← Move.parse text
    let finish := start + move.offset
    if !onGrid finish then
      throw (.offTheGrid (String.ofList text))
    if lengthLimit ≤ before + move.distance then
      throw .wireTooLong
    let segments ← layFrom finish (before + move.distance) texts
    return ⟨start, finish, before⟩ :: segments

/-- The texts of the moves of a wire. -/
def moveTexts (text : List Char) : List (List Char) :=
  (Text.splitOn ',' (Text.trim text)).map Text.trim

/-- Read a wire from a line of which the number is known. -/
def parseLine (text : List Char) (line : Nat) : Except Fault Wire :=
  match layFrom Point.origin 0 (moveTexts text) with
  | .ok segments => .ok ⟨segments⟩
  | .error why => .error (.misread line why)

/-- Read a wire from a text, which is said to be the line with the given number. -/
def parse (text : String) (line : Nat) : Except Fault Wire :=
  parseLine text.toList line

/-- Read two wires from the first two lines that are not blank. -/
def parsePair (text : String) : Except Fault (Wire × Wire) :=
  match Text.numberedLines text.toList with
  | [] => .error (.misread 1 .missingWire)
  | (first, number) :: others => do
    let a ← parseLine first number
    match others with
    | [] => throw (.misread 2 .missingWire)
    | (second, number) :: _ => return (a, ← parseLine second number)

end Wire

end Shipboard
