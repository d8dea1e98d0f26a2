import Shipboard.Failure
import Shipboard.Wire.Basic

/-!
# Where two wires cross

* `Wire.meetings` lists every point, the origin left out, that a segment of the one wire shares with
  a segment of the other, with the steps that both wires take to it on these segments;
* `Wire.crossings` is this list if every number of steps fits its word;
* `Wire.closest` and `Wire.fewestSteps` are the least distance from the origin and the least number
  of steps among some crossings;
* `Wire.solve` answers both questions for the two wires of a text.
-/

namespace Shipboard

/-- A point where two wires cross, with the steps that both take to it. -/
structure Crossing where
  point : Point
  steps : Nat
  deriving DecidableEq, Repr

/-- The distance of a crossing from the origin, along the grid lines. -/
def Crossing.distance (c : Crossing) : Nat :=
  (c.point - Point.origin).length

/-- The crossings of two segments, the origin left out. -/
def Segment.crossings (s t : Segment) : List Crossing :=
  match s.region.meet? t.region with
  | none => []
  | some shared =>
    (shared.points.filter (· ≠ Point.origin)).map fun p => ⟨p, s.stepsTo p + t.stepsTo p⟩

namespace Wire

/-- Every meeting of two wires, once for each pair of segments that meet there. -/
def meetings (a b : Wire) : List Crossing :=
  a.segments.flatMap fun s => b.segments.flatMap fun t => s.crossings t

/-- Every meeting of two wires whose numbers of steps can be added up in a word. -/
def crossings (a b : Wire) : Except Failure (List Crossing) :=
  let all := a.meetings b
  if all.all fun c => c.steps < lengthLimit then .ok all else .error .outOfRange

/-- The least distance from the origin to a crossing. -/
def closest (crossings : List Crossing) : Except Fault Nat :=
  match (crossings.map Crossing.distance).min? with
  | some distance => .ok distance
  | none => .error (.unsolvable .noCrossing)

/-- The least number of steps to a crossing. -/
def fewestSteps (crossings : List Crossing) : Except Fault Nat :=
  match (crossings.map Crossing.steps).min? with
  | some steps => .ok steps
  | none => .error (.unsolvable .noCrossing)

/-- The distance to the closest crossing of two wires, and the fewest steps to a crossing. -/
def solve (text : String) : Except Failure (Nat × Nat) := do
  let (a, b) ← parsePair text
  let crossings ← a.crossings b
  return (← closest crossings, ← fewestSteps crossings)

end Wire

end Shipboard
