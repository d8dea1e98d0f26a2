import Shipboard.Orbit.Chart

/-!
# Counting orbits and transfers

* `Chart.totalOrbits` counts the direct and the indirect orbits of a chart;
* `Chart.transfers` is the number of steps between the bodies that two bodies orbit;
* `Chart.solve` answers both questions, the second for the traveller and Santa if both are on the
  chart.
-/

namespace Shipboard.Chart

/-- The number of direct and indirect orbits. -/
def totalOrbits (c : Chart) : Nat :=
  (List.range c.size).foldl (fun total place => total + (c.ancestors place).length) 0

/-- The steps from the start of one list to the first member that is in another list too, and from
there to the start of the other. -/
def stepsAcross (start goal : List Nat) : Option Nat :=
  start.zipIdx.findSome? fun (body, steps) => (goal.idxOf? body).map (steps + ·)

/-- The number of transfers from the body that the one orbits to the body that the other orbits. -/
def transfers (c : Chart) (start goal : String) : Except Fault Nat := do
  let outward := c.ancestors (← c.place start)
  let inward := c.ancestors (← c.place goal)
  match stepsAcross outward inward with
  | some steps => return steps
  | none => throw (.unsolvable (.noCommonOrbit start goal))

/-- The name under which the traveller is on a chart. -/
def traveller : String := "YOU"

/-- The name under which Santa is on a chart. -/
def santa : String := "SAN"

/-- The number of orbits, and of transfers from the traveller to Santa if both are known. -/
def summary (c : Chart) : Except Fault (Nat × Option Nat) :=
  match c.place? traveller, c.place? santa with
  | some _, some _ => do return (c.totalOrbits, some (← c.transfers traveller santa))
  | _, _ => .ok (c.totalOrbits, none)

/-- Read a chart and count its orbits and the transfers to Santa. -/
def solve (text : String) : Except Fault (Nat × Option Nat) := do
  (← parse text).summary

end Shipboard.Chart
