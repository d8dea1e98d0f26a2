import Shipboard.Failure
import Shipboard.Text.Lines

/-!
# Fuel for the modules

A module needs fuel for its mass, and the fuel is a mass itself, which needs more fuel, until no
more is needed.

* `Fuel.forMass` is the fuel for a mass alone, `Fuel.inAll` counts the fuel for the fuel too;
* `Fuel.parseMasses` reads one mass per line;
* `Fuel.solve` adds up the fuel of all modules in both ways. Masses and sums are signed words of
  sixty-four bits, and a sum that leaves its word ends the computation.
-/

namespace Shipboard.Fuel

/-- The bits of a mass and of a sum of fuel. -/
def massBits : Nat := 64

/-- The fuel for a mass alone: a third of it, rounded towards zero, less two. -/
def forMass (mass : Int) : Int :=
  mass.tdiv 3 - 2

theorem forMass_toNat_lt {mass : Int} (h : 0 < forMass mass) :
    (forMass mass).toNat < mass.toNat := by
  unfold forMass at *
  rcases Int.lt_or_le mass 0 with hm | hm
  · have : mass.tdiv 3 ≤ 0 := by
      rw [← Int.neg_neg mass, Int.neg_tdiv]
      have := Int.tdiv_nonneg (a := -mass) (b := 3) (by omega) (by decide)
      omega
    omega
  · rw [Int.tdiv_eq_ediv_of_nonneg hm] at *
    omega

/-- The fuel for a mass, for that fuel, and so on, as long as more than nothing is needed. -/
def inAll (mass : Int) : Int :=
  if 0 < forMass mass then forMass mass + inAll (forMass mass) else 0
termination_by mass.toNat
decreasing_by exact forMass_toNat_lt (by assumption)

/-- Read one mass per line; blank lines do not count. -/
def parseMasses (text : String) : Except Fault (List Int) :=
  (Text.numberedLines text.toList).mapM fun (line, number) =>
    match Text.readSigned massBits (Text.trim line) with
    | .ok mass => .ok mass
    | .error why => .error (.misread number (.mass (String.ofList line) why))

/-- A sum every part of which, from the left, fits its word. -/
def total (values : List Int) : Except Failure Int :=
  values.foldlM (fun sum value => withinSigned massBits (sum + value)) 0

/-- The fuel for all modules, first without and then with the fuel for the fuel. -/
def solve (text : String) : Except Failure (Int × Int) := do
  let masses ← parseMasses text
  return (← total (masses.map forMass), ← total (masses.map inAll))

end Shipboard.Fuel
