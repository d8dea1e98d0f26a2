/-!
# Points and regions of the grid

* A `Point` has two whole coordinates; its `Point.length` is the number of steps along the grid
  lines from the origin to it.
* A `Region` is a rectangle along the grid lines, its corners included, so that a straight run along
  one axis is a region too. Its corners are in order by its type.
* `Region.spanning` is the least region that holds two points, `Region.meet?` the region that two
  regions share, and `Region.points` lists a region's points row by row.
-/

namespace Shipboard

/-- A place on the grid, or a step from one place to another. -/
structure Point where
  x : Int
  y : Int
  deriving DecidableEq, Repr

namespace Point

/-- The place from which the others are measured. -/
def origin : Point := ⟨0, 0⟩

instance : Add Point := ⟨fun p q => ⟨p.x + q.x, p.y + q.y⟩⟩

instance : Sub Point := ⟨fun p q => ⟨p.x - q.x, p.y - q.y⟩⟩

@[simp] theorem add_x (p q : Point) : (p + q).x = p.x + q.x := rfl
@[simp] theorem add_y (p q : Point) : (p + q).y = p.y + q.y := rfl
@[simp] theorem sub_x (p q : Point) : (p - q).x = p.x - q.x := rfl
@[simp] theorem sub_y (p q : Point) : (p - q).y = p.y - q.y := rfl

/-- The number of steps along the grid lines. -/
def length (p : Point) : Nat :=
  p.x.natAbs + p.y.natAbs

end Point

/-- A rectangle along the grid lines, its corners included. -/
structure Region where
  /-- The corner with the least coordinates. -/
  low : Point
  /-- The corner with the greatest coordinates. -/
  high : Point
  x_le : low.x ≤ high.x
  y_le : low.y ≤ high.y
  deriving DecidableEq

namespace Region

/-- The least region that holds two points. -/
def spanning (p q : Point) : Region where
  low := ⟨min p.x q.x, min p.y q.y⟩
  high := ⟨max p.x q.x, max p.y q.y⟩
  x_le := by show min p.x q.x ≤ max p.x q.x; omega
  y_le := by show min p.y q.y ≤ max p.y q.y; omega

/-- A region holds the points between its corners. -/
def Holds (r : Region) (p : Point) : Prop :=
  r.low.x ≤ p.x ∧ p.x ≤ r.high.x ∧ r.low.y ≤ p.y ∧ p.y ≤ r.high.y

instance (r : Region) (p : Point) : Decidable (r.Holds p) := by
  unfold Holds; infer_instance

/-- The region that two regions share, if they share a point. -/
def meet? (r s : Region) : Option Region :=
  let low : Point := ⟨max r.low.x s.low.x, max r.low.y s.low.y⟩
  let high : Point := ⟨min r.high.x s.high.x, min r.high.y s.high.y⟩
  if h : low.x ≤ high.x ∧ low.y ≤ high.y then some ⟨low, high, h.1, h.2⟩ else none

/-- The number of points in a row. -/
def width (r : Region) : Nat :=
  (r.high.x - r.low.x).toNat + 1

/-- The number of rows. -/
def height (r : Region) : Nat :=
  (r.high.y - r.low.y).toNat + 1

/-- The first points of a region's first rows, row by row. -/
def block (r : Region) (columns rows : Nat) : List Point :=
  (List.range rows).flatMap fun (j : Nat) =>
    (List.range columns).map fun (i : Nat) => ⟨r.low.x + i, r.low.y + j⟩

/-- Every point of a region, row by row, each row from left to right. -/
def points (r : Region) : List Point :=
  r.block r.width r.height

/-- The first `n` points of a region, or all if there are fewer. No more than `n` rows and `n`
points of each are looked at. -/
def firstPoints (r : Region) (n : Nat) : List Point :=
  (r.block (min n r.width) (min n r.height)).take n

/-- A region by its two corners. -/
def describe (r : Region) : String :=
  s!"Rect(({r.low.x}, {r.low.y}) - ({r.high.x}, {r.high.y}))"

end Region

end Shipboard
