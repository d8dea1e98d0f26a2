import Mathlib.Data.Set.Basic
import Mathlib.Tactic
import Shipboard.Proofs.Grid

/-!
# Regions as sets of points

A region is known by the points that it holds, so that what is true of sets of points is true of
regions, too.

* `Region.cover` is the set of points of a region, or of the want of one; `Region.cover_injective`
  says that no two regions have the same set;
* `Region.cover_meet?` and `Region.cover_bind_meet?`: what regions share covers what their sets have
  in common;
* `Region.meet?_of_corners`: the points of a region that is given by two corners, and the laws of
  sharing.
-/

namespace Shipboard

theorem Point.Precedes.ne {p q : Point} (h : p.Precedes q) : p ≠ q := by
  rintro rfl
  rw [Point.Precedes] at h
  omega

namespace Region

variable {r s : Region} {p q c : Point}

/-! ### The points of a region -/

theorem holds_low (r : Region) : r.Holds r.low :=
  ⟨le_rfl, r.x_le, le_rfl, r.y_le⟩

theorem holds_high (r : Region) : r.Holds r.high :=
  ⟨r.x_le, le_rfl, r.y_le, le_rfl⟩

/-- Regions that hold the same points have the same corners. -/
theorem eq_of_holds (h : ∀ p, r.Holds p ↔ s.Holds p) : r = s := by
  have hlow := (h r.low).1 r.holds_low
  have hlow' := (h s.low).2 s.holds_low
  have hhigh := (h r.high).1 r.holds_high
  have hhigh' := (h s.high).2 s.holds_high
  obtain ⟨⟨lx, ly⟩, ⟨hx, hy⟩, _, _⟩ := r
  obtain ⟨⟨lx', ly'⟩, ⟨hx', hy'⟩, _, _⟩ := s
  simp only [Holds] at hlow hlow' hhigh hhigh'
  obtain rfl : lx = lx' := by omega
  obtain rfl : ly = ly' := by omega
  obtain rfl : hx = hx' := by omega
  obtain rfl : hy = hy' := by omega
  rfl

theorem nodup_points (r : Region) : r.points.Nodup :=
  pairwise_points.imp Point.Precedes.ne

theorem length_points (r : Region) : r.points.length = r.width * r.height := by
  simp [points, block, List.length_flatMap, Nat.mul_comm]

/-! ### The least region that holds two points -/

theorem spanning_comm (p q : Point) : spanning p q = spanning q p := by
  simp only [spanning, min_comm, max_comm]

theorem spanning_holds_iff : (spanning p q).Holds c ↔
    min p.x q.x ≤ c.x ∧ c.x ≤ max p.x q.x ∧ min p.y q.y ≤ c.y ∧ c.y ≤ max p.y q.y :=
  Iff.rfl

theorem length_points_spanning (p q : Point) : (spanning p q).points.length =
    ((p.x - q.x).natAbs + 1) * ((p.y - q.y).natAbs + 1) := by
  have hwidth : (spanning p q).width = (p.x - q.x).natAbs + 1 := by
    simp only [width, spanning]
    omega
  have hheight : (spanning p q).height = (p.y - q.y).natAbs + 1 := by
    simp only [height, spanning]
    omega
  rw [length_points, hwidth, hheight]

/-! ### What regions share -/

/-- The points that a region covers; where there is no region, there are none. -/
def cover : Option Region → Set Point
  | none => ∅
  | some r => {p | r.Holds p}

theorem cover_eq_empty_iff {o : Option Region} : cover o = ∅ ↔ o = none := by
  cases o with
  | none => simp [cover]
  | some r => simpa [cover] using Set.Nonempty.ne_empty ⟨r.low, r.holds_low⟩

theorem cover_injective : Function.Injective cover := by
  intro o o' h
  cases o with
  | none => exact (cover_eq_empty_iff.1 h.symm).symm
  | some r =>
    cases o' with
    | none => exact cover_eq_empty_iff.1 h
    | some s => rw [eq_of_holds fun p => Set.ext_iff.1 h p]

theorem cover_meet? (r s : Region) : cover (r.meet? s) = cover (some r) ∩ cover (some s) := by
  ext p
  show _ ↔ r.Holds p ∧ s.Holds p
  rw [← exists_meet?_iff]
  cases r.meet? s <;> simp [cover]

theorem cover_bind_meet? (o : Option Region) (s : Region) :
    cover (o.bind fun r => r.meet? s) = cover o ∩ cover (some s) := by
  cases o with
  | none => exact (Set.empty_inter _).symm
  | some r => exact cover_meet? r s

theorem meet?_eq_none_iff : r.meet? s = none ↔ ∀ p, ¬ (r.Holds p ∧ s.Holds p) := by
  rw [← cover_eq_empty_iff, cover_meet?, Set.eq_empty_iff_forall_notMem]
  rfl

theorem holds_of_meet? {shared : Region} (h : r.meet? s = some shared) (p : Point) :
    shared.Holds p ↔ r.Holds p ∧ s.Holds p := by
  have hcover := cover_meet? r s
  rw [h] at hcover
  exact Set.ext_iff.1 hcover p

theorem meet?_self (r : Region) : r.meet? r = some r :=
  cover_injective (by rw [cover_meet?, Set.inter_self])

theorem meet?_assoc (r s t : Region) :
    ((r.meet? s).bind fun shared => shared.meet? t) =
      (s.meet? t).bind fun shared => r.meet? shared := by
  have hturned : ((s.meet? t).bind fun shared => r.meet? shared) =
      (s.meet? t).bind fun shared => shared.meet? r := by
    simp only [meet?_comm]
  apply cover_injective
  rw [hturned, cover_bind_meet?, cover_bind_meet?, cover_meet?, cover_meet?, Set.inter_assoc,
    Set.inter_comm]

/-- **Sharing is what sets of points have in common.**  It does not matter in which order regions
are taken and which of them are put together first. -/
theorem meet?_of_corners (p q p' q' : Point) :
    spanning p q = spanning q p ∧
      (∀ c, c ∈ (spanning p q).points ↔
        min p.x q.x ≤ c.x ∧ c.x ≤ max p.x q.x ∧ min p.y q.y ≤ c.y ∧ c.y ≤ max p.y q.y) ∧
      (spanning p q).points.Pairwise Point.Precedes ∧ (spanning p q).points.Nodup ∧
      (spanning p q).points.length = ((p.x - q.x).natAbs + 1) * ((p.y - q.y).natAbs + 1) ∧
      ((spanning p q).meet? (spanning p' q') = none ↔
        ∀ c, ¬ (c ∈ (spanning p q).points ∧ c ∈ (spanning p' q').points)) ∧
      (∀ shared, (spanning p q).meet? (spanning p' q') = some shared →
        shared.low.x ≤ shared.high.x ∧ shared.low.y ≤ shared.high.y ∧
          ∀ c, c ∈ shared.points ↔ c ∈ (spanning p q).points ∧ c ∈ (spanning p' q').points) ∧
      (spanning p q).meet? (spanning p' q') = (spanning p' q').meet? (spanning p q) ∧
      (spanning p q).meet? (spanning p q) = some (spanning p q) ∧
      ∀ r, (((spanning p q).meet? (spanning p' q')).bind fun shared => shared.meet? r) =
        ((spanning p' q').meet? r).bind fun shared => (spanning p q).meet? shared := by
  simp only [mem_points_iff]
  refine ⟨spanning_comm p q, fun c => spanning_holds_iff, pairwise_points, nodup_points _,
    length_points_spanning p q, meet?_eq_none_iff, ?_, meet?_comm, meet?_self _, meet?_assoc _ _⟩
  intro shared h
  exact ⟨shared.x_le, shared.y_le, holds_of_meet? h⟩

/-- A row and a square meet at the end of the grid of words of thirty-two bits. -/
theorem meet?_of_corners_edge :
    ∃ shared, (spanning ⟨2147483640, 7⟩ ⟨2147483647, 7⟩).meet?
          (spanning ⟨2147483647, 2147483647⟩ ⟨2147483646, 7⟩) = some shared ∧
      shared.points = [⟨2147483646, 7⟩, ⟨2147483647, 7⟩] ∧
      ∀ c ∈ shared.points, c ∈ (spanning ⟨2147483640, 7⟩ ⟨2147483647, 7⟩).points := by
  have hmeet : (spanning ⟨2147483640, 7⟩ ⟨2147483647, 7⟩).meet?
      (spanning ⟨2147483647, 2147483647⟩ ⟨2147483646, 7⟩) =
        some (spanning ⟨2147483646, 7⟩ ⟨2147483647, 7⟩) := by decide +kernel
  obtain ⟨-, -, -, -, -, -, hpoints, -⟩ := meet?_of_corners ⟨2147483640, 7⟩ ⟨2147483647, 7⟩
    ⟨2147483647, 2147483647⟩ ⟨2147483646, 7⟩
  obtain ⟨-, -, hmem⟩ := hpoints _ hmeet
  exact ⟨_, hmeet, by decide +kernel, fun c hc => ((hmem c).1 hc).1⟩

end Region

end Shipboard
