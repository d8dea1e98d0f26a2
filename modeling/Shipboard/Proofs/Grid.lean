import Mathlib.Tactic
import Shipboard.Grid

/-!
# Which points a region holds

`Region.Holds` is the view of a region: `Region.points` lists the points that it holds
(`mem_points_iff`), in the order in which one reads (`pairwise_points`), and what two regions share
holds the points that both of them hold (`exists_meet?_iff`).
-/

namespace Shipboard

theorem Point.ext_iff {p q : Point} : p = q ↔ p.x = q.x ∧ p.y = q.y := by
  cases p; cases q; simp

/-- Points as one reads them: row by row, and each row from left to right. -/
def Point.Precedes (p q : Point) : Prop :=
  p.y < q.y ∨ p.y = q.y ∧ p.x < q.x

namespace Region

variable {r s : Region} {p q : Point}

theorem mem_block_iff {columns rows : ℕ} :
    p ∈ r.block columns rows ↔
      r.low.x ≤ p.x ∧ p.x < r.low.x + columns ∧ r.low.y ≤ p.y ∧ p.y < r.low.y + rows := by
  simp only [block, List.mem_flatMap, List.mem_map, List.mem_range, Point.ext_iff]
  constructor
  · rintro ⟨j, hj, i, hi, hx, hy⟩
    omega
  · rintro ⟨hx, hx', hy, hy'⟩
    exact ⟨(p.y - r.low.y).toNat, by omega, (p.x - r.low.x).toNat, by omega, by omega, by omega⟩

theorem mem_points_iff : p ∈ r.points ↔ r.Holds p := by
  have hx := r.x_le
  have hy := r.y_le
  rw [points, mem_block_iff, Holds, width, height]
  omega

/-- Every point of a region is listed before the ones that it precedes. -/
theorem pairwise_points : r.points.Pairwise Point.Precedes := by
  rw [points, block, List.pairwise_flatMap]
  constructor
  · intro j hj
    rw [List.pairwise_map]
    refine List.pairwise_lt_range.imp fun {i i'} hlt => ?_
    exact .inr ⟨rfl, by simpa using hlt⟩
  · refine List.pairwise_lt_range.imp fun {j j'} hlt p hp q hq => ?_
    obtain ⟨i, -, rfl⟩ := List.mem_map.1 hp
    obtain ⟨i', -, rfl⟩ := List.mem_map.1 hq
    exact .inl (by simpa using hlt)

theorem meet?_comm : r.meet? s = s.meet? r := by
  simp only [meet?, max_comm, min_comm]

/-- Two regions that share no point have no region in common, and else the points of the region in
common are those that both hold. -/
theorem exists_meet?_iff : (∃ shared, r.meet? s = some shared ∧ shared.Holds p) ↔
    r.Holds p ∧ s.Holds p := by
  unfold meet? Holds
  constructor
  · rintro ⟨shared, h, hp⟩
    dsimp only at h
    split_ifs at h with hmeet
    cases h
    simp only at hp
    omega
  · rintro ⟨hr, hs⟩
    rw [dif_pos (by simp only; omega)]
    exact ⟨_, rfl, by simp only; omega⟩

end Region

end Shipboard
