import Mathlib.Tactic
import Shipboard.Proofs.Wire.Meetings

/-!
# Steps to a crossing

A crossing is found for two segments, and its number of steps is that of the visits that the paths
pay to its point while these segments are laid.  A path may have been at the point before.

* `Wire.exists_passes_of_mem_meetings`: the visits of a crossing;
* `Wire.isLeast_steps`: of the crossings with one point, the fewest steps are those of the first
  visits;
* `Wire.steps_of_parse`: both for the crossings of two texts, one for each meeting, and when a
  crossing has the steps of the first visits;
* `Wire.steps_of_return`: a wire that comes back to a crossing has another one there, with the steps
  of its second visit.
-/

namespace Shipboard.Wire

variable {ms ns : List Move} {c : Crossing} {p : Point}

theorem eq_meetings_of_crossings {a b : Wire} {crossings : List Crossing}
    (h : a.crossings b = .ok crossings) : crossings = a.meetings b := by
  rw [Wire.crossings] at h
  split_ifs at h
  exact (Except.ok.inj h).symm

/-- A crossing is found while one move of each wire is laid, and its steps are those after which the
paths are there meanwhile. -/
theorem exists_passes_of_mem_meetings
    (h : c ∈ meetings ⟨segmentsFrom Point.origin 0 ms⟩ ⟨segmentsFrom Point.origin 0 ns⟩) :
    ∃ i j k l, Passes Point.origin ms i k c.point ∧ Passes Point.origin ns j l c.point ∧
      c.steps = k + l := by
  rw [meetings_moves] at h
  obtain ⟨i, -, h⟩ := List.mem_flatMap.1 h
  obtain ⟨j, -, h⟩ := List.mem_flatMap.1 h
  obtain ⟨-, k, l, hk, hl, hsteps⟩ := ((meet_cell ms ns i j).mem_iff c).1 h
  exact ⟨i, j, k, l, hk, hl, hsteps⟩

/-- A visit is not earlier than the first one. -/
theorem Passes.firstVisit_le {i k : ℕ} (h : Passes Point.origin ms i k p) :
    firstVisit (path ms) p ≤ k :=
  (isLeast_firstVisit (List.mem_of_getElem? h.visit)).2 h.visit

/-- Of the crossings with one point, the fewest steps are those of the first visits. -/
theorem isLeast_steps (hp : p ∈ commonPoints (path ms) (path ns)) :
    IsLeast {steps | (⟨p, steps⟩ : Crossing) ∈
        meetings ⟨segmentsFrom Point.origin 0 ms⟩ ⟨segmentsFrom Point.origin 0 ns⟩}
      (firstVisit (path ms) p + firstVisit (path ns) p) :=
  ⟨firstVisits_mem_meetings hp, fun _ hsteps => firstVisit_add_le_steps hsteps⟩

/-- **The steps of a crossing are those of the visits for which it is found.**  There is a crossing
for each meeting, and those of the first visits have the fewest steps of all with their point. -/
theorem steps_of_parse {s t : String} {m n : ℕ} {a b : Wire} (ha : parse s m = .ok a)
    (hb : parse t n = .ok b) :
    ∃ ms ns, readMoves s = .ok ms ∧ readMoves t = .ok ns ∧
      (totalDistance ms + totalDistance ns < 2 ^ 64 → ∃ crossings, a.crossings b = .ok crossings) ∧
      ∀ crossings, a.crossings b = .ok crossings →
        (∃ cell : ℕ → ℕ → List Crossing, (∀ i j, Meet ms ns i j (cell i j)) ∧
          crossings = (List.range ms.length).flatMap fun i =>
            (List.range ns.length).flatMap fun j => cell i j) ∧
        (∀ p ≠ Point.origin, (crossings.map Crossing.point).count p =
          {ij : ℕ × ℕ | MeetAt ms ns p ij.1 ij.2}.ncard) ∧
        ∀ c ∈ crossings,
          (∃ i j k l, Passes Point.origin ms i k c.point ∧ Passes Point.origin ns j l c.point ∧
            c.steps = k + l ∧
            (c.steps = firstVisit (path ms) c.point + firstVisit (path ns) c.point ↔
              k = firstVisit (path ms) c.point ∧ l = firstVisit (path ns) c.point)) ∧
          IsLeast {steps | ⟨c.point, steps⟩ ∈ crossings}
            (firstVisit (path ms) c.point + firstVisit (path ns) c.point) := by
  obtain ⟨ms, hms, -, rfl⟩ := exists_moves_of_parse ha
  obtain ⟨ns, hns, -, rfl⟩ := exists_moves_of_parse hb
  refine ⟨ms, ns, hms, hns, fun hlength => ⟨_, crossings_eq_ok hlength⟩, ?_⟩
  intro crossings hcrossings
  obtain rfl := eq_meetings_of_crossings hcrossings
  refine ⟨⟨_, meet_cell ms ns, meetings_moves ms ns⟩, fun p hp => count_point_meetings ms ns hp,
    fun c hc => ⟨?_, ?_⟩⟩
  · obtain ⟨i, j, k, l, hk, hl, hsteps⟩ := exists_passes_of_mem_meetings hc
    have hfirst := hk.firstVisit_le
    have hsecond := hl.firstVisit_le
    exact ⟨i, j, k, l, hk, hl, hsteps, by omega⟩
  · exact isLeast_steps (mem_commonPoints_of_mem_meetings hc)

/-- Both wires run along the same points, the first one twice. -/
theorem steps_of_parse_twice :
    ∃ a b crossings, parse "R3,L2" 1 = .ok a ∧ parse "U1,R2,D1,L1" 2 = .ok b ∧
      a.crossings b = .ok crossings ∧ (⟨⟨2, 0⟩, 8⟩ : Crossing) ∈ crossings ∧
      IsLeast {steps | (⟨⟨2, 0⟩, steps⟩ : Crossing) ∈ crossings} 6 := by
  have ha : parse "R3,L2" 1 = .ok ⟨[⟨⟨0, 0⟩, ⟨3, 0⟩, 0⟩, ⟨⟨3, 0⟩, ⟨1, 0⟩, 3⟩]⟩ := by decide +kernel
  have hb : parse "U1,R2,D1,L1" 2 = .ok ⟨[⟨⟨0, 0⟩, ⟨0, 1⟩, 0⟩, ⟨⟨0, 1⟩, ⟨2, 1⟩, 1⟩,
      ⟨⟨2, 1⟩, ⟨2, 0⟩, 3⟩, ⟨⟨2, 0⟩, ⟨1, 0⟩, 4⟩]⟩ := by decide +kernel
  have hreada : readMoves "R3,L2" = .ok [⟨.right, 3⟩, ⟨.left, 2⟩] := by decide +kernel
  have hreadb : readMoves "U1,R2,D1,L1" =
      .ok [⟨.up, 1⟩, ⟨.right, 2⟩, ⟨.down, 1⟩, ⟨.left, 1⟩] := by decide +kernel
  obtain ⟨ms, ns, hms, hns, hexists, hall⟩ := steps_of_parse ha hb
  cases hreada.symm.trans hms
  cases hreadb.symm.trans hns
  obtain ⟨crossings, hcrossings⟩ := hexists (by decide)
  have hmem : (⟨⟨2, 0⟩, 8⟩ : Crossing) ∈ crossings := by
    rw [eq_meetings_of_crossings hcrossings]
    decide +kernel
  obtain ⟨-, -, hall⟩ := hall crossings hcrossings
  obtain ⟨-, hleast⟩ := hall _ hmem
  have hfirst : firstVisit (path [⟨.right, 3⟩, ⟨.left, 2⟩]) ⟨2, 0⟩ = 2 := by decide +kernel
  have hsecond : firstVisit (path [⟨.up, 1⟩, ⟨.right, 2⟩, ⟨.down, 1⟩, ⟨.left, 1⟩]) ⟨2, 0⟩ = 4 := by
    decide +kernel
  rw [hfirst, hsecond] at hleast
  exact ⟨_, _, crossings, ha, hb, hcrossings, hmem, hleast⟩

/-- The first wire comes back to the point where the second one ends.  The paths come there first
after one and three steps, and there is a crossing with six. -/
theorem steps_of_return :
    ∃ a b crossings, parse "R2,L1" 1 = .ok a ∧ parse "U1,R1,D1" 2 = .ok b ∧
      readMoves "R2,L1" = .ok [⟨.right, 2⟩, ⟨.left, 1⟩] ∧
      readMoves "U1,R1,D1" = .ok [⟨.up, 1⟩, ⟨.right, 1⟩, ⟨.down, 1⟩] ∧
      a.crossings b = .ok crossings ∧
      ∃ c ∈ crossings, ∃ i j,
        IsLeast {k | (path [⟨.right, 2⟩, ⟨.left, 1⟩])[k]? = some c.point} i ∧
        IsLeast {k | (path [⟨.up, 1⟩, ⟨.right, 1⟩, ⟨.down, 1⟩])[k]? = some c.point} j ∧
        c.steps ≠ i + j := by
  refine ⟨⟨[⟨⟨0, 0⟩, ⟨2, 0⟩, 0⟩, ⟨⟨2, 0⟩, ⟨1, 0⟩, 2⟩]⟩,
    ⟨[⟨⟨0, 0⟩, ⟨0, 1⟩, 0⟩, ⟨⟨0, 1⟩, ⟨1, 1⟩, 1⟩, ⟨⟨1, 1⟩, ⟨1, 0⟩, 2⟩]⟩,
    [⟨⟨1, 0⟩, 4⟩, ⟨⟨1, 0⟩, 6⟩], by decide +kernel, by decide +kernel, by decide +kernel,
    by decide +kernel, by decide +kernel, ⟨⟨1, 0⟩, 6⟩, by simp, 1, 3, ?_, ?_, by decide⟩
  · exact isLeast_firstVisit
      (show ⟨1, 0⟩ ∈ path [⟨.right, 2⟩, ⟨.left, 1⟩] by decide +kernel)
  · exact isLeast_firstVisit
      (show ⟨1, 0⟩ ∈ path [⟨.up, 1⟩, ⟨.right, 1⟩, ⟨.down, 1⟩] by decide +kernel)

end Shipboard.Wire
