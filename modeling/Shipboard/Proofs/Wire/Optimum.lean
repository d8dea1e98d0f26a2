import Mathlib.Tactic
import Shipboard.Proofs.Wire.Path
import Shipboard.Wire.Crossing

/-!
# The best crossings of two wires

The crossings of two wires are found segment by segment, and a point can be among them more than
once.  The answers are nevertheless those for the paths of the wires.

* `mem_meetings_iff`: the meetings of two wires are the pairs of visits that their paths pay to one
  point, the origin apart;
* `least` is what both answers are an instance of: the least value of a measure;
* `optimum_of_parse`: for two texts that are accepted, the answers are the least distance of a
  common point and the least number of steps after which both paths have come to one.
-/

namespace Shipboard

/-- The crossings of two segments are the points, the origin left out, that both go through. -/
theorem Segment.mem_crossings_iff {s t : Segment} {c : Crossing} :
    c ∈ s.crossings t ↔ c.point ≠ Point.origin ∧
      (s.region.Holds c.point ∧ t.region.Holds c.point) ∧
        c.steps = s.stepsTo c.point + t.stepsTo c.point := by
  obtain ⟨p, n⟩ := c
  rw [← Region.exists_meet?_iff, Segment.crossings]
  cases s.region.meet? t.region with
  | none => simp
  | some shared =>
    simp only [List.mem_map, List.mem_filter, Region.mem_points_iff, decide_eq_true_eq,
      Crossing.mk.injEq, Option.some.injEq]
    constructor
    · rintro ⟨p, ⟨hholds, horigin⟩, rfl, rfl⟩
      exact ⟨horigin, ⟨shared, rfl, hholds⟩, rfl⟩
    · rintro ⟨horigin, ⟨_, rfl, hholds⟩, rfl⟩
      exact ⟨p, ⟨hholds, horigin⟩, rfl, rfl⟩

namespace Wire

variable {ms ns : List Move}

/-- Away from the origin, the steps that the segments of some moves take to a point are the steps
after which their path is there. -/
theorem exists_segment_iff_path {p : Point} {n : ℕ} (hp : p ≠ Point.origin) :
    (∃ s ∈ segmentsFrom Point.origin 0 ms, s.region.Holds p ∧ s.stepsTo p = n) ↔
      (path ms)[n]? = some p := by
  simpa [hp, path] using @exists_segment_iff Point.origin p 0 n ms

/-- The meetings of two wires are the pairs of visits that their paths pay to one point. -/
theorem mem_meetings_iff {c : Crossing} :
    c ∈ meetings ⟨segmentsFrom Point.origin 0 ms⟩ ⟨segmentsFrom Point.origin 0 ns⟩ ↔
      c.point ≠ Point.origin ∧ ∃ i j, (path ms)[i]? = some c.point ∧
        (path ns)[j]? = some c.point ∧ c.steps = i + j := by
  simp only [meetings, List.mem_flatMap, Segment.mem_crossings_iff]
  constructor
  · rintro ⟨s, hs, t, ht, horigin, ⟨hsholds, htholds⟩, hsteps⟩
    exact ⟨horigin, _, _, (exists_segment_iff_path horigin).1 ⟨s, hs, hsholds, rfl⟩,
      (exists_segment_iff_path horigin).1 ⟨t, ht, htholds, rfl⟩, hsteps⟩
  · rintro ⟨horigin, i, j, hi, hj, hsteps⟩
    obtain ⟨s, hs, hsholds, rfl⟩ := (exists_segment_iff_path horigin).2 hi
    obtain ⟨t, ht, htholds, rfl⟩ := (exists_segment_iff_path horigin).2 hj
    exact ⟨s, hs, t, ht, horigin, ⟨hsholds, htholds⟩, hsteps⟩

/-- Where both wires together are not too long, the numbers of steps can be added up. -/
theorem crossings_eq_ok (h : totalDistance ms + totalDistance ns < lengthLimit) :
    crossings ⟨segmentsFrom Point.origin 0 ms⟩ ⟨segmentsFrom Point.origin 0 ns⟩ =
      .ok (meetings ⟨segmentsFrom Point.origin 0 ms⟩ ⟨segmentsFrom Point.origin 0 ns⟩) := by
  rw [crossings, if_pos]
  rw [List.all_eq_true]
  intro c hc
  obtain ⟨-, i, j, hi, hj, hsteps⟩ := mem_meetings_iff.1 hc
  obtain ⟨hi, -⟩ := List.getElem?_eq_some_iff.1 hi
  obtain ⟨hj, -⟩ := List.getElem?_eq_some_iff.1 hj
  rw [path, length_pathFrom] at hi hj
  simp only [decide_eq_true_eq]
  omega

/-! ### The least value of a measure -/

/-- The least value of a measure among some crossings. -/
def least (measure : Crossing → ℕ) (crossings : List Crossing) : Except Fault ℕ :=
  match (crossings.map measure).min? with
  | some value => .ok value
  | none => .error (.unsolvable .noCrossing)

theorem closest_eq_least : closest = least Crossing.distance := rfl

theorem fewestSteps_eq_least : fewestSteps = least Crossing.steps := rfl

variable {measure : Crossing → ℕ} {crossings : List Crossing} {value : ℕ}

theorem least_eq_ok_iff :
    least measure crossings = .ok value ↔ IsLeast (measure '' {c | c ∈ crossings}) value := by
  have hmin : least measure crossings = .ok value ↔ (crossings.map measure).min? = some value := by
    unfold least
    split <;> simp [*]
  rw [hmin, List.min?_eq_some_iff]
  simp [IsLeast, lowerBounds]

theorem least_eq_error_iff {fault : Fault} :
    least measure crossings = .error fault ↔
      fault = .unsolvable .noCrossing ∧ crossings = [] := by
  unfold least
  cases crossings with
  | nil => simp [eq_comm]
  | cons c crossings => simp [List.min?_cons]

/-- An answer is the least value of a measure on some points, and the want of a crossing if there
are none. -/
def IsOptimum (answer : Except Fault ℕ) (points : Set Point) (measure : Point → ℕ) : Prop :=
  (points.Nonempty → ∃ value, answer = .ok value ∧ IsLeast (measure '' points) value) ∧
    (answer = .error (.unsolvable .noCrossing) ↔ points = ∅)

/-- The least value among some crossings is the optimum on some points if no crossing is better than
its point and every point has a crossing that is as good. -/
theorem isOptimum_least {points : Set Point} {ideal : Point → ℕ}
    (hsound : ∀ c ∈ crossings, c.point ∈ points ∧ ideal c.point ≤ measure c)
    (hreached : ∀ p ∈ points, ∃ c ∈ crossings, measure c = ideal p) :
    IsOptimum (least measure crossings) points ideal := by
  constructor
  · rintro ⟨p, hp⟩
    cases h : least measure crossings with
    | error fault =>
      obtain ⟨-, rfl⟩ := least_eq_error_iff.1 h
      obtain ⟨c, hc, -⟩ := hreached p hp
      cases hc
    | ok value =>
      refine ⟨value, rfl, ?_⟩
      obtain ⟨⟨c, hc, rfl⟩, hleast⟩ := least_eq_ok_iff.1 h
      have hbound : ∀ q ∈ points, measure c ≤ ideal q := by
        intro q hq
        obtain ⟨d, hd, hequal⟩ := hreached q hq
        rw [← hequal]
        exact hleast ⟨d, hd, rfl⟩
      obtain ⟨hpoint, hideal⟩ := hsound c hc
      refine ⟨⟨c.point, hpoint, le_antisymm hideal (hbound _ hpoint)⟩, ?_⟩
      rintro _ ⟨q, hq, rfl⟩
      exact hbound q hq
  · rw [least_eq_error_iff, Set.eq_empty_iff_forall_notMem]
    constructor
    · rintro ⟨-, rfl⟩ p hp
      obtain ⟨c, hc, -⟩ := hreached p hp
      cases hc
    · intro hnone
      refine ⟨rfl, List.eq_nil_iff_forall_not_mem.2 fun c hc => ?_⟩
      exact hnone _ (hsound c hc).1

/-! ### Both answers -/

/-- The points, the origin left out, that two paths have in common. -/
def commonPoints (first second : List Point) : Set Point :=
  {p | p ≠ Point.origin ∧ p ∈ first ∧ p ∈ second}

theorem mem_commonPoints_of_mem_meetings {c : Crossing}
    (h : c ∈ meetings ⟨segmentsFrom Point.origin 0 ms⟩ ⟨segmentsFrom Point.origin 0 ns⟩) :
    c.point ∈ commonPoints (path ms) (path ns) := by
  obtain ⟨horigin, i, j, hi, hj, -⟩ := mem_meetings_iff.1 h
  exact ⟨horigin, List.mem_of_getElem? hi, List.mem_of_getElem? hj⟩

/-- The first visits that two paths pay to a common point are among the meetings. -/
theorem firstVisits_mem_meetings {p : Point} (h : p ∈ commonPoints (path ms) (path ns)) :
    ⟨p, firstVisit (path ms) p + firstVisit (path ns) p⟩ ∈
      meetings ⟨segmentsFrom Point.origin 0 ms⟩ ⟨segmentsFrom Point.origin 0 ns⟩ := by
  obtain ⟨horigin, hfirst, hsecond⟩ := h
  exact mem_meetings_iff.2 ⟨horigin, _, _, (isLeast_firstVisit hfirst).1,
    (isLeast_firstVisit hsecond).1, rfl⟩

/-- No meeting takes fewer steps than the first visits. -/
theorem firstVisit_add_le_steps {c : Crossing}
    (h : c ∈ meetings ⟨segmentsFrom Point.origin 0 ms⟩ ⟨segmentsFrom Point.origin 0 ns⟩) :
    firstVisit (path ms) c.point + firstVisit (path ns) c.point ≤ c.steps := by
  obtain ⟨-, hfirst, hsecond⟩ := mem_commonPoints_of_mem_meetings h
  obtain ⟨-, i, j, hi, hj, hsteps⟩ := mem_meetings_iff.1 h
  have hi := (isLeast_firstVisit hfirst).2 hi
  have hj := (isLeast_firstVisit hsecond).2 hj
  omega

theorem distance_eq (c : Crossing) : c.distance = c.point.x.natAbs + c.point.y.natAbs := by
  simp [Crossing.distance, Point.length, Point.origin]

/-- **The answers are the optima over the paths.**  If the paths have no point in common but the
origin, then both answers are that the wires do not cross. -/
theorem optimum_of_parse {s t : String} {m n : ℕ} {a b : Wire} (ha : parse s m = .ok a)
    (hb : parse t n = .ok b) :
    ∃ ms ns, readMoves s = .ok ms ∧ readMoves t = .ok ns ∧
      (totalDistance ms + totalDistance ns < lengthLimit →
        ∃ crossings, a.crossings b = .ok crossings ∧
          IsOptimum (closest crossings) (commonPoints (path ms) (path ns))
            (fun p => p.x.natAbs + p.y.natAbs) ∧
          IsOptimum (fewestSteps crossings) (commonPoints (path ms) (path ns))
            (fun p => firstVisit (path ms) p + firstVisit (path ns) p)) := by
  obtain ⟨ms, hms, -, rfl⟩ := exists_moves_of_parse ha
  obtain ⟨ns, hns, -, rfl⟩ := exists_moves_of_parse hb
  refine ⟨ms, ns, hms, hns, fun hlength => ⟨_, crossings_eq_ok hlength, ?_, ?_⟩⟩
  · rw [closest_eq_least]
    refine isOptimum_least (fun c hc => ?_) fun p hp => ?_
    · exact ⟨mem_commonPoints_of_mem_meetings hc, (distance_eq c).ge⟩
    · exact ⟨_, firstVisits_mem_meetings hp, distance_eq _⟩
  · rw [fewestSteps_eq_least]
    refine isOptimum_least (fun c hc => ?_) fun p hp => ?_
    · exact ⟨mem_commonPoints_of_mem_meetings hc, firstVisit_add_le_steps hc⟩
    · exact ⟨_, firstVisits_mem_meetings hp, rfl⟩

/-- Two wires of which the one comes back through the origin and the other runs along it for a
while: they are closest two steps from the origin, and six steps take both of them there. -/
theorem optimum_of_parse_overlap :
    ∃ a b crossings, parse "R3,L0,L3,D1" 1 = .ok a ∧ parse "U1,R2,D1,R1" 2 = .ok b ∧
      a.crossings b = .ok crossings ∧ closest crossings = .ok 2 ∧ fewestSteps crossings = .ok 6 ∧
      IsLeast ((fun p : Point => p.x.natAbs + p.y.natAbs) ''
        commonPoints (path [⟨.right, 3⟩, ⟨.left, 0⟩, ⟨.left, 3⟩, ⟨.down, 1⟩])
          (path [⟨.up, 1⟩, ⟨.right, 2⟩, ⟨.down, 1⟩, ⟨.right, 1⟩])) 2 := by
  have ha : parse "R3,L0,L3,D1" 1 = .ok ⟨[⟨⟨0, 0⟩, ⟨3, 0⟩, 0⟩, ⟨⟨3, 0⟩, ⟨3, 0⟩, 3⟩,
      ⟨⟨3, 0⟩, ⟨0, 0⟩, 3⟩, ⟨⟨0, 0⟩, ⟨0, -1⟩, 6⟩]⟩ := by decide +kernel
  have hb : parse "U1,R2,D1,R1" 2 = .ok ⟨[⟨⟨0, 0⟩, ⟨0, 1⟩, 0⟩, ⟨⟨0, 1⟩, ⟨2, 1⟩, 1⟩,
      ⟨⟨2, 1⟩, ⟨2, 0⟩, 3⟩, ⟨⟨2, 0⟩, ⟨3, 0⟩, 4⟩]⟩ := by decide +kernel
  have hreada : readMoves "R3,L0,L3,D1" =
      .ok [⟨.right, 3⟩, ⟨.left, 0⟩, ⟨.left, 3⟩, ⟨.down, 1⟩] := by decide +kernel
  have hreadb : readMoves "U1,R2,D1,R1" =
      .ok [⟨.up, 1⟩, ⟨.right, 2⟩, ⟨.down, 1⟩, ⟨.right, 1⟩] := by decide +kernel
  obtain ⟨ms, ns, hms, hns, hoptimum⟩ := optimum_of_parse ha hb
  cases hreada.symm.trans hms
  cases hreadb.symm.trans hns
  obtain ⟨crossings, hcrossings, ⟨hclosest, -⟩, -⟩ := hoptimum (by decide)
  have hanswers : Except.map (fun crossings => (closest crossings, fewestSteps crossings))
      (Wire.crossings ⟨[⟨⟨0, 0⟩, ⟨3, 0⟩, 0⟩, ⟨⟨3, 0⟩, ⟨3, 0⟩, 3⟩, ⟨⟨3, 0⟩, ⟨0, 0⟩, 3⟩,
        ⟨⟨0, 0⟩, ⟨0, -1⟩, 6⟩]⟩ ⟨[⟨⟨0, 0⟩, ⟨0, 1⟩, 0⟩, ⟨⟨0, 1⟩, ⟨2, 1⟩, 1⟩, ⟨⟨2, 1⟩, ⟨2, 0⟩, 3⟩,
        ⟨⟨2, 0⟩, ⟨3, 0⟩, 4⟩]⟩) = .ok (.ok 2, .ok 6) := by decide +kernel
  rw [hcrossings] at hanswers
  obtain ⟨hdistance, hsteps⟩ := Prod.mk.inj (Except.ok.inj hanswers)
  -- the paths meet at `(2, 0)`, so that there is a closest point
  obtain ⟨value, hvalue, hleast⟩ := hclosest ⟨⟨2, 0⟩, by decide, by decide, by decide⟩
  cases hdistance.symm.trans hvalue
  exact ⟨_, _, crossings, ha, hb, hcrossings, hdistance, hsteps, hleast⟩

end Wire

end Shipboard
