import Mathlib.Data.Set.Card
import Mathlib.Tactic
import Shipboard.Proofs.Wire.Optimum

/-!
# Every meeting of two wires

The crossings of two wires are listed for each pair of segments.  Here they are described by the
moves and the paths alone, as a list with an order and with repetitions.

* `Wire.Passes start moves i k p`: while the move with index `i` is laid, the path is at `p` after
  `k` steps; `Wire.exists_segment_iff_passes` says that this is what a segment is about;
* `Wire.MeetAt ms ns p i j`: both paths come to a point while two moves are laid, and
  `Wire.Meet ms ns i j cell`: the list holds what the two moves have in common, point by point;
* `Wire.crossings_of_parse`: the crossings are these lists, for one pair of moves after the other.
-/

namespace Shipboard

theorem Segment.crossings_comm (s t : Segment) : s.crossings t = t.crossings s := by
  simp only [Segment.crossings, Region.meet?_comm, Nat.add_comm]

/-- The crossings of two segments are listed point by point. -/
theorem Segment.pairwise_crossings (s t : Segment) :
    (s.crossings t).Pairwise fun c d => c.point.Precedes d.point := by
  rw [Segment.crossings]
  split
  · exact .nil
  · rw [List.pairwise_map]
    exact Region.pairwise_points.filter _

namespace Wire

variable {start p : Point} {before i j k l n : ℕ} {m : Move} {moves ms ns : List Move}

/-! ### Steps of a move -/

/-- While a move is laid, given by its index, the path is at a point after so many steps.  The steps
of a move are those from the end of the moves before it to its own end, both included. -/
structure Passes (start : Point) (moves : List Move) (i k : ℕ) (p : Point) : Prop where
  index_lt : i < moves.length
  le_step : totalDistance (moves.take i) ≤ k
  step_le : k ≤ totalDistance (moves.take (i + 1))
  visit : (pathFrom start moves)[k]? = some p

theorem getElem?_pathFrom_of_le (h : k ≤ m.distance) :
    (pathFrom start (m :: moves))[k]? = some (start + m.direction.steps k) := by
  rw [getElem?_pathFrom_cons]
  split_ifs with hlt
  · rfl
  · obtain rfl : k = m.distance := by omega
    rw [Nat.sub_self, getElem?_pathFrom_zero, Move.offset]

theorem passes_cons_zero :
    Passes start (m :: moves) 0 k p ↔ k ≤ m.distance ∧ p = start + m.direction.steps k := by
  have htotal : totalDistance ((m :: moves).take (0 + 1)) = m.distance := by simp [totalDistance]
  constructor
  · rintro ⟨-, -, hle, hvisit⟩
    rw [htotal] at hle
    rw [getElem?_pathFrom_of_le hle] at hvisit
    exact ⟨hle, (Option.some.inj hvisit).symm⟩
  · rintro ⟨hle, rfl⟩
    exact ⟨by simp, Nat.zero_le _, by rwa [htotal], getElem?_pathFrom_of_le hle⟩

theorem passes_cons_succ :
    Passes start (m :: moves) (i + 1) k p ↔
      ∃ l, k = m.distance + l ∧ Passes (start + m.offset) moves i l p := by
  have htotal : ∀ i, totalDistance ((m :: moves).take (i + 1)) =
      m.distance + totalDistance (moves.take i) := by
    intro i
    simp [totalDistance]
  have hvisit : ∀ l, (pathFrom start (m :: moves))[m.distance + l]? =
      (pathFrom (start + m.offset) moves)[l]? := by
    intro l
    rw [getElem?_pathFrom_cons, if_neg (by omega), Nat.add_sub_cancel_left]
  constructor
  · rintro ⟨hindex, hle, hge, hp⟩
    rw [htotal] at hle hge
    obtain ⟨l, rfl⟩ := Nat.exists_eq_add_of_le (Nat.le_of_add_right_le hle)
    rw [hvisit] at hp
    exact ⟨l, rfl, by simpa using hindex, by omega, by omega, hp⟩
  · rintro ⟨l, rfl, hindex, hle, hge, hp⟩
    exact ⟨by simpa using hindex, by rw [htotal]; omega, by rw [htotal]; omega, by rwa [hvisit]⟩

/-- The segment that is laid for a move goes through the points that the path comes to meanwhile,
and takes as many steps to each of them. -/
theorem exists_segment_iff_passes :
    (∃ s, (segmentsFrom start before moves)[i]? = some s ∧ s.region.Holds p ∧ s.stepsTo p = n) ↔
      ∃ k, n = before + k ∧ Passes start moves i k p := by
  induction moves generalizing start before i with
  | nil =>
    constructor
    · rintro ⟨s, hs, -⟩
      cases hs
    · rintro ⟨k, -, hpasses⟩
      exact absurd hpasses.index_lt (Nat.not_lt_zero i)
  | cons m moves ih =>
    cases i with
    | zero =>
      simp only [segmentsFrom, List.getElem?_cons_zero, Option.some.injEq, exists_eq_left',
        segment_holds_iff, passes_cons_zero]
      constructor
      · rintro ⟨k, hk, hn, hp⟩
        exact ⟨k, hn, hk, hp⟩
      · rintro ⟨k, hn, hk, hp⟩
        exact ⟨k, hk, hn, hp⟩
    | succ i =>
      simp only [segmentsFrom, List.getElem?_cons_succ, ih, passes_cons_succ]
      constructor
      · rintro ⟨l, hn, hpasses⟩
        exact ⟨_, by omega, l, rfl, hpasses⟩
      · rintro ⟨_, hn, l, rfl, hpasses⟩
        exact ⟨l, by omega, hpasses⟩

/-! ### Meetings of two moves -/

/-- Both paths come to a point while two moves, given by their indices, are laid. -/
def MeetAt (ms ns : List Move) (p : Point) (i j : ℕ) : Prop :=
  (∃ k, Passes Point.origin ms i k p) ∧ ∃ l, Passes Point.origin ns j l p

/-- The meetings of two moves, given by their indices: one for each point, the origin left out, that
both paths come to meanwhile, in the order of the points and with the steps of both paths. -/
structure Meet (ms ns : List Move) (i j : ℕ) (cell : List Crossing) : Prop where
  ordered : cell.Pairwise fun c d => c.point.Precedes d.point
  mem_iff : ∀ c, c ∈ cell ↔ c.point ≠ Point.origin ∧
    ∃ k l, Passes Point.origin ms i k c.point ∧ Passes Point.origin ns j l c.point ∧ c.steps = k + l

/-- What is listed for the segments with two indices. -/
def cell (a b : Wire) (i j : ℕ) : List Crossing :=
  a.segments[i]?.elim [] fun s => b.segments[j]?.elim [] fun t => s.crossings t

theorem mem_cell_iff {a b : Wire} {c : Crossing} : c ∈ cell a b i j ↔
    ∃ s t, a.segments[i]? = some s ∧ b.segments[j]? = some t ∧ c ∈ s.crossings t := by
  rw [cell]
  cases a.segments[i]? with
  | none => simp
  | some s =>
    cases b.segments[j]? with
    | none => simp
    | some t => simp

theorem meet_cell (ms ns : List Move) (i j : ℕ) :
    Meet ms ns i j
      (cell ⟨segmentsFrom Point.origin 0 ms⟩ ⟨segmentsFrom Point.origin 0 ns⟩ i j) := by
  have hpasses : ∀ (moves : List Move) (i k : ℕ) (p : Point),
      (∃ s, (segmentsFrom Point.origin 0 moves)[i]? = some s ∧ s.region.Holds p ∧ s.stepsTo p = k) ↔
        Passes Point.origin moves i k p := by
    intro moves i k p
    simp [exists_segment_iff_passes]
  constructor
  · rw [cell]
    cases (segmentsFrom Point.origin 0 ms)[i]? with
    | none => exact .nil
    | some s =>
      cases (segmentsFrom Point.origin 0 ns)[j]? with
      | none => exact .nil
      | some t => exact s.pairwise_crossings t
  · intro c
    simp only [mem_cell_iff, Segment.mem_crossings_iff, ← hpasses]
    constructor
    · rintro ⟨s, t, hs, ht, horigin, ⟨hsholds, htholds⟩, hsteps⟩
      exact ⟨horigin, _, _, ⟨s, hs, hsholds, rfl⟩, ⟨t, ht, htholds, rfl⟩, hsteps⟩
    · rintro ⟨horigin, _, _, ⟨s, hs, hsholds, rfl⟩, ⟨t, ht, htholds, rfl⟩, hsteps⟩
      exact ⟨s, t, hs, ht, horigin, ⟨hsholds, htholds⟩, hsteps⟩

/-- What is listed for the elements of a list is listed for its indices. -/
theorem flatMap_eq_flatMap_range {α β : Type} (l : List α) (f : α → List β) :
    l.flatMap f = (List.range l.length).flatMap fun i => l[i]?.elim [] f := by
  induction l with
  | nil => rfl
  | cons a l ih =>
    rw [List.flatMap_cons, ih, List.length_cons, List.range_succ_eq_map, List.flatMap_cons,
      List.flatMap_map]
    rfl

/-- All meetings of two wires, for one pair of segments after the other. -/
theorem meetings_eq (a b : Wire) :
    a.meetings b = (List.range a.segments.length).flatMap fun i =>
      (List.range b.segments.length).flatMap fun j => cell a b i j := by
  rw [meetings, flatMap_eq_flatMap_range]
  congr 1
  funext i
  unfold cell
  cases a.segments[i]? with
  | none => simp
  | some s => exact flatMap_eq_flatMap_range b.segments _

/-- The wires can be taken in either order. -/
theorem meetings_perm (a b : Wire) : (b.meetings a).Perm (a.meetings b) := by
  have hturned : b.meetings a =
      b.segments.flatMap fun t => a.segments.flatMap fun s => s.crossings t := by
    rw [meetings]
    congr 1
    funext t
    congr 1
    funext s
    exact t.crossings_comm s
  rw [← Multiset.coe_eq_coe, hturned, meetings]
  simp only [← Multiset.coe_bind]
  exact Multiset.bind_bind _ _

open Classical in
/-- A point is listed once for two moves if they meet there, and else it is not. -/
theorem Meet.count_point {cell : List Crossing} (h : Meet ms ns i j cell) (hp : p ≠ Point.origin) :
    (cell.map Crossing.point).count p = if MeetAt ms ns p i j then 1 else 0 := by
  have hnodup : (cell.map Crossing.point).Nodup := by
    rw [List.nodup_iff_pairwise_ne, List.pairwise_map]
    refine h.ordered.imp fun {c d} hprecedes heq => ?_
    rw [heq, Point.Precedes] at hprecedes
    omega
  have hmem : p ∈ cell.map Crossing.point ↔ MeetAt ms ns p i j := by
    rw [List.mem_map]
    constructor
    · rintro ⟨c, hc, rfl⟩
      obtain ⟨-, k, l, hk, hl, -⟩ := (h.mem_iff c).1 hc
      exact ⟨⟨k, hk⟩, l, hl⟩
    · rintro ⟨⟨k, hk⟩, l, hl⟩
      exact ⟨⟨p, k + l⟩, (h.mem_iff _).2 ⟨hp, k, l, hk, hl, rfl⟩, rfl⟩
  rw [hnodup.count]
  simp only [hmem]

/-- In cells for all pairs of moves a point is as often as there are pairs that meet there. -/
theorem count_point_of_meet {cell : ℕ → ℕ → List Crossing} (h : ∀ i j, Meet ms ns i j (cell i j))
    (hp : p ≠ Point.origin) :
    (((List.range ms.length).flatMap fun i => (List.range ns.length).flatMap fun j =>
        cell i j).map Crossing.point).count p =
      {ij : ℕ × ℕ | MeetAt ms ns p ij.1 ij.2}.ncard := by
  classical
  have hpairs : {ij : ℕ × ℕ | MeetAt ms ns p ij.1 ij.2} =
      (↑((Finset.range ms.length ×ˢ Finset.range ns.length).filter fun ij =>
        MeetAt ms ns p ij.1 ij.2) : Set (ℕ × ℕ)) := by
    ext ⟨i, j⟩
    simp only [Set.mem_ofPred_eq, Finset.coe_filter, Finset.mem_product, Finset.mem_range]
    constructor
    · rintro ⟨⟨k, hk⟩, l, hl⟩
      exact ⟨⟨hk.index_lt, hl.index_lt⟩, ⟨k, hk⟩, l, hl⟩
    · exact And.right
  rw [hpairs, Set.ncard_coe_finset, Finset.card_filter, Finset.sum_product]
  simp only [List.map_flatMap, List.count_flatMap, Function.comp_def, (h _ _).count_point hp]
  rfl

theorem length_segmentsFrom (start : Point) (before : ℕ) (moves : List Move) :
    (segmentsFrom start before moves).length = moves.length := by
  induction moves generalizing start before with
  | nil => rfl
  | cons m moves ih => rw [segmentsFrom, List.length_cons, ih, List.length_cons]

/-- All meetings of two wires, for one pair of moves after the other. -/
theorem meetings_moves (ms ns : List Move) :
    meetings ⟨segmentsFrom Point.origin 0 ms⟩ ⟨segmentsFrom Point.origin 0 ns⟩ =
      (List.range ms.length).flatMap fun i => (List.range ns.length).flatMap fun j =>
        cell ⟨segmentsFrom Point.origin 0 ms⟩ ⟨segmentsFrom Point.origin 0 ns⟩ i j := by
  rw [meetings_eq]
  simp only [length_segmentsFrom]

/-- A point is listed as often as there are pairs of moves that meet there. -/
theorem count_point_meetings (ms ns : List Move) (hp : p ≠ Point.origin) :
    ((meetings ⟨segmentsFrom Point.origin 0 ms⟩ ⟨segmentsFrom Point.origin 0 ns⟩).map
        Crossing.point).count p = {ij : ℕ × ℕ | MeetAt ms ns p ij.1 ij.2}.ncard := by
  rw [meetings_moves, count_point_of_meet (meet_cell ms ns) hp]

/-- **Every meeting is listed, and nothing else**: for each pair of moves the points that both paths
come to meanwhile, row by row.  If the wires are exchanged, then only the order changes. -/
theorem crossings_of_parse {s t : String} {m n : ℕ} {a b : Wire} (ha : parse s m = .ok a)
    (hb : parse t n = .ok b) :
    ∃ ms ns, readMoves s = .ok ms ∧ readMoves t = .ok ns ∧
      a.segments.length = ms.length ∧ b.segments.length = ns.length ∧
      (totalDistance ms + totalDistance ns < 2 ^ 64 →
        ∃ (crossings back : List Crossing) (cell : ℕ → ℕ → List Crossing),
          a.crossings b = .ok crossings ∧ b.crossings a = .ok back ∧
          (∀ i j, Meet ms ns i j (cell i j)) ∧
          (crossings = (List.range ms.length).flatMap fun i =>
            (List.range ns.length).flatMap fun j => cell i j) ∧
          (∀ p ≠ Point.origin, (crossings.map Crossing.point).count p =
            {ij : ℕ × ℕ | MeetAt ms ns p ij.1 ij.2}.ncard) ∧
          back.Perm crossings) := by
  obtain ⟨ms, hms, -, rfl⟩ := exists_moves_of_parse ha
  obtain ⟨ns, hns, -, rfl⟩ := exists_moves_of_parse hb
  refine ⟨ms, ns, hms, hns, length_segmentsFrom _ _ ms, length_segmentsFrom _ _ ns, ?_⟩
  intro hlength
  have hback : totalDistance ns + totalDistance ms < 2 ^ 64 := by omega
  exact ⟨_, _, _, crossings_eq_ok hlength, crossings_eq_ok hback, meet_cell ms ns,
    meetings_moves ms ns, fun p hp => count_point_meetings ms ns hp, meetings_perm _ _⟩

/-- A corner of the second wire lies on the first one, which it follows from there on: the corner is
listed for both of the runs that meet in it. -/
theorem crossings_of_parse_overlap :
    ∃ a b, parse "R5" 1 = .ok a ∧ parse "U1,R2,D1,R2" 2 = .ok b ∧
      a.crossings b = .ok [⟨⟨2, 0⟩, 6⟩, ⟨⟨2, 0⟩, 6⟩, ⟨⟨3, 0⟩, 8⟩, ⟨⟨4, 0⟩, 10⟩] ∧
      {ij : ℕ × ℕ | MeetAt [⟨.right, 5⟩] [⟨.up, 1⟩, ⟨.right, 2⟩, ⟨.down, 1⟩, ⟨.right, 2⟩]
        ⟨2, 0⟩ ij.1 ij.2}.ncard = 2 := by
  have ha : parse "R5" 1 = .ok ⟨[⟨⟨0, 0⟩, ⟨5, 0⟩, 0⟩]⟩ := by decide +kernel
  have hb : parse "U1,R2,D1,R2" 2 = .ok ⟨[⟨⟨0, 0⟩, ⟨0, 1⟩, 0⟩, ⟨⟨0, 1⟩, ⟨2, 1⟩, 1⟩,
      ⟨⟨2, 1⟩, ⟨2, 0⟩, 3⟩, ⟨⟨2, 0⟩, ⟨4, 0⟩, 4⟩]⟩ := by decide +kernel
  have hreada : readMoves "R5" = .ok [⟨.right, 5⟩] := by decide +kernel
  have hreadb : readMoves "U1,R2,D1,R2" =
      .ok [⟨.up, 1⟩, ⟨.right, 2⟩, ⟨.down, 1⟩, ⟨.right, 2⟩] := by decide +kernel
  obtain ⟨ms, ns, hms, hns, -, -, hall⟩ := crossings_of_parse ha hb
  cases hreada.symm.trans hms
  cases hreadb.symm.trans hns
  obtain ⟨crossings, back, cell, hcrossings, -, -, -, hcount, -⟩ := hall (by decide)
  have hlist : Wire.crossings ⟨[⟨⟨0, 0⟩, ⟨5, 0⟩, 0⟩]⟩ ⟨[⟨⟨0, 0⟩, ⟨0, 1⟩, 0⟩, ⟨⟨0, 1⟩, ⟨2, 1⟩, 1⟩,
      ⟨⟨2, 1⟩, ⟨2, 0⟩, 3⟩, ⟨⟨2, 0⟩, ⟨4, 0⟩, 4⟩]⟩ =
        .ok [⟨⟨2, 0⟩, 6⟩, ⟨⟨2, 0⟩, 6⟩, ⟨⟨3, 0⟩, 8⟩, ⟨⟨4, 0⟩, 10⟩] := by decide +kernel
  cases hlist.symm.trans hcrossings
  exact ⟨_, _, ha, hb, hlist, (hcount ⟨2, 0⟩ (by decide)).symm⟩

end Wire

end Shipboard
