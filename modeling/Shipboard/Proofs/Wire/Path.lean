import Mathlib.Tactic
import Shipboard.Proofs.Grid
import Shipboard.Proofs.Outcome
import Shipboard.Wire.Basic

/-!
# The path of a wire

A wire is laid in straight segments, but what it is about is the path along which one comes step by
step from the origin.  Here the two are tied to each other.

* `Wire.readMoves` are the moves of a text, and `Wire.path` is the path that moves describe: the
  points visited, one unit step after the other;
* `Wire.exists_moves_of_parse` says which segments are laid for the moves of a text that is
  accepted;
* `Wire.exists_segment_iff`: the steps after which a path is at a point are the steps that the
  segments take to it, on all the segments that go through the point.
-/

namespace Shipboard

/-- The unit steps that a move consists of. -/
def Move.strides (m : Move) : List Point :=
  List.replicate m.distance (m.direction.steps 1)

namespace Wire

/-- The points visited from a start on, one unit step at a time. -/
def pathFrom (start : Point) (moves : List Move) : List Point :=
  (moves.flatMap Move.strides).scanl (· + ·) start

/-- The points that a wire visits from the origin on, one unit step at a time; the step number of a
visit is its index. -/
def path (moves : List Move) : List Point :=
  pathFrom Point.origin moves

/-- The least step number at which a path is at a point. -/
def firstVisit (path : List Point) (p : Point) : ℕ :=
  path.idxOf p

/-- The number of unit steps of some moves. -/
def totalDistance (moves : List Move) : ℕ :=
  (moves.map Move.distance).sum

/-- The moves that a text lists. -/
def readMoves (text : String) : Except Misreading (List Move) :=
  (moveTexts text.toList).mapM Move.parse

/-- The segments of some moves from a start that a number of steps leads to. -/
def segmentsFrom (start : Point) (before : ℕ) : List Move → List Segment
  | [] => []
  | m :: moves =>
    ⟨start, start + m.offset, before⟩ ::
      segmentsFrom (start + m.offset) (before + m.distance) moves

theorem isLeast_firstVisit {path : List Point} {p : Point} (h : p ∈ path) :
    IsLeast {k | path[k]? = some p} (firstVisit path p) := by
  refine ⟨List.getElem?_idxOf h, fun k hk => ?_⟩
  obtain ⟨hlt, rfl⟩ := List.getElem?_eq_some_iff.1 hk
  by_contra hlater
  simpa using List.not_of_lt_findIdx (Nat.lt_of_not_le hlater)

theorem length_pathFrom (start : Point) (moves : List Move) :
    (pathFrom start moves).length = totalDistance moves + 1 := by
  simp [pathFrom, totalDistance, List.length_flatMap, Move.strides]

/-! ### What is laid for a text -/

/-- The moves from a start stay on the grid, and none makes the wire too long. -/
def Fits (start : Point) (before : ℕ) : List Move → Prop
  | [] => True
  | m :: moves =>
    onGrid (start + m.offset) = true ∧ before + m.distance < lengthLimit ∧
      Fits (start + m.offset) (before + m.distance) moves

/-- A text and others are laid if the text can be read as a move that fits, and the others are laid
from where it leads. -/
theorem layFrom_cons_eq_ok_iff {start : Point} {before : ℕ} {text : List Char}
    {texts : List (List Char)} {segments : List Segment} :
    layFrom start before (text :: texts) = .ok segments ↔
      ∃ m others, Move.parse text = .ok m ∧ onGrid (start + m.offset) = true ∧
        before + m.distance < lengthLimit ∧
        layFrom (start + m.offset) (before + m.distance) texts = .ok others ∧
        segments = ⟨start, start + m.offset, before⟩ :: others := by
  rw [layFrom, bind_eq_ok]
  dsimp only
  constructor
  · rintro ⟨m, hm, h⟩
    split_ifs at h with hgrid hlength hlength
    · cases h
    · cases h
    · cases h
    · obtain ⟨others, hothers, h⟩ := bind_eq_ok.1 h
      exact ⟨m, others, hm, by simpa using hgrid, Nat.lt_of_not_le hlength, hothers,
        (Except.ok.inj h).symm⟩
  · rintro ⟨m, others, hm, hgrid, hlength, hothers, rfl⟩
    refine ⟨m, hm, ?_⟩
    rw [if_neg (by simp [hgrid]), if_neg (Nat.not_le.2 hlength)]
    exact bind_eq_ok.2 ⟨others, hothers, rfl⟩

/-- What is laid for some texts, if they can be read and their moves fit. -/
theorem layFrom_eq_ok_iff {start : Point} {before : ℕ} {texts : List (List Char)}
    {segments : List Segment} :
    layFrom start before texts = .ok segments ↔
      ∃ moves, texts.mapM Move.parse = .ok moves ∧ Fits start before moves ∧
        segments = segmentsFrom start before moves := by
  induction texts generalizing start before segments with
  | nil => simp [layFrom, Fits, segmentsFrom, pure, Except.pure, eq_comm]
  | cons text texts ih =>
    simp only [layFrom_cons_eq_ok_iff, List.mapM_cons, bind_eq_ok, ih, pure, Except.pure,
      Except.ok.injEq]
    constructor
    · rintro ⟨m, _, hm, hgrid, hlength, ⟨moves, hmoves, hfits, rfl⟩, rfl⟩
      exact ⟨m :: moves, ⟨m, hm, moves, hmoves, rfl⟩, ⟨hgrid, hlength, hfits⟩, rfl⟩
    · rintro ⟨_, ⟨m, hm, moves, hmoves, rfl⟩, ⟨hgrid, hlength, hfits⟩, rfl⟩
      exact ⟨m, _, hm, hgrid, hlength, ⟨moves, hmoves, hfits, rfl⟩, rfl⟩

/-- The segments of a wire are those of the moves that its text lists. -/
theorem exists_moves_of_parse {text : String} {line : ℕ} {w : Wire} (h : parse text line = .ok w) :
    ∃ moves, readMoves text = .ok moves ∧ Fits Point.origin 0 moves ∧
      w = ⟨segmentsFrom Point.origin 0 moves⟩ := by
  unfold parse parseLine at h
  split at h
  · next segments hlay =>
    cases h
    obtain ⟨moves, hmoves, hfits, rfl⟩ := layFrom_eq_ok_iff.1 hlay
    exact ⟨moves, hmoves, hfits, rfl⟩
  · cases h

/-! ### Segments and the path -/

/-- The segment of a move goes through the points that the move leads to, and it takes as many
steps to each of them as lead there. -/
theorem segment_holds_iff {start p : Point} {before n : ℕ} {m : Move} :
    (⟨start, start + m.offset, before⟩ : Segment).region.Holds p ∧
        (⟨start, start + m.offset, before⟩ : Segment).stepsTo p = n ↔
      ∃ k ≤ m.distance, n = before + k ∧ p = start + m.direction.steps k := by
  obtain ⟨direction, distance⟩ := m
  simp only [Segment.region, Segment.stepsTo, Region.spanning, Region.Holds, Point.length,
    Move.offset, Point.ext_iff, Point.add_x, Point.add_y, Point.sub_x, Point.sub_y]
  constructor
  · rintro ⟨hholds, rfl⟩
    refine ⟨(p.x - start.x).natAbs + (p.y - start.y).natAbs, ?_, rfl, ?_⟩ <;>
      cases direction <;> simp only [Direction.steps] at hholds ⊢ <;> omega
  · rintro ⟨k, hk, rfl, hx, hy⟩
    cases direction <;> simp only [Direction.steps] at hx hy ⊢ <;> omega

theorem foldl_replicate_steps (start : Point) (d : Direction) (k : ℕ) :
    (List.replicate k (d.steps 1)).foldl (· + ·) start = start + d.steps k := by
  induction k generalizing start with
  | zero => cases d <;> simp [Direction.steps, Point.ext_iff]
  | succ k ih =>
    rw [List.replicate_succ, List.foldl_cons, ih]
    cases d <;> simp [Direction.steps, Point.ext_iff] <;> omega

/-- A path goes through the points that its first move leads to, and then on from the last. -/
theorem getElem?_pathFrom_cons {start : Point} {m : Move} {moves : List Move} {k : ℕ} :
    (pathFrom start (m :: moves))[k]? =
      if k < m.distance then some (start + m.direction.steps k)
      else (pathFrom (start + m.offset) moves)[k - m.distance]? := by
  rw [pathFrom, pathFrom, List.flatMap_cons, List.getElem?_scanl, List.getElem?_scanl,
    List.length_append, List.take_append, List.foldl_append, Move.strides, List.length_replicate,
    List.take_replicate, foldl_replicate_steps]
  by_cases hk : k < m.distance
  · rw [if_pos hk, if_pos (by omega), Nat.min_eq_left hk.le, Nat.sub_eq_zero_of_le hk.le]
    rfl
  · rw [if_neg hk, Nat.min_eq_right (by omega)]
    have hle : k ≤ m.distance + (moves.flatMap Move.strides).length ↔
        k - m.distance ≤ (moves.flatMap Move.strides).length := by omega
    simp only [hle]
    rfl

theorem getElem?_pathFrom_zero (start : Point) (moves : List Move) :
    (pathFrom start moves)[0]? = some start := by
  simp [pathFrom]

/-- **The segments of a wire cover its path.**  Apart from the start, the steps that segments take
to a point are the steps after which the path is there. -/
theorem exists_segment_iff {start p : Point} {before n : ℕ} {moves : List Move} :
    (n = before ∧ p = start ∨
        ∃ s ∈ segmentsFrom start before moves, s.region.Holds p ∧ s.stepsTo p = n) ↔
      ∃ k, n = before + k ∧ (pathFrom start moves)[k]? = some p := by
  induction moves generalizing start before with
  | nil => simp [segmentsFrom, pathFrom, List.getElem?_singleton, eq_comm]
  | cons m moves ih =>
    simp only [segmentsFrom, List.mem_cons, exists_eq_or_imp, segment_holds_iff]
    constructor
    · rintro (⟨rfl, rfl⟩ | ⟨k, hk, rfl, rfl⟩ | hlater)
      · exact ⟨0, rfl, getElem?_pathFrom_zero _ _⟩
      · refine ⟨k, rfl, ?_⟩
        rcases Nat.lt_or_eq_of_le hk with hlt | rfl
        · rw [getElem?_pathFrom_cons, if_pos hlt]
        · -- the last point of a segment is the first point of what follows
          rw [getElem?_pathFrom_cons, if_neg (by omega), Nat.sub_self, getElem?_pathFrom_zero]
          rfl
      · obtain ⟨k, rfl, hk⟩ := ih.1 (.inr hlater)
        refine ⟨m.distance + k, by omega, ?_⟩
        rw [getElem?_pathFrom_cons, if_neg (by omega), Nat.add_sub_cancel_left, hk]
    · rintro ⟨k, rfl, hk⟩
      rw [getElem?_pathFrom_cons] at hk
      split_ifs at hk with hlt
      · cases hk
        exact .inr (.inl ⟨k, hlt.le, rfl, rfl⟩)
      · have hsplit : before + k = before + m.distance + (k - m.distance) := by omega
        rcases ih.2 ⟨k - m.distance, hsplit, hk⟩ with ⟨hn, rfl⟩ | hlater
        · exact .inr (.inl ⟨m.distance, le_rfl, hn, rfl⟩)
        · exact .inr (.inr hlater)

end Wire

end Shipboard
