import Mathlib.Tactic
import Shipboard.Proofs.Wire.Grammar
import Shipboard.Proofs.Wire.Optimum

/-!
# Wires in words

Coordinates are words of thirty-two bits and numbers of steps are words of sixty-four, but apart
from where a wire is read, nothing is looked at when they are worked out.  That nothing has to be
comes from the moves: none of them is longer than a word, and a point is only seen from the start of
a segment that goes through it.

* `Point.inWords` and `Wire.stepsInWord` are out of range where a coordinate or a number of steps
  does not fit its word;
* `Segment.stepsToInWords`, `Crossing.distanceInWords`, `Wire.crossingsInWords` and
  `Wire.solveInWords` work out in words what `Segment.stepsTo`, `Crossing.distance`,
  `Wire.crossings` and `Wire.solve` are;
* `Segment.Within total` is what is known of the segments of a wire that has been read;
* `Wire.crossingsInWords_eq` and `Wire.solveInWords_eq`: only a sum of the steps of both wires can
  be out of range;
* `Wire.words_of_parse`: the ranges of everything that is worked out for two wires.
-/

namespace Shipboard

variable {s t : Segment} {p : Point} {c : Crossing} {total total' : ℕ}

/-! ### Working in words -/

/-- A point of which both coordinates have to fit their words. -/
def Point.inWords (p : Point) : Except Failure Point := do
  return ⟨← withinSigned Move.gridBits p.x, ← withinSigned Move.gridBits p.y⟩

/-- The unit step of a move, each coordinate times the distance. -/
def Move.product (m : Move) : Point :=
  ⟨(m.direction.steps 1).x * m.distance, (m.direction.steps 1).y * m.distance⟩

/-- A number of steps that has to fit its word. -/
def Wire.stepsInWord (n : ℕ) : Except Failure ℕ :=
  if n < lengthLimit then .ok n else .error .outOfRange

/-- The number of steps along the whole wire to a point on the segment. -/
def Segment.stepsToInWords (s : Segment) (p : Point) : Except Failure ℕ := do
  let way ← (p - s.start).inWords
  let steps ← Wire.stepsInWord way.length
  Wire.stepsInWord (s.before + steps)

/-- The distance of a crossing from the origin. -/
def Crossing.distanceInWords (c : Crossing) : Except Failure ℕ := do
  let way ← (c.point - Point.origin).inWords
  Wire.stepsInWord way.length

/-- The crossings of two segments, the origin left out. -/
def Segment.crossingsInWords (s t : Segment) : Except Failure (List Crossing) :=
  match s.region.meet? t.region with
  | none => .ok []
  | some shared => (shared.points.filter (· ≠ Point.origin)).mapM fun p => do
    let first ← s.stepsToInWords p
    let second ← t.stepsToInWords p
    return ⟨p, ← Wire.stepsInWord (first + second)⟩

namespace Wire

/-- Every meeting of two wires, once for each pair of segments that meet there. -/
def crossingsInWords (a b : Wire) : Except Failure (List Crossing) :=
  let each (s : Segment) := (b.segments.mapM s.crossingsInWords).map List.flatten
  (a.segments.mapM each).map List.flatten

/-- The least distance from the origin to a crossing. -/
def closestInWords (crossings : List Crossing) : Except Failure ℕ := do
  let distances ← crossings.mapM Crossing.distanceInWords
  match distances.min? with
  | some distance => return distance
  | none => Failure.because (.unsolvable .noCrossing)

/-- The distance to the closest crossing of two wires, and the fewest steps to a crossing. -/
def solveInWords (text : String) : Except Failure (ℕ × ℕ) := do
  let (a, b) ← parsePair text
  let crossings ← a.crossingsInWords b
  return (← closestInWords crossings, ← fewestSteps crossings)

/-- The number of steps along a wire. -/
def length (w : Wire) : ℕ :=
  (w.segments.map fun s => (s.finish - s.start).length).sum

end Wire

open Wire (OnGrid stepsInWord)

theorem Point.inWords_eq_ok (h : OnGrid p) : p.inWords = .ok p := by
  obtain ⟨hx, hx', hy, hy'⟩ := h
  rw [inWords, withinSigned, withinSigned, if_pos (Move.fitsSigned_gridBits_iff.2 ⟨hx, hx'⟩),
    if_pos (Move.fitsSigned_gridBits_iff.2 ⟨hy, hy'⟩)]
  rfl

theorem Wire.stepsInWord_eq_ok {n : ℕ} (h : n < 2 ^ 64) : stepsInWord n = .ok n :=
  if_pos h

theorem Point.add_sub_start (start way : Point) : start + way - start = way := by
  simp [ext_iff]

/-- A point on the grid is not too far from the origin. -/
theorem Point.length_le (h : OnGrid p) : p.length ≤ 2 ^ 32 := by
  obtain ⟨hx, hx', hy, hy'⟩ := h
  rw [length]
  omega

namespace Move

variable {m : Move}

theorem product_eq (m : Move) : m.product = m.offset := by
  obtain ⟨direction, distance⟩ := m
  cases direction <;> simp [product, offset, Direction.steps]

theorem onGrid_offset (h : m.distance < 2 ^ 31) : OnGrid m.offset := by
  obtain ⟨direction, distance⟩ := m
  cases direction <;> simp only [OnGrid, offset, Direction.steps] at h ⊢ <;> omega

theorem length_offset (m : Move) : m.offset.length = m.distance := by
  obtain ⟨direction, distance⟩ := m
  cases direction <;> simp [Point.length, offset, Direction.steps]

end Move

/-! ### The segments of a wire that has been read -/

/-- A segment of a wire that has so many steps in all: its ends are on the grid and so is the one
seen from the other, and the wire does not end before the segment does. -/
structure Segment.Within (s : Segment) (total : ℕ) : Prop where
  start : OnGrid s.start
  finish : OnGrid s.finish
  way : OnGrid (s.finish - s.start)
  steps_le : s.before + (s.finish - s.start).length ≤ total

namespace Segment.Within

theorem onGrid (h : s.Within total) (hp : s.region.Holds p) : OnGrid p := by
  obtain ⟨hstart, hfinish, -, -⟩ := h
  simp only [OnGrid, region, Region.spanning, Region.Holds] at *
  omega

/-- A point on a segment is seen from its start in the same direction as its end, and nearer. -/
theorem onGrid_way (h : s.Within total) (hp : s.region.Holds p) : OnGrid (p - s.start) := by
  obtain ⟨-, -, hway, -⟩ := h
  simp only [OnGrid, region, Region.spanning, Region.Holds, Point.sub_x, Point.sub_y] at *
  omega

theorem stepsTo_le (h : s.Within total) (hp : s.region.Holds p) : s.stepsTo p ≤ total := by
  have hsteps := h.steps_le
  simp only [stepsTo, region, Region.spanning, Region.Holds, Point.length, Point.sub_x,
    Point.sub_y] at *
  omega

theorem stepsToInWords_eq (h : s.Within total) (htotal : total < 2 ^ 64)
    (hp : s.region.Holds p) : s.stepsToInWords p = .ok (s.stepsTo p) := by
  have hway := h.onGrid_way hp
  have hlength := Point.length_le hway
  have hsteps := h.stepsTo_le hp
  show (p - s.start).inWords >>= _ = _
  rw [Point.inWords_eq_ok hway]
  show stepsInWord (p - s.start).length >>= _ = _
  rw [Wire.stepsInWord_eq_ok (by omega)]
  exact Wire.stepsInWord_eq_ok (hsteps.trans_lt htotal)

end Segment.Within

namespace Wire

variable {start : Point} {before line : ℕ} {moves : List Move} {text : String} {a b w : Wire}

theorem totalDistance_cons (m : Move) (moves : List Move) :
    totalDistance (m :: moves) = m.distance + totalDistance moves := by
  simp [totalDistance]

/-- The segments of moves that are not too long and that fit. -/
theorem within_of_mem_segmentsFrom (hstart : OnGrid start)
    (hshort : ∀ m ∈ moves, m.distance < 2 ^ 31) (hfits : Fits start before moves)
    (hs : s ∈ segmentsFrom start before moves) : s.Within (before + totalDistance moves) := by
  induction moves generalizing start before with
  | nil => cases hs
  | cons m moves ih =>
    obtain ⟨hgrid, -, hfits⟩ := hfits
    obtain ⟨hm, hmoves⟩ := List.forall_mem_cons.1 hshort
    rw [totalDistance_cons, ← Nat.add_assoc]
    rcases List.mem_cons.1 hs with rfl | hs
    · refine ⟨hstart, onGrid_iff.1 hgrid, ?_, ?_⟩
      · rw [Point.add_sub_start]
        exact m.onGrid_offset hm
      · show before + (start + m.offset - start).length ≤ _
        rw [Point.add_sub_start, m.length_offset]
        exact Nat.le_add_right _ _
    · exact ih (onGrid_iff.1 hgrid) hmoves hfits hs

theorem length_segmentsFrom_eq (start : Point) (before : ℕ) (moves : List Move) :
    length ⟨segmentsFrom start before moves⟩ = totalDistance moves := by
  induction moves generalizing start before with
  | nil => rfl
  | cons m moves ih =>
    have hlength := ih (start + m.offset) (before + m.distance)
    rw [length] at hlength ⊢
    rw [segmentsFrom, List.map_cons, List.sum_cons, hlength, Point.add_sub_start, m.length_offset,
      totalDistance_cons]

/-- No move that is read is too long for a word. -/
theorem distance_lt_of_readMoves (h : readMoves text = .ok moves) :
    ∀ m ∈ moves, m.distance < 2 ^ 31 := by
  intro m hm
  obtain ⟨piece, -, hpiece⟩ := exists_mem_of_mapM h hm
  obtain ⟨numeral, -, -, hlt⟩ := Move.parse_eq_ok_iff.1 hpiece
  exact hlt

/-- A wire of which the number of steps fits its word, and the segments are within. -/
structure Within (w : Wire) : Prop where
  length_lt : w.length < 2 ^ 64
  segments : ∀ s ∈ w.segments, s.Within w.length

theorem within_of_fits (hshort : ∀ m ∈ moves, m.distance < 2 ^ 31)
    (hfits : Fits Point.origin 0 moves) : Within ⟨segmentsFrom Point.origin 0 moves⟩ := by
  constructor
  · rw [length_segmentsFrom_eq]
    exact (fits_iff.1 hfits).length
  · intro s hs
    rw [length_segmentsFrom_eq, ← Nat.zero_add (totalDistance moves)]
    exact within_of_mem_segmentsFrom (onGrid_iff.1 (by decide)) hshort hfits hs

theorem within_of_parse (h : parse text line = .ok w) : w.Within := by
  obtain ⟨moves, hmoves, hfits, rfl⟩ := exists_moves_of_parse h
  exact within_of_fits (distance_lt_of_readMoves hmoves) hfits

theorem within_of_parsePair (h : parsePair text = .ok (a, b)) : a.Within ∧ b.Within := by
  have hline : ∀ {cs : List Char} {line : ℕ} {w : Wire}, parseLine cs line = .ok w → w.Within := by
    intro cs line w h
    have hparse : parse (String.ofList cs) line = .ok w := by rwa [parse, String.toList_ofList]
    exact within_of_parse hparse
  unfold parsePair at h
  split at h
  · cases h
  · next first number others _ =>
    obtain ⟨a', ha, h⟩ := bind_eq_ok.1 h
    split at h
    · cases h
    · next second number' _ =>
      obtain ⟨b', hb, h⟩ := bind_eq_ok.1 h
      cases h
      exact ⟨hline ha, hline hb⟩

/-! ### Crossings -/

theorem onGrid_of_mem_meetings (ha : a.Within) (h : c ∈ a.meetings b) : OnGrid c.point := by
  simp only [meetings, List.mem_flatMap, Segment.mem_crossings_iff] at h
  obtain ⟨s, hs, t, -, -, ⟨hholds, -⟩, -⟩ := h
  exact (ha.segments s hs).onGrid hholds

theorem steps_le_of_mem_meetings (ha : a.Within) (hb : b.Within) (h : c ∈ a.meetings b) :
    c.steps ≤ a.length + b.length := by
  simp only [meetings, List.mem_flatMap, Segment.mem_crossings_iff] at h
  obtain ⟨s, hs, t, ht, -, ⟨hsholds, htholds⟩, hsteps⟩ := h
  rw [hsteps]
  have hfirst := (ha.segments s hs).stepsTo_le hsholds
  have hsecond := (hb.segments t ht).stepsTo_le htholds
  omega

/-- Some crossings of which the numbers of steps have to fit their words. -/
def withinWords (all : List Crossing) : Except Failure (List Crossing) :=
  if all.all fun c => c.steps < lengthLimit then .ok all else .error .outOfRange

theorem withinWords_append (first second : List Crossing) :
    withinWords (first ++ second) = do
      let first ← withinWords first
      let second ← withinWords second
      return first ++ second := by
  simp only [withinWords, List.all_append, Bool.and_eq_true]
  by_cases hfirst : first.all fun c => c.steps < lengthLimit
  · by_cases hsecond : second.all fun c => c.steps < lengthLimit
    · rw [if_pos ⟨hfirst, hsecond⟩, if_pos hfirst, if_pos hsecond]
      rfl
    · rw [if_neg (hsecond ·.2), if_pos hfirst, if_neg hsecond]
      rfl
  · rw [if_neg (hfirst ·.1), if_neg hfirst]
    rfl

/-- Lists of crossings that are looked at one after the other. -/
theorem mapM_withinWords {α : Type} {f : α → Except Failure (List Crossing)}
    {g : α → List Crossing} {xs : List α} (h : ∀ x ∈ xs, f x = withinWords (g x)) :
    (xs.mapM f).map List.flatten = withinWords (xs.flatMap g) := by
  induction xs with
  | nil => rfl
  | cons x xs ih =>
    obtain ⟨hx, hxs⟩ := List.forall_mem_cons.1 h
    rw [List.mapM_cons, List.flatMap_cons, withinWords_append, ← ih hxs, hx]
    cases withinWords (g x) with
    | error why => rfl
    | ok first => cases xs.mapM f <;> rfl

theorem withinWords_singleton (p : Point) (steps : ℕ) :
    withinWords [⟨p, steps⟩] = (stepsInWord steps).map fun steps => [⟨p, steps⟩] := by
  by_cases hlt : steps < lengthLimit
  · rw [stepsInWord, if_pos hlt, withinWords, if_pos (by simpa using hlt)]
    rfl
  · rw [stepsInWord, if_neg hlt, withinWords, if_neg (by simpa using hlt)]
    rfl

/-- Crossings that are looked at one after the other. -/
theorem mapM_stepsInWord {f : Point → Except Failure Crossing} {steps : Point → ℕ}
    {points : List Point} (h : ∀ p ∈ points, f p = (stepsInWord (steps p)).map (Crossing.mk p)) :
    points.mapM f = withinWords (points.map fun p => ⟨p, steps p⟩) := by
  induction points with
  | nil => rfl
  | cons p points ih =>
    obtain ⟨hp, hpoints⟩ := List.forall_mem_cons.1 h
    rw [List.mapM_cons, List.map_cons, ← List.singleton_append, withinWords_append, ← ih hpoints,
      withinWords_singleton, hp]
    cases stepsInWord (steps p) with
    | error why => rfl
    | ok n => cases points.mapM f <;> rfl

/-- The crossings of two segments can only be out of range by the sum of their steps. -/
theorem segment_crossingsInWords_eq (hs : s.Within total) (ht : t.Within total')
    (htotal : total < 2 ^ 64) (htotal' : total' < 2 ^ 64) :
    s.crossingsInWords t = withinWords (s.crossings t) := by
  rw [Segment.crossingsInWords, Segment.crossings]
  cases hmeet : s.region.meet? t.region with
  | none => rfl
  | some shared =>
    refine mapM_stepsInWord fun p hp => ?_
    obtain ⟨hp, -⟩ := List.mem_filter.1 hp
    obtain ⟨hsholds, htholds⟩ :=
      Region.exists_meet?_iff.1 ⟨shared, hmeet, Region.mem_points_iff.1 hp⟩
    rw [hs.stepsToInWords_eq htotal hsholds, ht.stepsToInWords_eq htotal' htholds]
    show (stepsInWord (s.stepsTo p + t.stepsTo p) >>= _) = _
    cases stepsInWord (s.stepsTo p + t.stepsTo p) <;> rfl

theorem crossingsInWords_eq (ha : a.Within) (hb : b.Within) :
    a.crossingsInWords b = a.crossings b := by
  refine mapM_withinWords fun s hs => mapM_withinWords fun t ht => ?_
  exact segment_crossingsInWords_eq (ha.segments s hs) (hb.segments t ht) ha.length_lt hb.length_lt

theorem crossings_eq_ok_of_length (ha : a.Within) (hb : b.Within)
    (h : a.length + b.length < 2 ^ 64) : a.crossings b = .ok (a.meetings b) := by
  refine if_pos (List.all_eq_true.2 fun c hc => decide_eq_true ?_)
  exact (steps_le_of_mem_meetings ha hb hc).trans_lt h

/-! ### Answers -/

theorem distance_le (h : OnGrid c.point) : c.distance ≤ 2 ^ 32 := by
  rw [distance_eq]
  exact Point.length_le h

theorem distanceInWords_eq (h : OnGrid c.point) : c.distanceInWords = .ok c.distance := by
  have horigin : c.point - Point.origin = c.point := by simp [Point.ext_iff, Point.origin]
  have hlength := Point.length_le h
  rw [Crossing.distanceInWords, Crossing.distance, horigin, Point.inWords_eq_ok h]
  exact stepsInWord_eq_ok (by omega)

theorem closestInWords_eq {crossings : List Crossing} (h : ∀ c ∈ crossings, OnGrid c.point) :
    closestInWords crossings = (closest crossings).mapError .fault := by
  have hdistances : crossings.mapM Crossing.distanceInWords =
      .ok (crossings.map Crossing.distance) := by
    rw [mapM_eq_ok_iff, List.forall₂_map_right_iff, List.forall₂_same]
    exact fun c hc => distanceInWords_eq (h c hc)
  rw [closestInWords, hdistances, closest]
  show (match (crossings.map Crossing.distance).min? with
    | some distance => pure distance
    | none => Failure.because (.unsolvable .noCrossing)) = _
  cases (crossings.map Crossing.distance).min? <;> rfl

theorem solveInWords_eq (text : String) : solveInWords text = solve text := by
  rw [solveInWords, solve]
  cases hpair : parsePair text with
  | error why => rfl
  | ok wires =>
    obtain ⟨a, b⟩ := wires
    obtain ⟨ha, hb⟩ := within_of_parsePair hpair
    show (a.crossingsInWords b >>= _) = (a.crossings b >>= _)
    rw [crossingsInWords_eq ha hb, crossings]
    split_ifs
    · show (closestInWords (a.meetings b) >>= _) = _
      rw [closestInWords_eq fun c hc => onGrid_of_mem_meetings ha hc]
      rfl
    · rfl

theorem solve_ne_outOfRange (hpair : parsePair text = .ok (a, b))
    (h : a.length + b.length < 2 ^ 64) : solve text ≠ .error .outOfRange := by
  obtain ⟨ha, hb⟩ := within_of_parsePair hpair
  rw [solve, hpair]
  show (a.crossings b >>= _) ≠ _
  rw [crossings_eq_ok_of_length ha hb h]
  show ((closest (a.meetings b)).mapError Failure.fault >>= _) ≠ _
  cases closest (a.meetings b) with
  | error why => nofun
  | ok distance =>
    show ((fewestSteps (a.meetings b)).mapError Failure.fault >>= _) ≠ _
    cases fewestSteps (a.meetings b) <;> nofun

/-! ### Everything for two wires -/

/-- A wire that was laid for some moves can be traced in words: the grid holds where its moves lead
and the ways along its segments, and a word holds the steps. -/
structure Traced (moves : List Move) (w : Wire) : Prop where
  product : ∀ m ∈ moves, m.product = m.offset ∧ OnGrid m.product
  length_eq : w.length = totalDistance moves
  length_lt : w.length < 2 ^ 64
  way : ∀ s ∈ w.segments, ∀ p, s.region.Holds p → OnGrid (p - s.start)
  steps : ∀ s ∈ w.segments, ∀ p, s.region.Holds p →
    s.stepsToInWords p = .ok (s.stepsTo p) ∧ s.stepsTo p ≤ w.length

theorem traced_of_parse (h : parse text line = .ok w) :
    ∃ moves, readMoves text = .ok moves ∧ w.Traced moves := by
  have hwithin := within_of_parse h
  obtain ⟨moves, hmoves, -, rfl⟩ := exists_moves_of_parse h
  refine ⟨moves, hmoves, fun m hm => ?_, length_segmentsFrom_eq _ _ _, hwithin.length_lt,
    fun s hs p hp => (hwithin.segments s hs).onGrid_way hp, fun s hs p hp => ?_⟩
  · rw [m.product_eq]
    exact ⟨rfl, m.onGrid_offset (distance_lt_of_readMoves hmoves m hm)⟩
  · have hs := hwithin.segments s hs
    exact ⟨hs.stepsToInWords_eq hwithin.length_lt hp, hs.stepsTo_le hp⟩

/-- **Wires are traced in words**: crossings and answers come out in words as they do without, if
the wires together are not too long. -/
theorem words_of_parse {s t : String} {m n : ℕ} {a b : Wire} (ha : parse s m = .ok a)
    (hb : parse t n = .ok b) :
    (∃ ms ns, readMoves s = .ok ms ∧ readMoves t = .ok ns ∧ a.Traced ms ∧ b.Traced ns) ∧
      (∀ c ∈ a.meetings b, c.distanceInWords = .ok c.distance ∧ c.distance ≤ 2 ^ 32 ∧
        c.steps ≤ a.length + b.length) ∧
      a.crossingsInWords b = a.crossings b ∧
      (∀ text, solveInWords text = solve text) ∧
      (a.length + b.length < 2 ^ 64 →
        a.crossingsInWords b = .ok (a.meetings b) ∧
        closestInWords (a.meetings b) = (closest (a.meetings b)).mapError .fault ∧
        ∀ text, parsePair text = .ok (a, b) → solve text ≠ .error .outOfRange) := by
  obtain ⟨ms, hms, hatraced⟩ := traced_of_parse ha
  obtain ⟨ns, hns, hbtraced⟩ := traced_of_parse hb
  replace ha := within_of_parse ha
  replace hb := within_of_parse hb
  have hwords := crossingsInWords_eq ha hb
  refine ⟨⟨ms, ns, hms, hns, hatraced, hbtraced⟩, fun c hc => ?_, hwords, solveInWords_eq,
    fun h => ⟨?_, ?_, fun text hpair => solve_ne_outOfRange hpair h⟩⟩
  · have hgrid := onGrid_of_mem_meetings ha hc
    exact ⟨distanceInWords_eq hgrid, distance_le hgrid, steps_le_of_mem_meetings ha hb hc⟩
  · rw [hwords, crossings_eq_ok_of_length ha hb h]
  · exact closestInWords_eq fun c hc => onGrid_of_mem_meetings ha hc

/-- Both wires go along the grid as far as a move can go, and they meet at its left edge, which the
first one touches and leaves again. -/
theorem words_of_parse_edges :
    ∃ a b, parse "L2147483647,L1,R2147483647" 1 = .ok a ∧
      parse "U2147483647,L2147483647,L1,D2147483647" 2 = .ok b ∧
      a.crossingsInWords b =
        .ok [⟨⟨-2147483648, 0⟩, 8589934590⟩, ⟨⟨-2147483648, 0⟩, 8589934590⟩] ∧
      solveInWords "L2147483647,L1,R2147483647\nU2147483647,L2147483647,L1,D2147483647" =
        .ok (2147483648, 8589934590) := by
  have ha : parse "L2147483647,L1,R2147483647" 1 = .ok ⟨[⟨⟨0, 0⟩, ⟨-2147483647, 0⟩, 0⟩,
      ⟨⟨-2147483647, 0⟩, ⟨-2147483648, 0⟩, 2147483647⟩,
      ⟨⟨-2147483648, 0⟩, ⟨-1, 0⟩, 2147483648⟩]⟩ := by decide +kernel
  have hb : parse "U2147483647,L2147483647,L1,D2147483647" 2 = .ok ⟨[⟨⟨0, 0⟩, ⟨0, 2147483647⟩, 0⟩,
      ⟨⟨0, 2147483647⟩, ⟨-2147483647, 2147483647⟩, 2147483647⟩,
      ⟨⟨-2147483647, 2147483647⟩, ⟨-2147483648, 2147483647⟩, 4294967294⟩,
      ⟨⟨-2147483648, 2147483647⟩, ⟨-2147483648, 0⟩, 4294967295⟩]⟩ := by decide +kernel
  obtain ⟨-, -, -, hsolve, hall⟩ := words_of_parse ha hb
  obtain ⟨hcrossings, -⟩ := hall (by decide +kernel)
  refine ⟨_, _, ha, hb, hcrossings.trans ?_, (hsolve _).trans ?_⟩ <;> decide +kernel

end Wire

end Shipboard
