import Mathlib.Tactic
import Shipboard.Proofs.Text.Lines
import Shipboard.Proofs.Text.Numeral
import Shipboard.Proofs.Wire.Path

/-!
# How wires are written

* `Move.Writes text m`: the text is the letter of a direction with a numeral behind it;
  `Move.parse_eq_ok_iff` says that exactly these texts are read;
* `Wire.Lists text moves`: the text is a list of texts of moves with commas between them;
* `Wire.WithinLimits moves`: wherever the moves end, the place is on the grid, and there are not
  too many steps in all; `Wire.fits_iff` says that nothing else is looked at when a wire is laid;
* `Wire.LaidFrom start before moves segments`: each segment is laid for a move, behind the one
  before;
* `Wire.written moves` is the shortest text for some moves;
* `Wire.parse_of_grammar`: which texts are accepted as wires, and what is laid for them.
-/

namespace Shipboard

theorem Direction.ofLetter?_eq_some_iff {c : Char} {d : Direction} :
    ofLetter? c = some d ↔ c = d.letter := by
  constructor
  · intro h
    unfold ofLetter? at h
    split at h <;> cases h <;> rfl
  · rintro rfl
    exact ofLetter?_letter d

namespace Move

theorem fitsSigned_gridBits_iff {v : ℤ} :
    Text.fitsSigned gridBits v = true ↔ -2 ^ 31 ≤ v ∧ v < 2 ^ 31 :=
  Text.fitsSigned_iff

/-- A text writes a move: it is the letter of the direction with a numeral for the distance behind
it, which fits a signed word of thirty-two bits. -/
def Writes (text : List Char) (m : Move) : Prop :=
  ∃ numeral, text = m.direction.letter :: numeral ∧ Text.Numeral numeral m.distance ∧
    m.distance < 2 ^ 31

/-- The texts that write a move are read as this move, and no others are. -/
theorem parse_eq_ok_iff {text : List Char} {m : Move} : parse text = .ok m ↔ Writes text m := by
  cases text with
  | nil => simp [parse, Writes]
  | cons letter numeral =>
    constructor
    · intro h
      simp only [parse] at h
      split at h
      · cases h
      · next direction hdirection =>
        split at h
        · cases h
        · next distance hdistance =>
          split_ifs at h with hnegative
          cases h
          obtain ⟨hnumeral, hfits⟩ := Text.readSigned_eq_ok_iff.1 hdistance
          obtain ⟨-, hlt⟩ := fitsSigned_gridBits_iff.1 hfits
          have hletter := Direction.ofLetter?_eq_some_iff.1 hdirection
          refine ⟨numeral, by rw [hletter], ?_, ?_⟩
          · rwa [Int.toNat_of_nonneg (by omega)]
          · simp only
            omega
    · rintro ⟨_, htext, hnumeral, hlt⟩
      obtain ⟨rfl, rfl⟩ := List.cons_eq_cons.1 htext
      have hfits : Text.fitsSigned gridBits (m.distance : ℤ) = true :=
        fitsSigned_gridBits_iff.2 ⟨by omega, by exact_mod_cast hlt⟩
      have hread := Text.readSigned_eq_ok_iff.2 ⟨hnumeral, hfits⟩
      simp [parse, Direction.ofLetter?_letter, hread]

/-- The shortest text for a move. -/
def written (m : Move) : List Char :=
  m.direction.letter :: Nat.toDigits 10 m.distance

/-- The shortest text for a move has neither blanks nor commas. -/
theorem notBlank_of_mem_written {m : Move} {c : Char} (hc : c ∈ m.written) :
    Text.isBlank c = false ∧ c ≠ ',' := by
  rcases List.mem_cons.1 hc with rfl | hc
  · cases m.direction <;> decide
  · have hdigit := Nat.isDigit_of_mem_toDigits (by decide) (by decide) hc
    refine ⟨Text.isBlank_of_isDigit hdigit, ?_⟩
    rintro rfl
    cases hdigit

/-- The shortest text for a move writes it. -/
theorem writes_written {m : Move} (h : m.distance < 2 ^ 31) : Writes m.written m :=
  ⟨_, rfl, Text.numeral_toDigits m.distance, h⟩

end Move

namespace Wire

variable {start : Point} {before line : ℕ} {m : Move} {moves : List Move} {s : Segment}
  {segments : List Segment} {text : String}

/-! ### Texts of moves -/

/-- A text lists moves: apart from blanks at its ends it consists of pieces with a comma between any
two, each of which writes a move, again apart from blanks at its ends. -/
def Lists (text : List Char) (moves : List Move) : Prop :=
  ∃ pieces, pieces ≠ [] ∧ (∀ piece ∈ pieces, ',' ∉ piece) ∧
    Text.trim text = [','].intercalate pieces ∧
    List.Forall₂ (fun piece m => Move.Writes (Text.trim piece) m) pieces moves

theorem readMoves_eq_ok_iff : readMoves text = .ok moves ↔ Lists text.toList moves := by
  simp only [readMoves, moveTexts, mapM_eq_ok_iff, List.forall₂_map_left_iff, Move.parse_eq_ok_iff]
  constructor
  · intro h
    obtain ⟨hne, hcommas, htext⟩ := Text.splitOn_eq_iff.1 (Eq.refl (Text.splitOn ',' (Text.trim _)))
    exact ⟨_, hne, hcommas, htext, h⟩
  · rintro ⟨pieces, hne, hcommas, htext, h⟩
    rwa [Text.splitOn_eq_iff.2 ⟨hne, hcommas, htext⟩]

/-- A text lists some moves in one way only. -/
theorem Lists.unique {others : List Move} (h : Lists text.toList moves)
    (hothers : Lists text.toList others) : moves = others :=
  Except.ok.inj ((readMoves_eq_ok_iff.2 h).symm.trans (readMoves_eq_ok_iff.2 hothers))

/-- Nothing is a text for no moves at all. -/
theorem Lists.ne_nil {cs : List Char} (h : Lists cs moves) : moves ≠ [] := by
  rintro rfl
  obtain ⟨pieces, hne, -, -, hmoves⟩ := h
  exact hne (List.forall₂_nil_right_iff.1 hmoves)

/-! ### Moves within the limits -/

/-- Where moves lead from the origin: the sum of them all. -/
def endPoint (moves : List Move) : Point :=
  ⟨(moves.map fun m => m.offset.x).sum, (moves.map fun m => m.offset.y).sum⟩

/-- The coordinates of a point fit signed words of thirty-two bits. -/
def OnGrid (p : Point) : Prop :=
  -2 ^ 31 ≤ p.x ∧ p.x < 2 ^ 31 ∧ -2 ^ 31 ≤ p.y ∧ p.y < 2 ^ 31

/-- Wherever one of the moves ends, the place is on the grid, and the number of steps in all fits a
word of sixty-four bits. -/
structure WithinLimits (moves : List Move) : Prop where
  onGrid : ∀ k ≤ moves.length, OnGrid (endPoint (moves.take k))
  length : totalDistance moves < 2 ^ 64

theorem onGrid_iff {p : Point} : onGrid p = true ↔ OnGrid p := by
  rw [Wire.onGrid, Bool.and_eq_true, Move.fitsSigned_gridBits_iff, Move.fitsSigned_gridBits_iff,
    OnGrid, and_assoc]

theorem add_endPoint_nil (p : Point) : p + endPoint [] = p := by
  simp [endPoint, Point.ext_iff]

theorem add_endPoint_cons (p : Point) (m : Move) (moves : List Move) :
    p + endPoint (m :: moves) = p + m.offset + endPoint moves := by
  simp [endPoint, Point.ext_iff]
  omega

/-- What is looked at when moves are laid one after the other. -/
theorem fits_iff_of_onGrid (hstart : OnGrid start) (hbefore : before < lengthLimit) :
    Fits start before moves ↔
      (∀ k ≤ moves.length, OnGrid (start + endPoint (moves.take k))) ∧
        before + totalDistance moves < lengthLimit := by
  induction moves generalizing start before with
  | nil => simp [Fits, totalDistance, add_endPoint_nil, hstart, hbefore]
  | cons m moves ih =>
    have htotal : before + totalDistance (m :: moves) =
        before + m.distance + totalDistance moves := by
      simp [totalDistance]
      omega
    rw [Fits, onGrid_iff, htotal]
    constructor
    · rintro ⟨hgrid, hlength, hfits⟩
      obtain ⟨hends, htotal⟩ := (ih hgrid hlength).1 hfits
      refine ⟨fun k hk => ?_, htotal⟩
      cases k with
      | zero => rwa [List.take_zero, add_endPoint_nil]
      | succ k =>
        rw [List.take_succ_cons, add_endPoint_cons]
        exact hends k (by simpa using hk)
    · rintro ⟨hends, htotal⟩
      have hlater : ∀ k ≤ moves.length, OnGrid (start + m.offset + endPoint (moves.take k)) := by
        intro k hk
        have hend := hends (k + 1) (by simpa using hk)
        rwa [List.take_succ_cons, add_endPoint_cons] at hend
      have hgrid : OnGrid (start + m.offset) := by
        simpa [add_endPoint_nil] using hlater 0 (by omega)
      have hlength : before + m.distance < lengthLimit := by omega
      exact ⟨hgrid, hlength, (ih hgrid hlength).2 ⟨hlater, htotal⟩⟩

/-- Moves from the origin can be laid exactly if they are within the limits. -/
theorem fits_iff : Fits Point.origin 0 moves ↔ WithinLimits moves := by
  have horigin : ∀ p : Point, Point.origin + p = p := by
    intro p
    simp [Point.ext_iff, Point.origin]
  have hgrid : OnGrid Point.origin := onGrid_iff.1 (by decide)
  have hlimit : lengthLimit = 2 ^ 64 := rfl
  have hfits := @fits_iff_of_onGrid Point.origin 0 moves hgrid (by decide)
  simp only [horigin, Nat.zero_add, hlimit] at hfits
  rw [hfits]
  exact ⟨fun ⟨hends, hlength⟩ => ⟨hends, hlength⟩, fun h => ⟨h.onGrid, h.length⟩⟩

/-! ### Segments behind one another -/

/-- Segments are laid for moves, from a start that a number of steps leads to: they are connected,
and the steps before each of them are those of the moves before its own. -/
structure LaidFrom (start : Point) (before : ℕ) (moves : List Move) (segments : List Segment) :
    Prop where
  start_eq : ∀ s, segments.head? = some s → s.start = start
  connected : segments.IsChain fun s t => s.finish = t.start
  runs : List.Forall₂ (fun s m => s.finish = s.start + m.direction.steps m.distance) segments moves
  before_eq : ∀ i s, segments[i]? = some s → s.before = before + totalDistance (moves.take i)

theorem laidFrom_cons_iff :
    LaidFrom start before (m :: moves) (s :: segments) ↔
      s = ⟨start, start + m.offset, before⟩ ∧
        LaidFrom (start + m.offset) (before + m.distance) moves segments := by
  have htotal : ∀ i, before + totalDistance ((m :: moves).take (i + 1)) =
      before + m.distance + totalDistance (moves.take i) := by
    intro i
    simp [totalDistance]
    omega
  constructor
  · rintro ⟨hstart, hconnected, hruns, hbefore⟩
    obtain ⟨hrun, hruns⟩ := List.forall₂_cons.1 hruns
    obtain ⟨hnext, hconnected⟩ := List.isChain_cons.1 hconnected
    obtain rfl : s.start = start := hstart s rfl
    obtain rfl : s.before = before := hbefore 0 s rfl
    refine ⟨?_, fun t ht => ?_, hconnected, hruns, fun i t ht => ?_⟩
    · rw [Move.offset, ← hrun]
    · rw [← hnext t ht, hrun, Move.offset]
    · rw [← htotal, hbefore (i + 1) t ht]
  · rintro ⟨rfl, hstart, hconnected, hruns, hbefore⟩
    refine ⟨fun t ht => ?_, ?_, List.forall₂_cons.2 ⟨rfl, hruns⟩, fun i t ht => ?_⟩
    · cases ht
      rfl
    · exact List.isChain_cons.2 ⟨fun t ht => (hstart t ht).symm, hconnected⟩
    · cases i with
      | zero =>
        cases ht
        rfl
      | succ i => rw [htotal, hbefore i t ht]

/-- There is one way only to lay segments for moves. -/
theorem laidFrom_iff : LaidFrom start before moves segments ↔
    segments = segmentsFrom start before moves := by
  induction moves generalizing start before segments with
  | nil =>
    constructor
    · intro h
      exact List.forall₂_nil_right_iff.1 h.runs
    · rintro rfl
      exact ⟨by simp [segmentsFrom], .nil, .nil, by simp [segmentsFrom]⟩
  | cons m moves ih =>
    cases segments with
    | nil =>
      constructor
      · intro h
        cases h.runs
      · intro h
        cases h
    | cons s segments =>
      rw [laidFrom_cons_iff, ih, segmentsFrom, List.cons_eq_cons]

/-! ### Texts of wires -/

/-- The shortest text for some moves, of which there is at least one. -/
def written (moves : List Move) : String :=
  String.ofList ([','].intercalate (moves.map Move.written))

theorem lists_written (hne : moves ≠ []) (h : ∀ m ∈ moves, m.distance < 2 ^ 31) :
    Lists (written moves).toList moves := by
  refine ⟨moves.map Move.written, by simpa using hne, ?_, ?_, ?_⟩
  · intro piece hpiece hcomma
    obtain ⟨m, -, rfl⟩ := List.mem_map.1 hpiece
    exact (Move.notBlank_of_mem_written hcomma).2 rfl
  · rw [written, String.toList_ofList]
    refine Text.trim_eq_self fun c hc => ?_
    rcases Text.mem_of_mem_intercalate hc with hc | ⟨piece, hpiece, hc⟩
    · rw [List.mem_singleton.1 hc]
      decide
    · obtain ⟨m, -, rfl⟩ := List.mem_map.1 hpiece
      exact (Move.notBlank_of_mem_written hc).1
  · rw [List.forall₂_map_left_iff, List.forall₂_same]
    intro m hm
    rw [Text.trim_eq_self fun c hc => (Move.notBlank_of_mem_written hc).1]
    exact Move.writes_written (h m hm)

/-- What is laid for a text that is accepted. -/
theorem parse_eq_ok_iff {w : Wire} : parse text line = .ok w ↔
    ∃ moves, Lists text.toList moves ∧ WithinLimits moves ∧
      LaidFrom Point.origin 0 moves w.segments := by
  simp only [← readMoves_eq_ok_iff, ← fits_iff, laidFrom_iff]
  constructor
  · intro h
    obtain ⟨moves, hmoves, hfits, rfl⟩ := exists_moves_of_parse h
    exact ⟨moves, hmoves, hfits, rfl⟩
  · rintro ⟨moves, hmoves, hfits, hsegments⟩
    have hlay := layFrom_eq_ok_iff.2 ⟨moves, hmoves, hfits, hsegments⟩
    rw [parse, parseLine, hlay]

theorem exists_misread_of_parse {fault : Fault} (h : parse text line = .error fault) :
    ∃ why, fault = .misread line why := by
  unfold parse parseLine at h
  split at h
  · cases h
  · next why _ =>
    cases h
    exact ⟨why, rfl⟩

/-- **The texts that are wires** are those that list moves within the limits, of which there is
always at least one. -/
theorem parse_of_grammar (text : String) (line : ℕ) :
    ((∃ w, parse text line = .ok w) ↔ ∃ moves, Lists text.toList moves ∧ WithinLimits moves) ∧
      (∀ fault, parse text line = .error fault → ∃ why, fault = .misread line why) ∧
      (∀ w moves, parse text line = .ok w → Lists text.toList moves →
        LaidFrom Point.origin 0 moves w.segments) ∧
      (∀ moves, Lists text.toList moves → moves ≠ []) ∧
      ∀ moves, moves ≠ [] → (∀ m ∈ moves, m.distance < 2 ^ 31) → WithinLimits moves →
        ∃ w, parse (written moves) line = .ok w ∧ readMoves (written moves) = .ok moves ∧
          LaidFrom Point.origin 0 moves w.segments := by
  refine ⟨?_, fun fault => exists_misread_of_parse, ?_, fun moves => Lists.ne_nil, ?_⟩
  · simp only [parse_eq_ok_iff]
    constructor
    · rintro ⟨w, moves, hlists, hlimits, -⟩
      exact ⟨moves, hlists, hlimits⟩
    · rintro ⟨moves, hlists, hlimits⟩
      exact ⟨⟨segmentsFrom Point.origin 0 moves⟩, moves, hlists, hlimits, laidFrom_iff.2 rfl⟩
  · intro w moves hw hlists
    obtain ⟨others, hothers, -, hlaid⟩ := parse_eq_ok_iff.1 hw
    rwa [hlists.unique hothers]
  · intro moves hne hshort hlimits
    have hlists := lists_written hne hshort
    have hlaid : LaidFrom Point.origin 0 moves (segmentsFrom Point.origin 0 moves) :=
      laidFrom_iff.2 rfl
    exact ⟨⟨_⟩, parse_eq_ok_iff.2 ⟨moves, hlists, hlimits, hlaid⟩, readMoves_eq_ok_iff.2 hlists,
      hlaid⟩

/-- The grid reaches one step further to the left than to the right, signs may stand in front of the
distances, and a step of no distance is one too. -/
theorem parse_of_grammar_edges :
    (∃ moves, Lists " L+2147483647, L1,U-0 ".toList moves ∧ WithinLimits moves) ∧
      (¬ ∃ moves, Lists "R2147483647,R1".toList moves ∧ WithinLimits moves) ∧
      parse (written [⟨.up, 7⟩, ⟨.left, 0⟩, ⟨.down, 12⟩]) 4 =
        .ok ⟨[⟨⟨0, 0⟩, ⟨0, 7⟩, 0⟩, ⟨⟨0, 7⟩, ⟨0, 7⟩, 7⟩, ⟨⟨0, 7⟩, ⟨0, -5⟩, 7⟩]⟩ := by
  have hleft : parse " L+2147483647, L1,U-0 " 1 = .ok ⟨[⟨⟨0, 0⟩, ⟨-2147483647, 0⟩, 0⟩,
      ⟨⟨-2147483647, 0⟩, ⟨-2147483648, 0⟩, 2147483647⟩,
      ⟨⟨-2147483648, 0⟩, ⟨-2147483648, 0⟩, 2147483648⟩]⟩ := by decide +kernel
  have hright : parse "R2147483647,R1" 1 = .error (.misread 1 (.offTheGrid "R1")) := by
    decide +kernel
  refine ⟨(parse_of_grammar _ 1).1.1 ⟨_, hleft⟩, fun h => ?_, ?_⟩
  · obtain ⟨w, hw⟩ := (parse_of_grammar _ 1).1.2 h
    cases hright.symm.trans hw
  · obtain ⟨-, -, -, -, hback⟩ := parse_of_grammar "" 4
    obtain ⟨w, hw, -, hlaid⟩ := hback [⟨.up, 7⟩, ⟨.left, 0⟩, ⟨.down, 12⟩] (by decide) (by decide)
      (fits_iff.1 ⟨by decide, by decide, by decide, by decide, by decide, by decide, trivial⟩)
    obtain ⟨segments⟩ := w
    have hsegments : segments = _ := laidFrom_iff.1 hlaid
    rw [hw, hsegments]
    rfl

end Wire

end Shipboard
