import Mathlib.Tactic
import Shipboard.Fuel
import Shipboard.Proofs.Orbit.Cycle
import Shipboard.Proofs.Text.Spacing
import Shipboard.Wire.Basic

/-!
# Readers of lines

Masses, wires and charts are read from the lines of a text.  Blanks at the ends of these lines and
blank lines make no difference for what is read, and the number of a line that is reported is that
of the same line.

* `Fault.renumbered f` moves a report from one line to another; `Fault.unpadded` leaves the blanks
  out of the line that it quotes;
* `Fuel.parseMasses_respaced`, `Wire.parsePair_respaced` and `Chart.parse_respaced`: the three
  readers, of which each looks at what is on the lines only;
* `Wire.parsePair_append`: nothing behind the second wire is looked at;
* `Task.parse_of_respaced` has all of this together.
-/

namespace Shipboard

namespace Fault

/-- The same fault after its line has moved.  That there are too few wires is reported for a line of
its own, which does not move. -/
def renumbered (f : ℕ → ℕ) : Fault → Fault
  | .misread n .missingWire => .misread n .missingWire
  | .misread (n + 1) why => .misread (f n + 1) why
  | fault => fault

/-- The same fault, with a line quoted without the blanks at its ends. -/
def unpadded : Fault → Fault
  | .misread n (.mass line why) => .misread n (.mass (String.ofList (Text.trim line.toList)) why)
  | fault => fault

theorem renumbered_misread {f : ℕ → ℕ} {n : ℕ} {why : Misreading} (h : why ≠ .missingWire) :
    renumbered f (.misread (n + 1) why) = .misread (f n + 1) why := by
  cases why <;> first | rfl | exact (h rfl).elim

end Fault

variable {f : ℕ → ℕ} {text text' : String} {line : List Char} {n : ℕ}

/-- If a fault on a line moves with it, then so it does on the lines of a text. -/
theorem read_of_mem_numberedEntries {α : Type} {read : List Char → ℕ → Except Fault α}
    (hread : ∀ line n, read line (f n + 1) = (read line (n + 1)).mapError (Fault.renumbered f))
    {cs : List Char} {entry : List Char × ℕ} (h : entry ∈ Text.numberedEntries cs) :
    read entry.1 (f (entry.2 - 1) + 1) =
      (read entry.1 entry.2).mapError (Fault.renumbered f) := by
  obtain ⟨-, i, -, -, -, hi⟩ := Text.mem_numberedEntries_iff.1 h
  rw [hi, Nat.add_sub_cancel]
  exact hread entry.1 i

/-- If a fault on a line moves with it, then what is read line by line stays the same. -/
theorem Text.Respaced.mapM_eq {α : Type} {read : List Char → ℕ → Except Fault α}
    (h : Text.Respaced f text.toList text'.toList)
    (hread : ∀ line n, read line (f n + 1) = (read line (n + 1)).mapError (Fault.renumbered f)) :
    ((Text.numberedEntries text'.toList).mapM fun entry => read entry.1 entry.2) =
      ((Text.numberedEntries text.toList).mapM fun entry => read entry.1 entry.2).mapError
        (Fault.renumbered f) := by
  rw [h.numberedEntries_eq]
  exact mapM_map_mapError fun _ => read_of_mem_numberedEntries hread

/-! ### Masses -/

namespace Fuel

/-- Read a mass from what is on a line. -/
def parseMass (line : List Char) (number : ℕ) : Except Fault ℤ :=
  match Text.readSigned massBits (Text.trim line) with
  | .ok mass => .ok mass
  | .error why => .error (.misread number (.mass (String.ofList (Text.trim line)) why))

theorem parseMasses_mapError_unpadded (text : String) :
    (parseMasses text).mapError Fault.unpadded =
      (Text.numberedEntries text.toList).mapM fun entry => parseMass entry.1 entry.2 := by
  rw [parseMasses, Text.numberedEntries]
  refine (mapM_map_mapError fun line _ => ?_).symm
  simp only [parseMass, Text.trim_trim]
  cases Text.readSigned massBits (Text.trim line.1) with
  | ok mass => rfl
  | error why => simp [Except.mapError, Fault.unpadded]

theorem parseMass_renumbered (line : List Char) (n : ℕ) :
    parseMass line (f n + 1) = (parseMass line (n + 1)).mapError (Fault.renumbered f) := by
  unfold parseMass
  cases Text.readSigned massBits (Text.trim line) <;> rfl

/-- The same masses are read, and the same fault is reported up to the blanks in the quoted line. -/
theorem parseMasses_respaced (h : Text.Respaced f text.toList text'.toList) :
    (parseMasses text').mapError Fault.unpadded =
      ((parseMasses text).mapError Fault.unpadded).mapError (Fault.renumbered f) := by
  rw [parseMasses_mapError_unpadded, parseMasses_mapError_unpadded]
  exact h.mapM_eq parseMass_renumbered

end Fuel

/-! ### Wires -/

namespace Wire

theorem parseLine_trim : parseLine (Text.trim line) n = parseLine line n := by
  rw [parseLine, parseLine, moveTexts, Text.trim_trim]
  rfl

theorem ne_missingWire_of_parse {why : Misreading} (h : Move.parse line = .error why) :
    why ≠ .missingWire := by
  unfold Move.parse at h
  split at h
  · cases h
    simp
  · split at h
    · cases h
      simp
    · split at h
      · cases h
        simp
      · split_ifs at h
        cases h
        simp

/-- A fault of a move is never that there are too few wires. -/
theorem ne_missingWire_of_layFrom {start : Point} {before : ℕ} {moves : List (List Char)}
    {why : Misreading} (h : layFrom start before moves = .error why) : why ≠ .missingWire := by
  induction moves generalizing start before with
  | nil => cases h
  | cons text moves ih =>
    rw [layFrom] at h
    rcases bind_eq_error.1 h with hmove | ⟨m, -, h⟩
    · exact ne_missingWire_of_parse hmove
    · dsimp only at h
      by_cases hgrid : (!onGrid (start + m.offset)) = true
      · rw [if_pos hgrid] at h
        cases h
        simp
      · rw [if_neg hgrid] at h
        by_cases hlimit : lengthLimit ≤ before + m.distance
        · rw [if_pos hlimit] at h
          cases h
          simp
        · rw [if_neg hlimit] at h
          rcases bind_eq_error.1 h with hlater | ⟨segments, -, h⟩
          · exact ih hlater
          · cases h

theorem parseLine_renumbered (line : List Char) (n : ℕ) :
    parseLine line (f n + 1) = (parseLine line (n + 1)).mapError (Fault.renumbered f) := by
  unfold parseLine
  cases h : layFrom Point.origin 0 (moveTexts line) with
  | ok segments => rfl
  | error why =>
    exact congrArg Except.error (Fault.renumbered_misread (ne_missingWire_of_layFrom h)).symm

/-- Read the first two of some lines as wires. -/
def pairOf : List (List Char × ℕ) → Except Fault (Wire × Wire)
  | [] => .error (.misread 1 .missingWire)
  | [first] => (parseLine first.1 first.2).bind fun _ => .error (.misread 2 .missingWire)
  | first :: second :: _ =>
    (parseLine first.1 first.2).bind fun a => (parseLine second.1 second.2).map fun b => (a, b)

/-- What is on the lines is all that is looked at. -/
theorem parsePair_eq (text : String) :
    parsePair text = pairOf (Text.numberedEntries text.toList) := by
  rw [parsePair, Text.numberedEntries]
  rcases Text.numberedLines text.toList with _ | ⟨first, _ | ⟨second, others⟩⟩
  · rfl
  · simp only [List.map_cons, List.map_nil, pairOf, parseLine_trim]
    rfl
  · simp only [List.map_cons, pairOf, parseLine_trim]
    rfl

/-- The same wires are read, or the same fault is reported. -/
theorem parsePair_respaced (h : Text.Respaced f text.toList text'.toList) :
    parsePair text' = (parsePair text).mapError (Fault.renumbered f) := by
  have hline : ∀ entry ∈ Text.numberedEntries text.toList,
      parseLine entry.1 (f (entry.2 - 1) + 1) =
        (parseLine entry.1 entry.2).mapError (Fault.renumbered f) :=
    fun _ => read_of_mem_numberedEntries parseLine_renumbered
  rw [parsePair_eq, parsePair_eq, h.numberedEntries_eq]
  rcases hentries : Text.numberedEntries text.toList with _ | ⟨first, _ | ⟨second, others⟩⟩
  · rfl
  · simp only [List.map_cons, List.map_nil, pairOf, hline first (by simp [hentries])]
    cases parseLine first.1 first.2 <;> rfl
  · simp only [List.map_cons, pairOf, hline first (by simp [hentries]),
      hline second (by simp [hentries])]
    cases parseLine first.1 first.2 with
    | error why => rfl
    | ok a => cases parseLine second.1 second.2 <;> rfl

/-- Nothing is looked at behind a part of the text that has two wires. -/
theorem parsePair_append {front behind : List Char} (h : 2 ≤ (Text.entries front).length) :
    parsePair (String.ofList (front ++ '\n' :: behind)) = parsePair (String.ofList front) := by
  obtain ⟨later, hlater⟩ := Text.exists_numberedEntries_append front behind
  rw [← Text.map_fst_numberedEntries, List.length_map] at h
  simp only [parsePair_eq, String.toList_ofList, hlater]
  rcases hfront : Text.numberedEntries front with _ | ⟨first, _ | ⟨second, others⟩⟩
  · simp [hfront] at h
  · simp [hfront] at h
  · rfl

end Wire

/-! ### Charts -/

theorem Orbit.parseAll_eq (text : String) :
    parseAll text =
      (Text.numberedEntries text.toList).mapM fun entry => parseLine entry.1 entry.2 := by
  rw [parseAll, Text.numberedEntries, List.mapM_map]
  refine congrArg (List.mapM · _) (funext fun line => ?_)
  simp only [Function.comp, parseLine, Text.trim_trim]

theorem Orbit.parseLine_renumbered (line : List Char) (n : ℕ) :
    parseLine line (f n + 1) = (parseLine line (n + 1)).mapError (Fault.renumbered f) := by
  unfold parseLine
  dsimp only
  split <;> rfl

theorem Orbit.parseAll_respaced (h : Text.Respaced f text.toList text'.toList) :
    parseAll text' = (parseAll text).mapError (Fault.renumbered f) := by
  rw [parseAll_eq, parseAll_eq]
  exact h.mapM_eq parseLine_renumbered

/-- The same chart is read, or the same fault is reported. -/
theorem Chart.parse_respaced (h : Text.Respaced f text.toList text'.toList) :
    parse text' = (parse text).mapError (Fault.renumbered f) := by
  have hread := Orbit.parseAll_respaced h
  cases horbits : Orbit.parseAll text with
  | error fault =>
    rw [horbits] at hread
    rw [parse, parse, hread, horbits]
    rfl
  | ok orbits =>
    rw [horbits] at hread
    rw [parse_eq_of_parseAll hread, parse_eq_of_parseAll horbits]
    cases (ofOrbits orbits).firstEndless? <;> rfl

namespace Task

/-- **Blank lines and outer blanks never change what is read**, except for the numbers of lines.
The report of a line that is no mass quotes the line as it stands, with its outer blanks. -/
theorem reads_of_respaced (f : ℕ → ℕ) (text text' : String) :
    (Text.Respaced f text.toList text'.toList →
      (Fuel.parseMasses text').mapError Fault.unpadded =
        ((Fuel.parseMasses text).mapError Fault.unpadded).mapError (Fault.renumbered f) ∧
      Wire.parsePair text' = (Wire.parsePair text).mapError (Fault.renumbered f) ∧
      Chart.parse text' = (Chart.parse text).mapError (Fault.renumbered f)) ∧
    ∀ front behind : List Char, 2 ≤ (Text.entries front).length →
      Wire.parsePair (String.ofList (front ++ '\n' :: behind)) =
        Wire.parsePair (String.ofList front) :=
  ⟨fun h => ⟨Fuel.parseMasses_respaced h, Wire.parsePair_respaced h, Chart.parse_respaced h⟩,
    fun _ _ => Wire.parsePair_append⟩

/-- Two lines, of which the second is no orbit, are moved apart by blank lines and get other blanks
at their ends, some of them in front of a carriage return.  Behind two wires anything may stand. -/
theorem reads_of_respaced_moved :
    Text.Respaced (fun i => 2 * i + 1) "A)B\n B-C\r\n".toList
      " \n\tA)B \n\n B-C\u00a0\r\n\u2003\n".toList ∧
    (Fuel.parseMasses " \n\tA)B \n\n B-C\u00a0\r\n\u2003\n").mapError Fault.unpadded =
      .error (.misread 2 (.mass "A)B" .notADigit)) ∧
    Chart.parse " \n\tA)B \n\n B-C\u00a0\r\n\u2003\n" = .error (.misread 4 (.orbit "B-C")) ∧
    Wire.parsePair "R1\n\nU1,L1\nno wire" = Wire.parsePair "R1\n\nU1,L1" := by
  have hpieces : Text.splitOn '\n' "A)B\n B-C\r\n".toList =
      ["A)B".toList, " B-C\r".toList, []] := by decide +kernel
  have hpieces' : Text.splitOn '\n' " \n\tA)B \n\n B-C\u00a0\r\n\u2003\n".toList =
      [" ".toList, "\tA)B ".toList, [], " B-C\u00a0\r".toList, "\u2003".toList, []] := by
    decide +kernel
  have hspaced : Text.Respaced (fun i => 2 * i + 1) "A)B\n B-C\r\n".toList
      " \n\tA)B \n\n B-C\u00a0\r\n\u2003\n".toList := by
    refine ⟨fun i j hij => ?_, fun i line hline => ?_, fun j line' hline' => ?_⟩
    · show 2 * i + 1 < 2 * j + 1
      omega
    · rw [hpieces] at hline
      rw [hpieces']
      match i, hline with
      | 0, rfl =>
        exact ⟨_, rfl, ['\t'], "A)B".toList, [' '], [], by decide, by decide,
          List.forall_mem_singleton.2 (by decide), List.forall_mem_singleton.2 (by decide),
          .inl rfl⟩
      | 1, rfl =>
        exact ⟨_, rfl, [], " B-C".toList, ['\u00a0'], ['\r'], by decide, by decide,
          List.forall_mem_nil _, List.forall_mem_singleton.2 (by decide), .inr rfl⟩
      | 2, rfl =>
        exact ⟨_, rfl, [], [], [], [], rfl, rfl, List.forall_mem_nil _, List.forall_mem_nil _,
          .inl rfl⟩
    · rw [hpieces'] at hline'
      rw [hpieces]
      match j, hline' with
      | 0, rfl | 2, rfl | 4, rfl => exact .inl (by decide +kernel)
      | 1, rfl => exact .inr ⟨0, _, rfl, rfl⟩
      | 3, rfl => exact .inr ⟨1, _, rfl, rfl⟩
      | 5, rfl => exact .inr ⟨2, _, rfl, rfl⟩
  obtain ⟨hsame, hrest⟩ := reads_of_respaced (fun i => 2 * i + 1) "A)B\n B-C\r\n"
    " \n\tA)B \n\n B-C\u00a0\r\n\u2003\n"
  obtain ⟨hmasses, -, hchart⟩ := hsame hspaced
  refine ⟨hspaced, ?_, ?_, hrest "R1\n\nU1,L1".toList "no wire".toList (by decide +kernel)⟩
  · rw [hmasses]
    decide +kernel
  · rw [hchart]
    decide +kernel

end Task

end Shipboard
