import Mathlib.Tactic
import Shipboard.Computer.Instruction
import Shipboard.Proofs.Computer.Step

/-!
# Words and instructions

Reading a word as an instruction undoes writing the instruction as a word (`decode_word`), and only
the word of an instruction is read as one (`word_of_decode`).  Which words these are, and what is
wrong with the others, can be told from their digits.

* `Instruction.HasOperation` and `Instruction.modeDigits` are what is looked at;
* `Instruction.decode_eq_error_iff`: why a word is refused;
* `Instruction.decode_of_words`: which words are read, and as which instructions.
-/

namespace Shipboard.Computer

theorem Operation.code_bounds (operation : Operation) :
    0 ≤ operation.code ∧ operation.code < 100 := by
  cases operation <;> decide

theorem Operation.exists_ofCode?_iff {n : ℤ} :
    (∃ operation, Operation.ofCode? n = some operation) ↔ 1 ≤ n ∧ n ≤ 9 ∨ n = 99 := by
  constructor
  · rintro ⟨operation, h⟩
    rw [← Operation.code_of_ofCode? h]
    cases operation <;> decide
  · rintro (⟨hlow, hhigh⟩ | rfl)
    · interval_cases n <;> exact ⟨_, rfl⟩
    · exact ⟨.halt, rfl⟩

theorem Mode.digit_bounds (mode : Mode) : 0 ≤ mode.digit ∧ mode.digit < 3 := by
  cases mode <;> decide

theorem Mode.exists_digit_iff {n : ℤ} :
    (∃ mode : Mode, n = mode.digit) ↔ n = 0 ∨ n = 1 ∨ n = 2 := by
  constructor
  · rintro ⟨mode, rfl⟩
    cases mode <;> decide
  · rintro (rfl | rfl | rfl)
    · exact ⟨.position, rfl⟩
    · exact ⟨.immediate, rfl⟩
    · exact ⟨.relative, rfl⟩

theorem Mode.ofDigit_eq_ok_iff {n : ℤ} {place : ℕ} {mode : Mode} :
    Mode.ofDigit n place = .ok mode ↔ n = mode.digit := by
  unfold Mode.ofDigit
  constructor
  · intro h
    split at h
    · next heq => cases h; exact (digit_of_ofDigit? heq).symm
    · cases h
  · rintro rfl
    rw [ofDigit?_digit]

theorem Mode.exists_ofDigit_iff {n : ℤ} (place : ℕ) (hn : 0 ≤ n) :
    (∃ mode, Mode.ofDigit n place = .ok mode) ↔ n ≤ 2 := by
  simp only [Mode.ofDigit_eq_ok_iff, Mode.exists_digit_iff]
  omega

theorem Mode.ofDigit_eq_error_iff {n : ℤ} {place : ℕ} {fault : Fault} (hn : 0 ≤ n) :
    Mode.ofDigit n place = .error fault ↔ 2 < n ∧ fault = .invalidMode n place := by
  rw [← not_le, ← Mode.exists_ofDigit_iff place hn, Mode.ofDigit]
  cases Mode.ofDigit? n <;> simp [eq_comm]

namespace Instruction

/-! ### Writing and reading -/

/-- The digits of a word. -/
theorem word_digits (i : Instruction) :
    0 ≤ i.word ∧ i.word < wordLimit ∧ i.word % 100 = i.operation.code ∧
      i.word / 100 % 10 = i.first.digit ∧ i.word / 1000 % 10 = i.second.digit ∧
      i.word / 10000 % 10 = i.third.digit := by
  have hcode := i.operation.code_bounds
  have hfirst := i.first.digit_bounds
  have hsecond := i.second.digit_bounds
  have hthird := i.third.digit_bounds
  unfold word wordLimit
  omega

/-- An instruction is read from a word exactly if the word has its code and its digits. -/
theorem decode_eq_ok_iff {w : ℤ} {place : ℕ} {i : Instruction} :
    decode w place = .ok i ↔ operation? w = some i.operation ∧ w / 100 % 10 = i.first.digit ∧
      w / 1000 % 10 = i.second.digit ∧ w / 10000 % 10 = i.third.digit := by
  unfold decode
  cases operation? w with
  | none => simp
  | some operation =>
    rcases i with ⟨o, first, second, third⟩
    simp only [bind_eq_ok, Mode.ofDigit_eq_ok_iff, pure, Except.pure, Except.ok.injEq,
      Instruction.mk.injEq, Option.some.injEq]
    constructor
    · rintro ⟨_, h1, _, h2, _, h3, rfl, rfl, rfl, rfl⟩
      exact ⟨rfl, h1, h2, h3⟩
    · rintro ⟨rfl, h1, h2, h3⟩
      exact ⟨_, h1, _, h2, _, h3, rfl, rfl, rfl, rfl⟩

theorem decode_word (i : Instruction) (place : ℕ) : decode i.word place = .ok i := by
  obtain ⟨hnonneg, hlimit, hcode, hfirst, hsecond, hthird⟩ := i.word_digits
  refine decode_eq_ok_iff.2 ⟨?_, hfirst, hsecond, hthird⟩
  rw [operation?, if_pos ⟨hnonneg, hlimit⟩, hcode, Operation.ofCode?_code]

theorem word_of_decode {w : ℤ} {place : ℕ} {i : Instruction} (h : decode w place = .ok i) :
    i.word = w := by
  obtain ⟨hoperation, hfirst, hsecond, hthird⟩ := decode_eq_ok_iff.1 h
  unfold operation? at hoperation
  split_ifs at hoperation with hw
  have hcode := Operation.code_of_ofCode? hoperation
  unfold wordLimit at hw
  rw [word, hcode, ← hfirst, ← hsecond, ← hthird]
  omega

theorem word_injective : Function.Injective word := by
  intro i j h
  have hi := decode_word i 0
  rw [h, decode_word j 0] at hi
  exact (Except.ok.inj hi).symm

/-! ### Words that are refused -/

/-- A word has not more than five digits, and its last two are the number of an operation. -/
def HasOperation (w : ℤ) : Prop :=
  0 ≤ w ∧ w < 100000 ∧ (1 ≤ w % 100 ∧ w % 100 ≤ 9 ∨ w % 100 = 99)

/-- The digits of a word from the hundreds on. -/
def modeDigits (w : ℤ) : List ℤ :=
  [w / 100 % 10, w / 1000 % 10, w / 10000 % 10]

theorem exists_operation?_iff {w : ℤ} :
    (∃ operation, operation? w = some operation) ↔ HasOperation w := by
  unfold operation? HasOperation wordLimit
  split_ifs with hw
  · rw [Operation.exists_ofCode?_iff]
    tauto
  · simp only [exists_false]
    tauto

/-- A word that has an operation and digits of modes is read. -/
theorem exists_decode_iff {w : ℤ} {place : ℕ} :
    (∃ i, decode w place = .ok i) ↔
      HasOperation w ∧ ∀ d ∈ modeDigits w, d = 0 ∨ d = 1 ∨ d = 2 := by
  simp only [← exists_operation?_iff, ← Mode.exists_digit_iff, modeDigits, List.forall_mem_cons,
    List.not_mem_nil, false_imp_iff, implies_true, and_true, decode_eq_ok_iff]
  constructor
  · rintro ⟨i, hoperation, hfirst, hsecond, hthird⟩
    exact ⟨⟨_, hoperation⟩, ⟨_, hfirst⟩, ⟨_, hsecond⟩, ⟨_, hthird⟩⟩
  · rintro ⟨⟨operation, hoperation⟩, ⟨first, hfirst⟩, ⟨second, hsecond⟩, ⟨third, hthird⟩⟩
    exact ⟨⟨operation, first, second, third⟩, hoperation, hfirst, hsecond, hthird⟩

/-- A word without an operation is reported as a whole, and of another one the first digit that is
too great for a mode. -/
theorem decode_eq_error_iff {w : ℤ} {place : ℕ} {fault : Fault} :
    decode w place = .error fault ↔
      ¬ HasOperation w ∧ fault = .unknownOperation w place ∨
      HasOperation w ∧ ∃ d, (modeDigits w).find? (fun d => 2 < d) = some d ∧
        fault = .invalidMode d place := by
  have h1 : 0 ≤ w / 100 % 10 := Int.emod_nonneg _ (by decide)
  have h2 : 0 ≤ w / 1000 % 10 := Int.emod_nonneg _ (by decide)
  have h3 : 0 ≤ w / 10000 % 10 := Int.emod_nonneg _ (by decide)
  rw [← exists_operation?_iff, decode]
  cases operation? w with
  | none => simp [eq_comm]
  | some operation =>
    simp only [bind_eq_error, Mode.ofDigit_eq_error_iff h1, Mode.ofDigit_eq_error_iff h2,
      Mode.ofDigit_eq_error_iff h3, Mode.exists_ofDigit_iff place h1,
      Mode.exists_ofDigit_iff place h2, exists_and_right, pure, Except.pure, reduceCtorEq,
      and_false, exists_false, or_false, modeDigits, List.find?_cons]
    by_cases hfirst : 2 < w / 100 % 10
    · simp [hfirst, not_le.2 hfirst]
    · by_cases hsecond : 2 < w / 1000 % 10
      · simp [hfirst, hsecond, not_lt.1 hfirst, not_le.2 hsecond]
      · by_cases hthird : 2 < w / 10000 % 10
        · simp [hfirst, hsecond, hthird, not_lt.1 hfirst, not_lt.1 hsecond]
        · simp [hfirst, hsecond, hthird]

/-- **Exactly the words of instructions are read, and nothing is lost.**  Of other words a missing
operation is reported, and else the first of the digits that is greater than two. -/
theorem decode_of_words (place : ℕ) :
    (∀ w, (∃ i, decode w place = .ok i) ↔
      HasOperation w ∧ ∀ d ∈ modeDigits w, d = 0 ∨ d = 1 ∨ d = 2) ∧
    (∀ w i, decode w place = .ok i ↔
      w = i.operation.code + 100 * i.first.digit + 1000 * i.second.digit
        + 10000 * i.third.digit) ∧
    (∀ i, ∃! w, decode w place = .ok i) ∧
    ∀ w fault, decode w place = .error fault ↔
      ¬ HasOperation w ∧ fault = .unknownOperation w place ∨
      HasOperation w ∧ ∃ d, (modeDigits w).find? (fun d => 2 < d) = some d ∧
        fault = .invalidMode d place := by
  refine ⟨fun w => exists_decode_iff, fun w i => ?_, fun i => ?_, fun w fault =>
    decode_eq_error_iff⟩
  · constructor
    · intro h
      exact (word_of_decode h).symm
    · rintro rfl
      exact decode_word i place
  · exact ⟨i.word, decode_word i place, fun w h => (word_of_decode h).symm⟩

end Instruction

end Shipboard.Computer
