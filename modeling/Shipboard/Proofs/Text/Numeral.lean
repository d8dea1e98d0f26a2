import Mathlib.Tactic
import Shipboard.Text.Numeral

/-!
# Numerals and their values

A numeral is read digit by digit, and reading stops as soon as the value leaves its word.  The value
that comes out is nevertheless that of the numeral as a whole.

* `Text.digit?_eq_ite`: the characters that are digits, and their values;
* `Text.Numeral cs v`: the text is a sign, or none, and decimal digits, and stands for `v`;
* `Text.readSigned_eq_ok_iff`: exactly the numerals of values that fit are read;
* `Text.numeral_toDigits`: the decimal digits of a number are a numeral for it.
-/

namespace Shipboard.Text

/-- The value of a character as a digit. -/
def digitValue (c : Char) : ℕ := c.toNat - '0'.toNat

theorem digit?_eq_ite (c : Char) : digit? c = if c.isDigit then some (digitValue c) else none := by
  have hdigit : ('0' ≤ c ∧ c ≤ '9') ↔ c.isDigit = true := by
    rw [Char.isDigit, Bool.and_eq_true, decide_eq_true_eq, decide_eq_true_eq]
    exact Iff.rfl
  simp only [digit?, hdigit, digitValue]

/-- At least one digit, and nothing else. -/
def AllDigits (cs : List Char) : Prop :=
  cs ≠ [] ∧ ∀ c ∈ cs, c.isDigit = true

/-- A numeral for a whole number has decimal digits, the most significant first, and a sign or none
in front of them. -/
inductive Numeral : List Char → ℤ → Prop
  | unsigned {ds : List Char} (h : AllDigits ds) : Numeral ds (Nat.ofDigitChars 10 ds 0)
  | plus {ds : List Char} (h : AllDigits ds) : Numeral ('+' :: ds) (Nat.ofDigitChars 10 ds 0)
  | minus {ds : List Char} (h : AllDigits ds) : Numeral ('-' :: ds) (-Nat.ofDigitChars 10 ds 0)

variable {c : Char} {cs : List Char} {n bits : ℕ} {v w greatest least : ℤ}

/-! ### Reading digits -/

theorem readUpwards_cons_of_isDigit (h : c.isDigit = true) :
    readUpwards greatest v (c :: cs) =
      if 10 * v + digitValue c ≤ greatest then readUpwards greatest (10 * v + digitValue c) cs
      else .error .tooLarge := by
  rw [readUpwards, digit?_eq_ite, if_pos h]

theorem readUpwards_cons_of_not_isDigit (h : ¬ c.isDigit = true) :
    readUpwards greatest v (c :: cs) = .error .notADigit := by
  rw [readUpwards, digit?_eq_ite, if_neg h]

/-- Reading downwards is reading upwards with all signs turned. -/
theorem readDownwards_eq_ok_iff :
    readDownwards least v cs = .ok w ↔ readUpwards (-least) (-v) cs = .ok (-w) := by
  induction cs generalizing v with
  | nil => simp [readDownwards, readUpwards]
  | cons c cs ih =>
    rw [readDownwards, digit?_eq_ite]
    by_cases hc : c.isDigit = true
    · have hvalue : 10 * -v + (digitValue c : ℤ) = -(10 * v - digitValue c) := by ring
      have hfits : -(10 * v - (digitValue c : ℤ)) ≤ -least ↔ least ≤ 10 * v - digitValue c := by
        omega
      rw [readUpwards_cons_of_isDigit hc, hvalue, if_pos hc]
      simp only [hfits]
      split_ifs
      · exact ih
      · simp
    · rw [readUpwards_cons_of_not_isDigit hc, if_neg hc]
      simp

/-- A value only grows with the digits behind it. -/
theorem le_ofDigitChars (cs : List Char) (n : ℕ) : n ≤ Nat.ofDigitChars 10 cs n := by
  have hle : n ≤ 10 ^ cs.length * n := Nat.le_mul_of_pos_left n (by positivity)
  rw [Nat.ofDigitChars_eq_ofDigitChars_zero]
  omega

/-- Digits are read if the value of all of them fits. -/
theorem readUpwards_eq_ok_iff (hn : (n : ℤ) ≤ greatest) :
    readUpwards greatest n cs = .ok v ↔
      (∀ c ∈ cs, c.isDigit = true) ∧ v = Nat.ofDigitChars 10 cs n ∧ v ≤ greatest := by
  induction cs generalizing n with
  | nil =>
    simp only [readUpwards, Except.ok.injEq, Nat.ofDigitChars_nil]
    constructor
    · rintro rfl
      exact ⟨by simp, rfl, hn⟩
    · rintro ⟨-, rfl, -⟩
      rfl
  | cons c cs ih =>
    by_cases hc : c.isDigit = true
    · have hvalue : 10 * (n : ℤ) + digitValue c = (10 * n + digitValue c : ℕ) := by push_cast; rfl
      have htail : Nat.ofDigitChars 10 (c :: cs) n =
          Nat.ofDigitChars 10 cs (10 * n + digitValue c) := Nat.ofDigitChars_cons
      rw [readUpwards_cons_of_isDigit hc, hvalue, List.forall_mem_cons, htail]
      split_ifs with hfits
      · rw [ih hfits]
        simp [hc]
      · -- the value of the first digits is too great, and that of all of them is no less
        have hle := le_ofDigitChars cs (10 * n + digitValue c)
        constructor
        · intro h
          cases h
        · rintro ⟨-, rfl, h⟩
          omega
    · rw [readUpwards_cons_of_not_isDigit hc]
      simp [hc]

/-! ### Reading numerals -/

theorem AllDigits.head_ne (h : AllDigits (c :: cs)) : c ≠ '+' ∧ c ≠ '-' := by
  have hc := h.2 c (List.mem_cons_self ..)
  constructor <;> rintro rfl <;> revert hc <;> decide

theorem readSigned_of_allDigits (h : AllDigits cs) :
    readSigned bits cs = readUpwards (greatestSigned bits) 0 cs := by
  unfold readSigned
  split
  · exact (h.1 rfl).elim
  · exact (h.head_ne.1 rfl).elim
  · exact (h.head_ne.2 rfl).elim
  · exact (h.head_ne.1 rfl).elim
  · exact (h.head_ne.2 rfl).elim
  · rfl

theorem readSigned_plus (h : cs ≠ []) :
    readSigned bits ('+' :: cs) = readUpwards (greatestSigned bits) 0 cs := by
  obtain ⟨c, cs, rfl⟩ := List.exists_cons_of_ne_nil h
  rfl

theorem readSigned_minus (h : cs ≠ []) :
    readSigned bits ('-' :: cs) = readDownwards (leastSigned bits) 0 cs := by
  obtain ⟨c, cs, rfl⟩ := List.exists_cons_of_ne_nil h
  rfl

theorem fitsSigned_iff :
    fitsSigned bits v = true ↔ -2 ^ (bits - 1) ≤ v ∧ v < 2 ^ (bits - 1) := by
  have hcount : (wordCount (bits - 1) : ℤ) = 2 ^ (bits - 1) := Nat.cast_pow 2 (bits - 1)
  rw [fitsSigned, Bool.and_eq_true, decide_eq_true_eq, decide_eq_true_eq, leastSigned,
    greatestSigned, hcount, Int.le_sub_one_iff]

theorem greatestSigned_nonneg (bits : ℕ) : 0 ≤ greatestSigned bits := by
  have hpos : 0 < wordCount (bits - 1) := Nat.pow_pos (by decide)
  rw [greatestSigned]
  omega

theorem leastSigned_nonpos (bits : ℕ) : leastSigned bits ≤ 0 := by
  rw [leastSigned]
  omega

theorem readUpwards_signed_iff (h : cs ≠ []) :
    readUpwards (greatestSigned bits) 0 cs = .ok v ↔
      AllDigits cs ∧ v = Nat.ofDigitChars 10 cs 0 ∧ fitsSigned bits v = true := by
  have hzero := greatestSigned_nonneg bits
  have hleast := leastSigned_nonpos bits
  rw [← Int.natCast_zero, readUpwards_eq_ok_iff (by simpa using hzero), AllDigits, fitsSigned,
    Bool.and_eq_true, decide_eq_true_eq, decide_eq_true_eq]
  constructor
  · rintro ⟨hdigits, rfl, hle⟩
    exact ⟨⟨h, hdigits⟩, rfl, by omega, hle⟩
  · rintro ⟨⟨-, hdigits⟩, rfl, -, hle⟩
    exact ⟨hdigits, rfl, hle⟩

theorem readDownwards_signed_iff (h : cs ≠ []) :
    readDownwards (leastSigned bits) 0 cs = .ok v ↔
      AllDigits cs ∧ v = -Nat.ofDigitChars 10 cs 0 ∧ fitsSigned bits v = true := by
  have hzero := greatestSigned_nonneg bits
  have hleast := leastSigned_nonpos bits
  rw [readDownwards_eq_ok_iff, neg_zero, ← Int.natCast_zero,
    readUpwards_eq_ok_iff (by simpa using hleast), AllDigits, fitsSigned, Bool.and_eq_true,
    decide_eq_true_eq, decide_eq_true_eq]
  constructor
  · rintro ⟨hdigits, hv, hle⟩
    exact ⟨⟨h, hdigits⟩, by omega, by omega, by omega⟩
  · rintro ⟨⟨-, hdigits⟩, rfl, hle, -⟩
    exact ⟨hdigits, by omega, by omega⟩

/-- **The numerals of values that fit are read, and nothing else.** -/
theorem readSigned_eq_ok_iff :
    readSigned bits cs = .ok v ↔ Numeral cs v ∧ fitsSigned bits v = true := by
  constructor
  · intro h
    unfold readSigned at h
    split at h
    · cases h
    · cases h
    · cases h
    · next hne =>
      obtain ⟨hdigits, rfl, hfits⟩ := (readUpwards_signed_iff hne).1 h
      exact ⟨.plus hdigits, hfits⟩
    · next hne =>
      obtain ⟨hdigits, rfl, hfits⟩ := (readDownwards_signed_iff hne).1 h
      exact ⟨.minus hdigits, hfits⟩
    · next hne _ _ _ _ =>
      obtain ⟨hdigits, rfl, hfits⟩ := (readUpwards_signed_iff hne).1 h
      exact ⟨.unsigned hdigits, hfits⟩
  · rintro ⟨hnumeral, hfits⟩
    cases hnumeral with
    | unsigned hdigits =>
      rw [readSigned_of_allDigits hdigits]
      exact (readUpwards_signed_iff hdigits.1).2 ⟨hdigits, rfl, hfits⟩
    | plus hdigits =>
      rw [readSigned_plus hdigits.1]
      exact (readUpwards_signed_iff hdigits.1).2 ⟨hdigits, rfl, hfits⟩
    | minus hdigits =>
      rw [readSigned_minus hdigits.1]
      exact (readDownwards_signed_iff hdigits.1).2 ⟨hdigits, rfl, hfits⟩

/-- What is read into a word without a sign fits it. -/
theorem readUnsigned_lt (h : readUnsigned bits cs = .ok n) : n < 2 ^ bits := by
  have hread : ∀ {ds : List Char} {n : ℕ},
      (readUpwards (greatestUnsigned bits) 0 ds).map Int.toNat = .ok n → n < 2 ^ bits := by
    intro ds n h
    have hpos : 0 < wordCount bits := Nat.pow_pos (by decide)
    have hzero : ((0 : ℕ) : ℤ) ≤ greatestUnsigned bits := by
      rw [greatestUnsigned]
      omega
    cases hv : readUpwards (greatestUnsigned bits) 0 ds with
    | error why =>
      rw [hv] at h
      cases h
    | ok v =>
      rw [hv] at h
      cases h
      obtain ⟨-, -, hle⟩ := (readUpwards_eq_ok_iff hzero).1 hv
      rw [greatestUnsigned] at hle
      show v.toNat < wordCount bits
      omega
  unfold readUnsigned at h
  split at h
  · cases h
  · cases h
  · exact hread h
  · exact hread h

/-- The decimal digits of a number are a numeral for it. -/
theorem numeral_toDigits (n : ℕ) : Numeral (Nat.toDigits 10 n) n := by
  have hdigits : AllDigits (Nat.toDigits 10 n) :=
    ⟨Nat.toDigits_ne_nil, fun c hc => Nat.isDigit_of_mem_toDigits (by decide) (by decide) hc⟩
  have hnumeral := Numeral.unsigned hdigits
  rwa [Nat.ofDigitChars_ten_toDigits] at hnumeral

end Shipboard.Text
