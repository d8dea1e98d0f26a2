import Mathlib.Data.Nat.Digits.Defs
import Mathlib.Data.Set.Card
import Shipboard.Proofs.Outcome
import Shipboard.Proofs.Passcode.Runs
import Shipboard.Proofs.Text.Numeral

/-!
# Counting passcodes

The rules for a passcode, said of the decimal digits of a number, and the numbers of a range that
follow them.

* `Decimal n ds`: the digits `ds` are the decimal digits of `n`; there is one such list, and
  `decimal_iff` says that it is found;
* `isSorted_iff`, `hasPair_iff` and `hasExactPair_iff`: the rules;
* `count_eq_ncard`: what is counted is the size of a set of numbers;
* `solve_of_range`: the rules as counting rules, and the answers for every range that can be read.
-/

namespace Shipboard.Passcode

variable {n : ℕ} {ds : List ℕ} {text : String} {range : Range}

/-! ### Decimal digits -/

/-- The decimal digits of a number, the most significant first, and no zero in front of others. -/
structure Decimal (n : ℕ) (ds : List ℕ) : Prop where
  ne_nil : ds ≠ []
  lt_ten : ∀ d ∈ ds, d < 10
  value : Nat.ofDigits 10 ds.reverse = n
  leading : ds.head? = some 0 → ds = [0]

theorem digits_of_lt (h : n < 10) : digits n = [n] := by
  rw [digits, if_pos h]

theorem digits_of_le (h : 10 ≤ n) : digits n = digits (n / 10) ++ [n % 10] := by
  rw [digits, if_neg (not_lt.2 h)]

theorem digits_eq_reverse (h : 0 < n) : digits n = (Nat.digits 10 n).reverse := by
  induction n using digits.induct with
  | case1 n hlt =>
    rw [digits_of_lt hlt, Nat.digits_of_lt 10 n (by omega) hlt, List.reverse_singleton]
  | case2 n hle ih =>
    rw [digits_of_le (not_lt.1 hle), ih (by omega), Nat.digits_def' (by omega) h,
      List.reverse_cons]

theorem decimal_digits (n : ℕ) : Decimal n (digits n) := by
  by_cases h : 0 < n
  · have hne : Nat.digits 10 n ≠ [] := Nat.digits_ne_nil_iff_ne_zero.2 (by omega)
    rw [digits_eq_reverse h]
    refine ⟨by simpa using hne, fun d hd => ?_, ?_, fun hhead => ?_⟩
    · exact Nat.digits_lt_base (by omega) (List.mem_reverse.1 hd)
    · rw [List.reverse_reverse, Nat.ofDigits_digits]
    · -- the most significant digit is not zero
      rw [List.head?_reverse, List.getLast?_eq_some_getLast hne, Option.some.injEq] at hhead
      exact absurd hhead (Nat.getLast_digit_ne_zero 10 (by omega))
  · obtain rfl : n = 0 := by omega
    rw [digits_of_lt (by omega)]
    exact ⟨by simp, by simp, rfl, fun _ => rfl⟩

theorem Decimal.eq_digits (h : Decimal n ds) : ds = digits n := by
  obtain ⟨hne, hlt, hvalue, hleading⟩ := h
  by_cases hhead : ds.head? = some 0
  · obtain rfl := hleading hhead
    obtain rfl : n = 0 := hvalue.symm
    rw [digits_of_lt (by omega)]
  · have hlast : ∀ h : ds.reverse ≠ [], ds.reverse.getLast h ≠ 0 := by
      intro h hzero
      apply hhead
      rw [← List.getLast?_reverse, List.getLast?_eq_some_getLast h, hzero]
    have hdigits : Nat.digits 10 n = ds.reverse := by
      rw [← hvalue]
      apply Nat.digits_ofDigits 10 (by omega) _ _ hlast
      intro d hd
      exact hlt d (List.mem_reverse.1 hd)
    have hpos : 0 < n := by
      by_contra hzero
      obtain rfl : n = 0 := by omega
      rw [Nat.digits_zero] at hdigits
      exact hne (List.reverse_eq_nil_iff.1 hdigits.symm)
    rw [digits_eq_reverse hpos, hdigits, List.reverse_reverse]

theorem decimal_iff : Decimal n ds ↔ ds = digits n := by
  refine ⟨Decimal.eq_digits, ?_⟩
  rintro rfl
  exact decimal_digits n

/-! ### The rules -/

theorem isSorted_iff : isSorted n = true ↔ (digits n).Pairwise (· ≤ ·) := by
  rw [isSorted, List.all_eq_true, ← forall_neighbours_iff]
  simp only [decide_eq_true_eq, Prod.forall]

theorem hasPair_iff : hasPair n = true ↔ HasRepeat (digits n) := by
  rw [hasPair, List.any_eq_true, ← exists_neighbours_iff]
  constructor
  · rintro ⟨⟨a, b⟩, hmem, hab⟩
    obtain rfl : a = b := by simpa using hab
    exact ⟨a, hmem⟩
  · rintro ⟨d, hmem⟩
    exact ⟨(d, d), hmem, by simp⟩

theorem hasExactPair_iff : hasExactPair n = true ↔ HasDouble (digits n) := by
  rw [hasExactPair, runs, List.any_eq_true, ← exists_run_iff]
  simp only [beq_iff_eq]

/-! ### Counting -/

theorem mem_numbers_iff : n ∈ range.numbers ↔ range.first ≤ n ∧ n < range.stop := by
  rw [Range.numbers, List.mem_range'_1]
  omega

theorem count_eq_ncard (range : Range) (rule : ℕ → Bool) :
    count range rule =
      {n | range.first ≤ n ∧ n < range.stop ∧ isSorted n = true ∧ rule n = true}.ncard := by
  have hset : {n | range.first ≤ n ∧ n < range.stop ∧ isSorted n = true ∧ rule n = true} =
      ((range.numbers.filter fun n => isSorted n && rule n).toFinset : Set ℕ) := by
    ext n
    simp [mem_numbers_iff, and_assoc]
  have hnodup : (range.numbers.filter fun n => isSorted n && rule n).Nodup :=
    List.Nodup.filter _ List.nodup_range'
  rw [hset, Set.ncard_coe_finset, List.toFinset_card_of_nodup hnodup, count,
    List.countP_eq_length_filter]

/-- The numbers of a range of which the digits are in order and one of them occurs as often as it
should. -/
def orderly (range : Range) (often : ℕ → Prop) : Set ℕ :=
  {n | range.first ≤ n ∧ n < range.stop ∧
    ∃ ds, Decimal n ds ∧ ds.Pairwise (· ≤ ·) ∧ ∃ d, often (ds.count d)}

theorem count_eq_ncard_orderly {rule : ℕ → Bool} {often : ℕ → Prop}
    (h : ∀ n, isSorted n = true → (rule n = true ↔ ∃ d, often ((digits n).count d)))
    (range : Range) : count range rule = (orderly range often).ncard := by
  rw [count_eq_ncard]
  congr 1
  ext n
  show _ ∧ _ ∧ _ ∧ _ ↔ _ ∧ _ ∧ ∃ ds, Decimal n ds ∧ _
  simp only [decimal_iff, exists_eq_left, ← isSorted_iff]
  constructor
  · rintro ⟨hfirst, hstop, hsorted, hrule⟩
    exact ⟨hfirst, hstop, hsorted, (h n hsorted).1 hrule⟩
  · rintro ⟨hfirst, hstop, hsorted, hoften⟩
    exact ⟨hfirst, hstop, hsorted, (h n hsorted).2 hoften⟩

theorem hasPair_iff_of_isSorted (h : isSorted n = true) :
    hasPair n = true ↔ ∃ d, 2 ≤ (digits n).count d :=
  hasPair_iff.trans (hasRepeat_iff_of_pairwise (isSorted_iff.1 h))

theorem hasExactPair_iff_of_isSorted (h : isSorted n = true) :
    hasExactPair n = true ↔ ∃ d, (digits n).count d = 2 :=
  hasExactPair_iff.trans (hasDouble_iff_of_pairwise (isSorted_iff.1 h))

theorem hasPair_of_hasExactPair (h : hasExactPair n = true) : hasPair n = true :=
  hasPair_iff.2 (hasExactPair_iff.1 h).hasRepeat

theorem count_hasExactPair_le (range : Range) : count range hasExactPair ≤ count range hasPair := by
  apply List.countP_mono_left
  intro n _ h
  rw [Bool.and_eq_true] at h ⊢
  exact ⟨h.1, hasPair_of_hasExactPair h.2⟩

theorem count_of_stop_le (h : range.stop ≤ range.first) (rule : ℕ → Bool) :
    count range rule = 0 := by
  have hempty : range.stop - range.first = 0 := by omega
  rw [count, Range.numbers, hempty]
  rfl

/-! ### The range -/

theorem parseBound_lt {cs : List Char} (h : parseBound cs = .ok n) : n < 2 ^ 32 := by
  unfold parseBound at h
  split at h
  · next hread =>
    cases h
    exact Text.readUnsigned_lt hread
  · cases h

theorem parseRange_lt (h : parseRange text = .ok range) :
    range.first < 2 ^ 32 ∧ range.stop < 2 ^ 32 := by
  unfold parseRange at h
  dsimp only at h
  split at h
  · cases h
  · obtain ⟨first, hfirst, h⟩ := bind_eq_ok.1 h
    obtain ⟨stop, hstop, h⟩ := bind_eq_ok.1 h
    cases h
    exact ⟨parseBound_lt hfirst, parseBound_lt hstop⟩

theorem solve_of_parseRange (h : parseRange text = .ok range) :
    solve text = .ok (count range hasPair, count range hasExactPair) := by
  rw [solve, h]
  rfl

/-- **The rules for a passcode are counting rules**, and the answers are the numbers of the numbers
in the range that keep to them. -/
theorem solve_of_range :
    (∀ n, ∃! ds, Decimal n ds) ∧
    (∀ n ds, Decimal n ds →
      (isSorted n = true ↔ ds.Pairwise (· ≤ ·)) ∧
      (hasPair n = true ↔ HasRepeat ds) ∧
      (hasExactPair n = true ↔ HasDouble ds) ∧
      (hasExactPair n = true → hasPair n = true) ∧
      (isSorted n = true →
        (hasPair n = true ↔ ∃ d, 2 ≤ ds.count d) ∧
        (hasExactPair n = true ↔ ∃ d, ds.count d = 2))) ∧
    ∀ text range, parseRange text = .ok range →
      (range.first < 2 ^ 32 ∧ range.stop < 2 ^ 32) ∧
      ∃ pairs exactPairs, solve text = .ok (pairs, exactPairs) ∧ exactPairs ≤ pairs ∧
        pairs = (orderly range fun times => 2 ≤ times).ncard ∧
        exactPairs = (orderly range fun times => times = 2).ncard ∧
        (range.stop ≤ range.first → pairs = 0 ∧ exactPairs = 0) := by
  refine ⟨fun n => ?_, fun n ds h => ?_, fun text range h => ?_⟩
  · exact ⟨digits n, decimal_digits n, fun ds h => h.eq_digits⟩
  · obtain rfl := h.eq_digits
    exact ⟨isSorted_iff, hasPair_iff, hasExactPair_iff, hasPair_of_hasExactPair,
      fun hsorted => ⟨hasPair_iff_of_isSorted hsorted, hasExactPair_iff_of_isSorted hsorted⟩⟩
  · refine ⟨parseRange_lt h, _, _, solve_of_parseRange h, count_hasExactPair_le range, ?_, ?_, ?_⟩
    · exact count_eq_ncard_orderly (fun n => hasPair_iff_of_isSorted) range
    · exact count_eq_ncard_orderly (fun n => hasExactPair_iff_of_isSorted) range
    · intro hle
      exact ⟨count_of_stop_le hle hasPair, count_of_stop_le hle hasExactPair⟩

/-- A number with an exact pair beside a longer run, and a range in which it is the only one. -/
theorem solve_of_range_pair :
    Decimal 111122 [1, 1, 1, 1, 2, 2] ∧ HasDouble [1, 1, 1, 1, 2, 2] ∧
      solve "111110-111125" = .ok (12, 1) ∧
      (orderly ⟨111110, 111125⟩ fun times => 2 ≤ times).ncard = 12 ∧
      (orderly ⟨111110, 111125⟩ fun times => times = 2).ncard = 1 := by
  have hdecimal : Decimal 111122 [1, 1, 1, 1, 2, 2] :=
    ⟨by decide, by decide, by decide, by decide⟩
  have hexact : hasExactPair 111122 = true := by decide +kernel
  have hread : parseRange "111110-111125" = .ok ⟨111110, 111125⟩ := by decide +kernel
  have hsolve : solve "111110-111125" = .ok (12, 1) := by decide +kernel
  obtain ⟨-, hrules, hanswers⟩ := solve_of_range
  obtain ⟨-, -, hdouble, -⟩ := hrules 111122 _ hdecimal
  obtain ⟨-, pairs, exactPairs, hfound, -, hpairs, hexactPairs, -⟩ := hanswers _ _ hread
  rw [hsolve] at hfound
  cases hfound
  exact ⟨hdecimal, hdouble.1 hexact, hsolve, hpairs.symm, hexactPairs.symm⟩

end Shipboard.Passcode
