import Mathlib.Tactic
import Shipboard.Fuel
import Shipboard.Proofs.Outcome
import Shipboard.Proofs.Text.Numeral

/-!
# Sums of fuel

Masses and sums of fuel are kept in signed words of sixty-four bits.  For one module they are always
large enough, but a sum over all modules can leave its word.

* `Fuel.needs` are the amounts that `Fuel.inAll` adds up for one mass; `Fuel.sumsFit_needs`: the sum
  of them, taken one by one, stays in its word;
* `Fuel.SumsFit values`: so do the sums of the first values, however many are taken;
  `Fuel.total_eq_ok_iff` and `Fuel.total_eq_error_iff` say that this decides over a sum of modules;
* `Fuel.solve_of_text`: what comes of a text;
* `Fuel.solve_of_light_modules`: a text for which both answers fit their words and a sum on the way
  to the first of them does not.
-/

namespace Shipboard.Fuel

variable {values masses : List ℤ} {mass v sum : ℤ} {why : Failure}

/-- A value that a word for masses and sums of fuel can hold. -/
def Fits (v : ℤ) : Prop :=
  -2 ^ 63 ≤ v ∧ v < 2 ^ 63

instance : DecidablePred Fits := fun v => inferInstanceAs (Decidable (-2 ^ 63 ≤ v ∧ v < 2 ^ 63))

theorem fitsSigned_massBits_iff : Text.fitsSigned massBits v = true ↔ Fits v :=
  Text.fitsSigned_iff

theorem withinSigned_eq_ok_iff : withinSigned massBits v = .ok sum ↔ Fits v ∧ sum = v := by
  rw [withinSigned]
  by_cases hfits : Fits v
  · rw [if_pos (fitsSigned_massBits_iff.2 hfits)]
    simp [hfits, eq_comm]
  · rw [if_neg (mt fitsSigned_massBits_iff.1 hfits)]
    simp [hfits]

theorem withinSigned_eq_error_iff :
    withinSigned massBits v = .error why ↔ why = .outOfRange ∧ ¬ Fits v := by
  rw [withinSigned]
  by_cases hfits : Fits v
  · rw [if_pos (fitsSigned_massBits_iff.2 hfits)]
    simp [hfits]
  · rw [if_neg (mt fitsSigned_massBits_iff.1 hfits)]
    simp [hfits, eq_comm]

/-! ### Sums that are taken value by value -/

/-- The sums of the first values fit their word, however many are taken. -/
def SumsFit (values : List ℤ) : Prop :=
  ∀ front, front <+: values → Fits front.sum

theorem sumsFit_nil : SumsFit [] := by
  intro front hfront
  rw [List.prefix_nil.1 hfront]
  decide

theorem sumsFit_append_singleton :
    SumsFit (values ++ [v]) ↔ SumsFit values ∧ Fits (values.sum + v) := by
  have hsum : (values ++ [v]).sum = values.sum + v := by simp
  constructor
  · intro h
    refine ⟨fun front hfront => h front (hfront.trans (List.prefix_append _ _)), ?_⟩
    rw [← hsum]
    exact h _ List.prefix_rfl
  · rintro ⟨hvalues, hlast⟩ front hfront
    rcases List.prefix_concat_iff.1 hfront with rfl | hfront
    · rwa [hsum]
    · exact hvalues front hfront

theorem total_append_singleton (values : List ℤ) (v : ℤ) :
    total (values ++ [v]) = total values >>= fun sum => withinSigned massBits (sum + v) := by
  simp [total]

/-- A sum over modules comes out if no sum on the way leaves its word. -/
theorem total_eq_ok_iff : total values = .ok sum ↔ SumsFit values ∧ sum = values.sum := by
  induction values using List.reverseRecOn generalizing sum with
  | nil =>
    show Except.ok 0 = Except.ok sum ↔ _
    simp [sumsFit_nil, eq_comm]
  | append_singleton values v ih =>
    rw [total_append_singleton, bind_eq_ok, sumsFit_append_singleton]
    simp only [ih, withinSigned_eq_ok_iff]
    constructor
    · rintro ⟨_, ⟨hvalues, rfl⟩, hlast, rfl⟩
      exact ⟨⟨hvalues, hlast⟩, by simp⟩
    · rintro ⟨⟨hvalues, hlast⟩, rfl⟩
      exact ⟨values.sum, ⟨hvalues, rfl⟩, hlast, by simp⟩

/-- If one of them does, this is all that is known. -/
theorem total_eq_error_iff : total values = .error why ↔ why = .outOfRange ∧ ¬ SumsFit values := by
  induction values using List.reverseRecOn with
  | nil =>
    show Except.ok 0 = Except.error why ↔ _
    simp [sumsFit_nil]
  | append_singleton values v ih =>
    rw [total_append_singleton, bind_eq_error, ih, sumsFit_append_singleton]
    simp only [total_eq_ok_iff, withinSigned_eq_error_iff]
    constructor
    · rintro (⟨rfl, hvalues⟩ | ⟨_, ⟨-, rfl⟩, rfl, hlast⟩)
      · exact ⟨rfl, fun h => hvalues h.1⟩
      · exact ⟨rfl, fun h => hlast h.2⟩
    · rintro ⟨rfl, h⟩
      by_cases hvalues : SumsFit values
      · exact .inr ⟨values.sum, ⟨hvalues, rfl⟩, rfl, fun hlast => h ⟨hvalues, hlast⟩⟩
      · exact .inl ⟨rfl, hvalues⟩

theorem natAbs_sum_le (values : List ℤ) : values.sum.natAbs ≤ (values.map Int.natAbs).sum := by
  induction values with
  | nil => rfl
  | cons v values ih =>
    rw [List.sum_cons, List.map_cons, List.sum_cons]
    omega

/-- No sum on the way leaves its word if the values are small enough, whatever their signs are. -/
theorem sumsFit_of_natAbs (h : (values.map Int.natAbs).sum < 2 ^ 63) : SumsFit values := by
  rintro front ⟨behind, rfl⟩
  have hfront := natAbs_sum_le front
  rw [List.map_append, List.sum_append] at h
  rw [Fits]
  omega

/-! ### The fuel for one mass -/

/-- The fuel for a mass, for that fuel, and so on, as long as more than nothing is needed. -/
def needs (mass : ℤ) : List ℤ :=
  if 0 < forMass mass then forMass mass :: needs (forMass mass) else []
termination_by mass.toNat
decreasing_by exact forMass_toNat_lt (by assumption)

theorem sum_needs (mass : ℤ) : (needs mass).sum = inAll mass := by
  induction mass using needs.induct with
  | case1 mass h ih => rw [needs, inAll, if_pos h, if_pos h, List.sum_cons, ih]
  | case2 mass h => rw [needs, inAll, if_neg h, if_neg h, List.sum_nil]

theorem forMass_of_nonneg (h : 0 ≤ mass) : forMass mass = mass / 3 - 2 := by
  rw [forMass, Int.tdiv_eq_ediv_of_nonneg h]

theorem forMass_of_nonpos (h : mass ≤ 0) : forMass mass = -(-mass / 3) - 2 := by
  rw [← Int.neg_neg mass, forMass, Int.neg_tdiv, Int.neg_neg,
    Int.tdiv_eq_ediv_of_nonneg (Int.neg_nonneg_of_nonpos h)]

theorem three_mul_natAbs_forMass_le (mass : ℤ) : 3 * (forMass mass).natAbs ≤ mass.natAbs + 6 := by
  rcases le_total 0 mass with h | h
  · rw [forMass_of_nonneg h]
    omega
  · rw [forMass_of_nonpos h]
    omega

theorem three_mul_forMass_le (h : 0 < forMass mass) : 3 * forMass mass ≤ mass := by
  rcases le_total 0 mass with hmass | hmass
  · rw [forMass_of_nonneg hmass]
    omega
  · rw [forMass_of_nonpos hmass] at h
    omega

theorem fits_forMass (h : Fits mass) : Fits (forMass mass) := by
  have hle := three_mul_natAbs_forMass_le mass
  rw [Fits] at *
  omega

theorem two_mul_sum_natAbs_needs_le (mass : ℤ) :
    2 * ((needs mass).map Int.natAbs).sum ≤ mass.natAbs := by
  induction mass using needs.induct with
  | case1 mass h ih =>
    have hle := three_mul_forMass_le h
    rw [needs, if_pos h, List.map_cons, List.sum_cons]
    omega
  | case2 mass h => simp [needs, h]

/-- The sum of the fuel for one mass, taken one by one, stays in its word. -/
theorem sumsFit_needs (h : Fits mass) : SumsFit (needs mass) := by
  have hle := two_mul_sum_natAbs_needs_le mass
  rw [Fits] at h
  apply sumsFit_of_natAbs
  omega

theorem two_mul_natAbs_inAll_le (mass : ℤ) : 2 * (inAll mass).natAbs ≤ mass.natAbs := by
  have hle := two_mul_sum_natAbs_needs_le mass
  have hsum := natAbs_sum_le (needs mass)
  rw [sum_needs] at hsum
  omega

/-! ### The fuel for all modules -/

theorem fits_of_parseMasses {text : String} (h : parseMasses text = .ok masses) :
    ∀ mass ∈ masses, Fits mass := by
  intro mass hmass
  obtain ⟨line, -, hline⟩ := exists_mem_of_mapM h hmass
  dsimp only at hline
  split at hline
  · next hread =>
    cases hline
    exact fitsSigned_massBits_iff.1 (Text.readSigned_eq_ok_iff.1 hread).2
  · cases hline

/-- A sum over modules is bounded by all masses together if each of its values is by its mass. -/
theorem mul_sum_natAbs_le {f : ℤ → ℤ} (part more : ℕ)
    (h : ∀ mass, part * (f mass).natAbs ≤ mass.natAbs + more) (masses : List ℤ) :
    part * ((masses.map f).map Int.natAbs).sum ≤
      (masses.map Int.natAbs).sum + more * masses.length := by
  induction masses with
  | nil => simp
  | cons mass masses ih =>
    have hmass := h mass
    simp only [List.map_cons, List.sum_cons, List.length_cons, Nat.mul_add]
    omega

/-- No sum over the modules leaves its word, neither without nor with the fuel for the fuel. -/
def Addable (masses : List ℤ) : Prop :=
  SumsFit (masses.map forMass) ∧ SumsFit (masses.map inAll)

/-- The fuel can be added up if the masses are not too great all together. -/
theorem addable_of_natAbs (h : (masses.map Int.natAbs).sum + 6 * masses.length < 2 ^ 64) :
    Addable masses := by
  have hmodules := mul_sum_natAbs_le 3 6 three_mul_natAbs_forMass_le masses
  have hall := mul_sum_natAbs_le 2 0 two_mul_natAbs_inAll_le masses
  constructor <;> apply sumsFit_of_natAbs <;> omega

theorem solve_of_parseMasses {text : String} (h : parseMasses text = .ok masses) :
    solve text = (do return (← total (masses.map forMass), ← total (masses.map inAll))) := by
  rw [solve, h]
  rfl

theorem solve_eq_ok {text : String} (h : parseMasses text = .ok masses) (hsums : Addable masses) :
    solve text = .ok ((masses.map forMass).sum, (masses.map inAll).sum) := by
  have hmodules := total_eq_ok_iff.2 ⟨hsums.1, rfl⟩
  have hall := total_eq_ok_iff.2 ⟨hsums.2, rfl⟩
  rw [solve_of_parseMasses h, hmodules, hall]
  rfl

theorem solve_eq_outOfRange {text : String} (h : parseMasses text = .ok masses)
    (hsums : ¬ Addable masses) : solve text = .error .outOfRange := by
  rw [solve_of_parseMasses h, bind_eq_error]
  by_cases hmodules : SumsFit (masses.map forMass)
  · have hall : ¬ SumsFit (masses.map inAll) := fun hall => hsums ⟨hmodules, hall⟩
    refine .inr ⟨_, total_eq_ok_iff.2 ⟨hmodules, rfl⟩, ?_⟩
    exact bind_eq_error.2 (.inl (total_eq_error_iff.2 ⟨rfl, hall⟩))
  · exact .inl (total_eq_error_iff.2 ⟨rfl, hmodules⟩)

/-- **Only the sums over all modules can leave their words**, which they do not if the masses are
not too great all together. -/
theorem solve_of_text (text : String) :
    (∀ fault, parseMasses text = .error fault → solve text = .error (.fault fault)) ∧
    (∀ v, Fits v → Fits (forMass v)) ∧
    ∀ masses, parseMasses text = .ok masses →
      (∀ mass ∈ masses, Fits mass ∧ inAll mass = (needs mass).sum ∧ SumsFit (needs mass)) ∧
      (Addable masses → solve text = .ok ((masses.map forMass).sum, (masses.map inAll).sum)) ∧
      (¬ Addable masses → solve text = .error .outOfRange) ∧
      ((masses.map Int.natAbs).sum + 6 * masses.length < 2 ^ 64 → Addable masses) := by
  refine ⟨fun fault h => ?_, fun v => fits_forMass, fun masses h => ?_⟩
  · rw [solve, h]
    rfl
  · refine ⟨fun mass hmass => ?_, solve_eq_ok h, solve_eq_outOfRange h, addable_of_natAbs⟩
    have hfits := fits_of_parseMasses h mass hmass
    exact ⟨hfits, (sum_needs mass).symm, sumsFit_needs hfits⟩

/-- Two modules, of which only the second one needs fuel for its fuel. -/
theorem solve_of_text_pair : solve "14\n1969" = .ok (656, 968) := by
  have hread : parseMasses "14\n1969" = .ok [14, 1969] := by decide +kernel
  obtain ⟨-, hsums, -, hlight⟩ := (solve_of_text "14\n1969").2.2 _ hread
  have hmodules : ([14, 1969].map forMass).sum = 656 := by decide
  have hall : ([14, 1969].map inAll).sum = 968 := by simp [← sum_needs, needs, forMass]
  rw [hsums (hlight (by decide)), hmodules, hall]

/-- Three modules of the least mass and one of a small mass: both answers fit their words, but the
sum of the fuel for the first three modules does not. -/
theorem solve_of_light_modules :
    parseMasses "-9223372036854775808\n-9223372036854775808\n-9223372036854775808\n18" =
        .ok [-2 ^ 63, -2 ^ 63, -2 ^ 63, 18] ∧
      ([-2 ^ 63, -2 ^ 63, -2 ^ 63, 18].map forMass).sum = -2 ^ 63 ∧
      ([-2 ^ 63, -2 ^ 63, -2 ^ 63, 18].map inAll).sum = 4 ∧
      solve "-9223372036854775808\n-9223372036854775808\n-9223372036854775808\n18" =
        .error .outOfRange := by
  have hread : parseMasses
      "-9223372036854775808\n-9223372036854775808\n-9223372036854775808\n18" =
        .ok [-2 ^ 63, -2 ^ 63, -2 ^ 63, 18] := by decide +kernel
  refine ⟨hread, by decide, by simp [← sum_needs, needs, forMass], solve_eq_outOfRange hread ?_⟩
  rintro ⟨hsums, -⟩
  exact absurd (hsums ([-2 ^ 63, -2 ^ 63, -2 ^ 63].map forMass) ⟨[18].map forMass, rfl⟩) (by decide)

end Shipboard.Fuel
