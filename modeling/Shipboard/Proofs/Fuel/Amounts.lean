import Mathlib.Logic.Function.Iterate
import Shipboard.Proofs.Fuel.Sums

/-!
# The amounts of fuel for one mass

The fuel for a mass is a mass itself, and so on: the amounts are the iterates of `Fuel.forMass`.
They are added up as long as they are positive.

* `Fuel.fits_iterate` and `Fuel.fits_third`: no amount leaves its word, and neither does the third
  that it is worked out from;
* `Fuel.exists_sum_iterates`: the amounts end, and `Fuel.inAll` is the sum of those before the end;
* `Fuel.monotone_inAll`: a greater mass needs no less fuel;
* `Fuel.inAll_of_iterates`: all of this together, and what it means for the answers about all
  modules.
-/

namespace Shipboard.Fuel

variable {mass modules all : ℤ} {text : String}

theorem inAll_of_pos (h : 0 < forMass mass) :
    inAll mass = forMass mass + inAll (forMass mass) := by
  rw [inAll, if_pos h]

theorem inAll_of_nonpos (h : forMass mass ≤ 0) : inAll mass = 0 := by
  rw [inAll, if_neg (not_lt.2 h)]

/-! ### Bounds -/

theorem inAll_nonneg (mass : ℤ) : 0 ≤ inAll mass := by
  induction mass using inAll.induct with
  | case1 mass h ih =>
    rw [inAll_of_pos h]
    omega
  | case2 mass h => rw [inAll_of_nonpos (not_lt.1 h)]

theorem forMass_le_inAll (mass : ℤ) : forMass mass ≤ inAll mass := by
  by_cases h : 0 < forMass mass
  · have hrest := inAll_nonneg (forMass mass)
    rw [inAll_of_pos h]
    omega
  · rw [inAll_of_nonpos (not_lt.1 h)]
    omega

theorem two_mul_inAll_le (h : 0 ≤ mass) : 2 * inAll mass ≤ mass := by
  have hle := two_mul_natAbs_inAll_le mass
  omega

theorem monotone_forMass : Monotone forMass := by
  intro light heavy hle
  unfold forMass
  have hthird : light.tdiv 3 ≤ heavy.tdiv 3 := Int.tdiv_le_tdiv (by decide) hle
  omega

/-- A greater mass needs no less fuel. -/
theorem monotone_inAll : Monotone inAll := by
  intro light heavy hle
  induction heavy using inAll.induct generalizing light with
  | case1 heavy h ih =>
    have hfirst := monotone_forMass hle
    rw [inAll_of_pos h]
    by_cases hlight : 0 < forMass light
    · have hrest := ih hfirst
      rw [inAll_of_pos hlight]
      omega
    · have hnonneg := inAll_nonneg (forMass heavy)
      rw [inAll_of_nonpos (not_lt.1 hlight)]
      omega
  | case2 heavy h =>
    have hfirst := monotone_forMass hle
    rw [inAll_of_nonpos (not_lt.1 h), inAll_of_nonpos (by omega)]

/-! ### The amounts, one after the other -/

theorem fits_third (h : Fits mass) : Fits (mass.tdiv 3) := by
  have hthird : (mass.tdiv 3).natAbs = mass.natAbs / 3 := Int.natAbs_tdiv mass 3
  unfold Fits at *
  omega

theorem fits_iterate (h : Fits mass) (k : ℕ) : Fits (forMass^[k] mass) := by
  induction k with
  | zero => exact h
  | succ k ih =>
    rw [Function.iterate_succ_apply']
    exact fits_forMass ih

/-- The amounts are positive up to some place and not so at the next one, and the fuel for a mass is
the sum of the positive ones. -/
theorem exists_sum_iterates (mass : ℤ) :
    ∃ n, (∀ k < n, 0 < forMass^[k + 1] mass) ∧ forMass^[n + 1] mass ≤ 0 ∧
      inAll mass = ∑ k ∈ Finset.range n, forMass^[k + 1] mass := by
  induction mass using inAll.induct with
  | case1 mass h ih =>
    obtain ⟨n, hpositive, hlast, hsum⟩ := ih
    refine ⟨n + 1, fun k hk => ?_, hlast, ?_⟩
    · cases k with
      | zero => exact h
      | succ k => exact hpositive k (by omega)
    · rw [inAll_of_pos h, hsum, Finset.sum_range_succ', add_comm]
      rfl
  | case2 mass h =>
    refine ⟨0, fun k hk => absurd hk (Nat.not_lt_zero k), not_lt.1 h, ?_⟩
    rw [inAll_of_nonpos (not_lt.1 h), Finset.sum_range_zero]

/-- The sums on the way to the sum of positive amounts are not greater. -/
theorem fits_sum_iterates {n m : ℕ} (h : Fits mass) (hpositive : ∀ k < n, 0 < forMass^[k + 1] mass)
    (hsum : inAll mass = ∑ k ∈ Finset.range n, forMass^[k + 1] mass) (hm : m ≤ n) :
    Fits (∑ k ∈ Finset.range m, forMass^[k + 1] mass) := by
  have hnonneg : 0 ≤ ∑ k ∈ Finset.range m, forMass^[k + 1] mass := by
    apply Finset.sum_nonneg
    intro k hk
    exact (hpositive k ((Finset.mem_range.1 hk).trans_le hm)).le
  have hle : ∑ k ∈ Finset.range m, forMass^[k + 1] mass ≤ inAll mass := by
    rw [hsum]
    apply Finset.sum_le_sum_of_subset_of_nonneg (Finset.range_mono hm)
    intro k hk _
    exact (hpositive k (Finset.mem_range.1 hk)).le
  have hbound := two_mul_natAbs_inAll_le mass
  unfold Fits at *
  omega

/-! ### All modules -/

theorem sum_forMass_le (masses : List ℤ) : (masses.map forMass).sum ≤ (masses.map inAll).sum :=
  List.sum_le_sum fun mass _ => forMass_le_inAll mass

theorem sum_inAll_nonneg (masses : List ℤ) : 0 ≤ (masses.map inAll).sum := by
  apply List.sum_nonneg
  intro all hall
  obtain ⟨mass, -, rfl⟩ := List.mem_map.1 hall
  exact inAll_nonneg mass

/-- The answers about all modules are sums over the masses that were read. -/
theorem exists_masses_of_solve (h : solve text = .ok (modules, all)) :
    ∃ masses, parseMasses text = .ok masses ∧ modules = (masses.map forMass).sum ∧
      all = (masses.map inAll).sum := by
  cases hread : parseMasses text with
  | error fault =>
    rw [solve, hread] at h
    cases h
  | ok masses =>
    rw [solve_of_parseMasses hread] at h
    obtain ⟨first, hfirst, h⟩ := bind_eq_ok.1 h
    obtain ⟨second, hsecond, h⟩ := bind_eq_ok.1 h
    cases h
    exact ⟨masses, rfl, (total_eq_ok_iff.1 hfirst).2, (total_eq_ok_iff.1 hsecond).2⟩

/-- **The fuel for the fuel is well behaved.**  Every amount and every sum on the way fits its word,
and of two answers about all modules the second is not less than the first. -/
theorem inAll_of_iterates :
    (∀ mass, Fits mass →
      (∀ k, Fits (forMass^[k] mass) ∧ Fits ((forMass^[k] mass).tdiv 3)) ∧
      ∃ n, (∀ k < n, 0 < forMass^[k + 1] mass) ∧ forMass^[n + 1] mass ≤ 0 ∧
        inAll mass = ∑ k ∈ Finset.range n, forMass^[k + 1] mass ∧
        ∀ m ≤ n, Fits (∑ k ∈ Finset.range m, forMass^[k + 1] mass)) ∧
    (∀ mass, inAll mass =
      if 0 < forMass mass then forMass mass + inAll (forMass mass) else 0) ∧
    (∀ mass, 0 ≤ inAll mass ∧ forMass mass ≤ inAll mass) ∧
    (∀ mass, 0 ≤ mass → 2 * inAll mass ≤ mass) ∧
    Monotone inAll ∧
    ∀ text modules all, solve text = .ok (modules, all) → modules ≤ all ∧ 0 ≤ all := by
  refine ⟨fun mass h => ⟨fun k => ?_, ?_⟩, fun mass => by rw [inAll],
    fun mass => ⟨inAll_nonneg mass, forMass_le_inAll mass⟩, fun mass => two_mul_inAll_le,
    monotone_inAll, fun text modules all h => ?_⟩
  · have hk := fits_iterate h k
    exact ⟨hk, fits_third hk⟩
  · obtain ⟨n, hpositive, hlast, hsum⟩ := exists_sum_iterates mass
    exact ⟨n, hpositive, hlast, hsum, fun m => fits_sum_iterates h hpositive hsum⟩
  · obtain ⟨masses, -, rfl, rfl⟩ := exists_masses_of_solve h
    exact ⟨sum_forMass_le masses, sum_inAll_nonneg masses⟩

/-- A mass of which the fuel is a mass four times over, the greatest mass that fits its word beside
the least one, and the answers about two modules. -/
theorem inAll_of_iterates_modules :
    (∃ n, (∀ k < n, 0 < forMass^[k + 1] 1969) ∧ forMass^[n + 1] 1969 ≤ 0 ∧
        966 = ∑ k ∈ Finset.range n, forMass^[k + 1] 1969) ∧
      Fits (forMass^[5] (-2 ^ 63)) ∧ 2 * inAll (2 ^ 63 - 1) ≤ 2 ^ 63 - 1 ∧
      inAll (-2 ^ 63) ≤ inAll (2 ^ 63 - 1) ∧
      solve "14\n1969" = .ok (656, 968) ∧ (656 : ℤ) ≤ 968 := by
  have hall : inAll 1969 = 966 := by simp [← sum_needs, needs, forMass]
  have hsolve : solve "14\n1969" = .ok (656, 968) := by
    have hread : parseMasses "14\n1969" = .ok [14, 1969] := by decide +kernel
    have hmodules : ([14, 1969].map forMass).sum = 656 := by decide
    have hfuel : ([14, 1969].map inAll).sum = 968 := by simp [← sum_needs, needs, forMass]
    rw [solve_eq_ok hread (addable_of_natAbs (by decide)), hmodules, hfuel]
  obtain ⟨hfits, -, -, hhalf, hmonotone, hanswers⟩ := inAll_of_iterates
  obtain ⟨n, hpositive, hlast, hsum, -⟩ := (hfits 1969 (by decide)).2
  exact ⟨⟨n, hpositive, hlast, hall ▸ hsum⟩, ((hfits (-2 ^ 63) (by decide)).1 5).1,
    hhalf _ (by decide), hmonotone (by decide), hsolve, (hanswers _ _ _ hsolve).1⟩

end Shipboard.Fuel
