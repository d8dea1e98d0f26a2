import Mathlib.Tactic
import Mathlib.Data.List.SplitBy
import Shipboard.Passcode

/-!
# Runs of equal digits

The rules for a passcode look at neighbours and at runs of equal digits.  Here they are described by
what stands in front of such a place and behind it; where the digits are in order, it comes down to
how often a digit occurs.

* `HasRepeat ds` and `HasDouble ds`: two neighbours are equal, and a run has exactly two digits;
* `mem_neighbours_iff` and `exists_run_iff`: the rules look for just that;
* `eq_append_of_pairwise`: digits in order are those less than a given one, all of its occurrences,
  and those greater than it;
* `hasRepeat_iff_of_pairwise` and `hasDouble_iff_of_pairwise`: the counting rules.
-/

namespace Shipboard.Passcode

variable {ds run : List ℕ} {a b : ℕ}

/-- Two neighbouring digits are equal. -/
def HasRepeat (ds : List ℕ) : Prop :=
  ∃ front d behind, ds = front ++ d :: d :: behind

/-- A run has exactly two equal digits: other digits or the ends are in front of it and behind. -/
def HasDouble (ds : List ℕ) : Prop :=
  ∃ front d behind, ds = front ++ d :: d :: behind ∧ front.getLast? ≠ some d ∧
    behind.head? ≠ some d

theorem HasDouble.hasRepeat (h : HasDouble ds) : HasRepeat ds := by
  obtain ⟨front, d, behind, rfl, -, -⟩ := h
  exact ⟨front, d, behind, rfl⟩

/-! ### Neighbours -/

theorem neighbours_cons_cons (a b : ℕ) (ds : List ℕ) :
    neighbours (a :: b :: ds) = (a, b) :: neighbours (b :: ds) := rfl

theorem mem_neighbours_iff :
    (a, b) ∈ neighbours ds ↔ ∃ front behind, ds = front ++ a :: b :: behind := by
  induction ds with
  | nil => simp [neighbours]
  | cons c ds ih =>
    cases ds with
    | nil => simp [neighbours, List.cons_eq_append_iff]
    | cons d ds =>
      rw [neighbours_cons_cons, List.mem_cons, ih, Prod.mk.injEq]
      constructor
      · rintro (⟨rfl, rfl⟩ | ⟨front, behind, h⟩)
        · exact ⟨[], ds, rfl⟩
        · exact ⟨c :: front, behind, by rw [h, List.cons_append]⟩
      · rintro ⟨front, behind, h⟩
        cases front with
        | nil =>
          cases h
          exact .inl ⟨rfl, rfl⟩
        | cons e front => exact .inr ⟨front, behind, (List.cons.inj h).2⟩

theorem forall_neighbours_iff :
    (∀ a b, (a, b) ∈ neighbours ds → a ≤ b) ↔ ds.Pairwise (· ≤ ·) := by
  rw [← List.isChain_iff_pairwise, List.isChain_iff_forall_rel_of_append_cons_cons]
  constructor
  · intro h a b front behind hds
    exact h a b (mem_neighbours_iff.2 ⟨front, behind, hds⟩)
  · intro h a b hab
    obtain ⟨front, behind, hds⟩ := mem_neighbours_iff.1 hab
    exact h hds

theorem exists_neighbours_iff : (∃ d, (d, d) ∈ neighbours ds) ↔ HasRepeat ds := by
  simp only [mem_neighbours_iff]
  constructor
  · rintro ⟨d, front, behind, h⟩
    exact ⟨front, d, behind, h⟩
  · rintro ⟨front, d, behind, h⟩
    exact ⟨d, front, behind, h⟩

/-! ### Runs -/

/-- The digits around a run are not those at its ends. -/
theorem exists_of_mem_splitBy (h : run ∈ ds.splitBy (· == ·)) :
    ∃ front behind, ds = front ++ (run ++ behind) ∧
      (∀ d ∈ run.head?, front.getLast? ≠ some d) ∧ ∀ d ∈ run.getLast?, behind.head? ≠ some d := by
  obtain ⟨before, after, hsplit⟩ := List.append_of_mem h
  have hds : ds = before.flatten ++ (run ++ after.flatten) := by
    rw [← List.flatten_cons, ← List.flatten_append, ← hsplit, List.flatten_splitBy]
  have hchain := List.isChain_getLast_head_splitBy (· == ·) ds
  rw [hsplit, List.isChain_append, List.isChain_cons] at hchain
  obtain ⟨-, ⟨hafter, -⟩, hbefore⟩ := hchain
  refine ⟨before.flatten, after.flatten, hds, ?_, ?_⟩
  · intro d hd hlast
    rcases List.eq_nil_or_concat' before with rfl | ⟨others, last, rfl⟩
    · simp at hlast
    · obtain ⟨hlastNe, hrunNe, hdiffer⟩ := hbefore last (by simp) run (by simp)
      have hrunHead : run.head hrunNe = d := by
        simpa [List.head?_eq_some_head hrunNe] using hd
      have hlastEnd : last.getLast hlastNe = d := by
        simpa [List.getLast?_append, List.getLast?_eq_some_getLast hlastNe] using hlast
      rw [hrunHead, hlastEnd, beq_self_eq_true] at hdiffer
      cases hdiffer
  · intro d hd hhead
    cases after with
    | nil => simp at hhead
    | cons next others =>
      obtain ⟨hrunNe, hnextNe, hdiffer⟩ := hafter next (by simp)
      have hrunEnd : run.getLast hrunNe = d := by
        simpa [List.getLast?_eq_some_getLast hrunNe] using hd
      have hnextHead : next.head hnextNe = d := by
        simpa [List.head?_append, List.head?_eq_some_head hnextNe] using hhead
      rw [hrunEnd, hnextHead, beq_self_eq_true] at hdiffer
      cases hdiffer

theorem exists_run_iff :
    (∃ run ∈ ds.splitBy (· == ·), run.length = 2) ↔ HasDouble ds := by
  constructor
  · rintro ⟨run, hrun, hlength⟩
    obtain ⟨front, behind, hds, hfront, hbehind⟩ := exists_of_mem_splitBy hrun
    obtain ⟨a, b, rfl⟩ := List.length_eq_two.1 hlength
    have hchain := List.isChain_of_mem_splitBy hrun
    obtain rfl : a = b := by simpa using hchain
    exact ⟨front, a, behind, hds, hfront a rfl, hbehind a rfl⟩
  · rintro ⟨front, d, behind, rfl, hfront, hbehind⟩
    refine ⟨[d, d], ?_, rfl⟩
    have hcut : (front ++ ([d, d] ++ behind)).splitBy (· == ·) =
        front.splitBy (· == ·) ++ ([d, d].splitBy (· == ·) ++ behind.splitBy (· == ·)) := by
      rw [List.splitBy_append, List.splitBy_append]
      · intro x hx y hy
        obtain rfl : d = x := by simpa using hx
        simpa using fun heq : d = y => hbehind (heq ▸ hy)
      · intro x hx y hy
        obtain rfl : d = y := by simpa using hy
        simpa using fun heq : x = d => hfront (heq ▸ hx)
    have hrun : [d, d].splitBy (· == ·) = [[d, d]] :=
      List.splitBy_of_isChain (by simp) (by simp)
    rw [hrun] at hcut
    show [d, d] ∈ (front ++ ([d, d] ++ behind)).splitBy (· == ·)
    rw [hcut]
    simp

/-! ### Digits in order -/

/-- Digits in order are those less than a given one, all of its occurrences, and those greater. -/
theorem eq_append_of_pairwise (h : ds.Pairwise (· ≤ ·)) (d : ℕ) :
    ds = ds.filter (· < d) ++ (List.replicate (ds.count d) d ++ ds.filter (d < ·)) := by
  induction ds with
  | nil => rfl
  | cons a ds ih =>
    obtain ⟨ha, hds⟩ := List.pairwise_cons.1 h
    have hrest := ih hds
    rcases lt_trichotomy a d with hlt | rfl | hgt
    · rw [List.filter_cons_of_pos (by simpa using hlt), List.count_cons_of_ne (by omega),
        List.filter_cons_of_neg (by simp; omega), List.cons_append, ← hrest]
    · have hless : ds.filter (· < a) = [] := by
        rw [List.filter_eq_nil_iff]
        intro b hb
        simpa using ha b hb
      rw [hless, List.nil_append] at hrest
      rw [List.filter_cons_of_neg (by simp), List.count_cons_self,
        List.filter_cons_of_neg (by simp), hless, List.replicate_succ, List.nil_append,
        List.cons_append, ← hrest]
    · have hless : (a :: ds).filter (· < d) = [] := by
        rw [List.filter_eq_nil_iff]
        intro b hb
        rcases List.mem_cons.1 hb with rfl | hb
        · simp; omega
        · have hab := ha b hb
          simp; omega
      have hcount : (a :: ds).count d = 0 := by
        rw [List.count_eq_zero]
        intro hd
        rcases List.mem_cons.1 hd with rfl | hd
        · omega
        · have had := ha d hd
          omega
      have hgreater : (a :: ds).filter (d < ·) = a :: ds := by
        rw [List.filter_eq_self]
        intro b hb
        rcases List.mem_cons.1 hb with rfl | hb
        · simpa using hgt
        · have hab := ha b hb
          simp; omega
      rw [hless, hcount, hgreater]
      rfl

theorem two_le_count (front behind : List ℕ) (d : ℕ) :
    2 ≤ (front ++ d :: d :: behind).count d := by
  rw [List.count_append, List.count_cons_self, List.count_cons_self]
  omega

/-- Two neighbours in order are equal if a digit occurs twice. -/
theorem hasRepeat_iff_of_pairwise (h : ds.Pairwise (· ≤ ·)) :
    HasRepeat ds ↔ ∃ d, 2 ≤ ds.count d := by
  constructor
  · rintro ⟨front, d, behind, rfl⟩
    exact ⟨d, two_le_count front behind d⟩
  · rintro ⟨d, hd⟩
    obtain ⟨more, hmore⟩ := Nat.exists_eq_add_of_le' hd
    have hds := eq_append_of_pairwise h d
    rw [hmore, List.replicate_succ, List.replicate_succ] at hds
    exact ⟨_, d, _, hds⟩

/-- A run of digits in order has exactly two of them if a digit occurs exactly twice. -/
theorem hasDouble_iff_of_pairwise (h : ds.Pairwise (· ≤ ·)) :
    HasDouble ds ↔ ∃ d, ds.count d = 2 := by
  constructor
  · rintro ⟨front, d, behind, rfl, hlast, hhead⟩
    obtain ⟨hfront, hrest, hle⟩ := List.pairwise_append.1 h
    have hnotFront : d ∉ front := by
      intro hd
      rcases List.eq_nil_or_concat' front with rfl | ⟨others, last, rfl⟩
      · cases hd
      · -- the last digit in front is the greatest of them
        have hlastLe : last ≤ d := hle last (by simp) d (by simp)
        have hne : last ≠ d := by simpa using hlast
        obtain ⟨-, -, hothers⟩ := List.pairwise_append.1 hfront
        rcases List.mem_append.1 hd with hd | hd
        · have hdLe : d ≤ last := hothers d hd last (by simp)
          omega
        · exact hne (List.mem_singleton.1 hd).symm
    have hnotBehind : d ∉ behind := by
      intro hd
      cases behind with
      | nil => cases hd
      | cons next others =>
        have hne : next ≠ d := by simpa using hhead
        obtain ⟨-, hrest⟩ := List.pairwise_cons.1 hrest
        obtain ⟨hdLe, hothers⟩ := List.pairwise_cons.1 hrest
        have hnext : d ≤ next := hdLe next (by simp)
        rcases List.mem_cons.1 hd with rfl | hd
        · exact hne rfl
        · have hnextLe : next ≤ d := List.rel_of_pairwise_cons hothers hd
          omega
    refine ⟨d, ?_⟩
    rw [List.count_append, List.count_cons_self, List.count_cons_self,
      List.count_eq_zero.2 hnotFront, List.count_eq_zero.2 hnotBehind]
  · rintro ⟨d, hd⟩
    have hds := eq_append_of_pairwise h d
    rw [hd] at hds
    refine ⟨_, d, _, hds, fun hlast => ?_, fun hhead => ?_⟩
    · have hmem := List.mem_of_getLast? hlast
      simp at hmem
    · have hmem := List.mem_of_head? hhead
      simp at hmem

end Shipboard.Passcode
