import Mathlib.Tactic
import Shipboard.Amplifier
import Shipboard.Proofs.Arrangement
import Shipboard.Proofs.Outcome

/-!
# The best arrangement

The search goes through the arrangements of the phase settings and keeps the best so far.  Here it
is tied to all arrangements together.

* `Amplifier.foldlM_better`: the search is a row's computation for every arrangement, of which the
  first greatest signal is taken;
* `Amplifier.Arranges first stop phases`: five different phase settings from `first` on and below
  `stop`; `Amplifier.mem_arrangements_settings_iff` and `Amplifier.pairwise_arrangements_settings`
  say that these are gone through in lexicographic order;
* `Amplifier.best_of_arrangements`: what the search comes to, for any row.
-/

namespace Shipboard.Amplifier

variable {first stop phase : ℤ} {phases : List ℤ}

/-! ### Phase settings and their arrangements -/

theorem mem_settings_iff : phase ∈ settings first stop ↔ first ≤ phase ∧ phase < stop := by
  rw [settings, List.mem_map]
  constructor
  · rintro ⟨i, hi, rfl⟩
    have hi := List.mem_range.1 hi
    omega
  · rintro ⟨hfirst, hstop⟩
    exact ⟨(phase - first).toNat, List.mem_range.2 (by omega), by omega⟩

theorem length_settings (first stop : ℤ) : (settings first stop).length = (stop - first).toNat := by
  rw [settings, List.length_map, List.length_range]

theorem pairwise_settings (first stop : ℤ) : (settings first stop).Pairwise (· < ·) := by
  rw [settings, List.pairwise_map]
  exact List.pairwise_lt_range.imp fun hlt => by omega

/-- Five different phase settings from `first` on and below `stop`. -/
structure Arranges (first stop : ℤ) (phases : List ℤ) : Prop where
  length : phases.length = 5
  nodup : phases.Nodup
  within : ∀ phase ∈ phases, first ≤ phase ∧ phase < stop

theorem mem_arrangements_settings_iff :
    phases ∈ arrangements rowSize (settings first stop) ↔ Arranges first stop phases := by
  rw [mem_arrangements_iff (pairwise_settings first stop).nodup]
  constructor
  · rintro ⟨hlength, hnodup, hsubset⟩
    exact ⟨hlength, hnodup, fun phase hphase => mem_settings_iff.1 (hsubset hphase)⟩
  · rintro ⟨hlength, hnodup, hwithin⟩
    exact ⟨hlength, hnodup, fun phase hphase => mem_settings_iff.2 (hwithin phase hphase)⟩

theorem pairwise_arrangements_settings (first stop : ℤ) :
    (arrangements rowSize (settings first stop)).Pairwise (· < ·) :=
  pairwise_arrangements (pairwise_settings first stop)

/-- There is an arrangement if there are enough phase settings. -/
theorem arrangements_settings_ne_nil (h : 5 ≤ stop - first) :
    arrangements rowSize (settings first stop) ≠ [] := by
  have hlength : 5 ≤ (settings first stop).length := by
    rw [length_settings]
    omega
  apply List.ne_nil_of_mem (a := (settings first stop).take 5)
  rw [mem_arrangements_iff (pairwise_settings first stop).nodup]
  exact ⟨List.length_take_of_le hlength,
    (pairwise_settings first stop).nodup.sublist (List.take_sublist _ _), List.take_subset _ _⟩

theorem arrangements_settings_eq_nil (h : stop - first < 5) :
    arrangements rowSize (settings first stop) = [] := by
  apply arrangements_eq_nil (pairwise_settings first stop).nodup
  rw [length_settings, rowSize]
  omega

/-! ### Going through them -/

variable {row : List ℤ → Except Failure ℤ}

/-- An arrangement with the signal that a row gives for it. -/
def amplified (row : List ℤ → Except Failure ℤ) (phases : List ℤ) : Except Failure Amplified :=
  (row phases).map fun signal => ⟨signal, phases⟩

theorem amplified_eq_ok {a : Amplified} :
    amplified row phases = .ok a ↔ row phases = .ok a.signal ∧ a.phases = phases := by
  rw [amplified, map_eq_ok]
  constructor
  · rintro ⟨signal, hrow, rfl⟩
    exact ⟨hrow, rfl⟩
  · rintro ⟨hrow, rfl⟩
    exact ⟨a.signal, hrow, rfl⟩

/-- To keep the best so far is to let the row give its signals first, up to the first failure, and
to take the first greatest of them then. -/
theorem foldlM_better (orders : List (List ℤ)) (found : Option Amplified) :
    orders.foldlM (better row) found =
      (orders.mapM (amplified row)).map
        (List.foldl (List.argAux fun new old => old.signal < new.signal) found) := by
  induction orders generalizing found with
  | nil => rfl
  | cons phases orders ih =>
    have hbetter : better row found phases = (amplified row phases).map
        (List.argAux (fun new old => old.signal < new.signal) found) := by
      rw [better, amplified]
      cases row phases with
      | error why => rfl
      | ok signal => cases found <;> rfl
    rw [List.foldlM_cons, List.mapM_cons, hbetter]
    cases amplified row phases with
    | error why => rfl
    | ok a =>
      show orders.foldlM (better row) _ = _
      rw [ih]
      cases orders.mapM (amplified row) <;> rfl

theorem best_eq (first stop : ℤ) (row : List ℤ → Except Failure ℤ) :
    best first stop row =
      (arrangements rowSize (settings first stop)).mapM (amplified row) >>= fun all =>
        match all.argmax Amplified.signal with
        | some a => .ok a
        | none => Failure.because (.unsolvable (.tooFewPhases first stop)) := by
  have hpicked : ∀ orders : List (List ℤ), orders.map (([] : List ℤ).reverse ++ ·) = orders :=
    fun orders => List.map_id orders
  rw [best, foldArrangements_eq, hpicked, foldlM_better]
  cases (arrangements rowSize (settings first stop)).mapM (amplified row) <;> rfl

/-! ### The first of the best -/

variable {all : List Amplified} {a b : Amplified}

/-- The arrangements that are gone through are those that a row gives signals for. -/
theorem phases_of_mapM {orders : List (List ℤ)} (h : orders.mapM (amplified row) = .ok all) :
    all.map Amplified.phases = orders := by
  have hphases : List.Forall₂ (fun phases a => phases = Amplified.phases a) orders all :=
    (mapM_eq_ok_iff.1 h).imp fun _ _ ha => (amplified_eq_ok.1 ha).2.symm
  rw [← List.forall₂_map_right_iff (R := (· = ·)), List.forall₂_eq_eq_eq] at hphases
  exact hphases.symm

/-- What comes before the first greatest signal is less. -/
theorem signal_lt_of_argmax (hall : all.Pairwise fun a b => a.phases < b.phases)
    (ha : all.argmax Amplified.signal = some a) (hb : b ∈ all) (hlt : b.phases < a.phases) :
    b.signal < a.signal := by
  by_contra hle
  -- else the greatest signal would have been found there
  have hindex : all.idxOf a ≤ all.idxOf b := List.index_of_argmax ha hb (not_lt.1 hle)
  have hai := List.idxOf_lt_length_of_mem (List.argmax_mem ha)
  have hbi := List.idxOf_lt_length_of_mem hb
  rcases hindex.lt_or_eq with hbefore | hsame
  · have hphases := List.pairwise_iff_getElem.1 hall _ _ hai hbi hbefore
    rw [List.getElem_idxOf, List.getElem_idxOf] at hphases
    exact lt_asymm hlt hphases
  · rw [List.idxOf_inj (List.argmax_mem ha)] at hsame
    exact lt_irrefl _ (hsame ▸ hlt)

/-- If a row gives no signal for some arrangement, then the search ends as the row does for the
first of them. -/
theorem exists_of_mapM_eq_error {orders : List (List ℤ)} {why : Failure}
    (horders : orders.Pairwise (· < ·)) (h : orders.mapM (amplified row) = .error why) :
    ∃ phases ∈ orders, row phases = .error why ∧
      ∀ earlier ∈ orders, earlier < phases → ∃ signal, row earlier = .ok signal := by
  obtain ⟨front, phases, behind, rfl, hfront, hfails⟩ := mapM_eq_error_iff.1 h
  refine ⟨phases, by simp, map_eq_error.1 hfails, fun earlier hmem hlt => ?_⟩
  obtain ⟨-, hrest, -⟩ := List.pairwise_append.1 horders
  rcases List.mem_append.1 hmem with hearlier | hlater
  · obtain ⟨a, ha⟩ := hfront earlier hearlier
    exact ⟨a.signal, (amplified_eq_ok.1 ha).1⟩
  · rcases List.mem_cons.1 hlater with rfl | hlater
    · exact absurd hlt (lt_irrefl _)
    · exact absurd hlt (lt_asymm (List.rel_of_pairwise_cons hrest hlater))

/-- If a row gives a signal for every arrangement, then the first of the greatest is found. -/
theorem exists_argmax_of_mapM {orders : List (List ℤ)} (horders : orders.Pairwise (· < ·))
    (hne : orders ≠ []) (h : orders.mapM (amplified row) = .ok all) :
    ∃ a, all.argmax Amplified.signal = some a ∧ a.phases ∈ orders ∧ row a.phases = .ok a.signal ∧
      ∀ other ∈ orders, ∃ value, row other = .ok value ∧ value ≤ a.signal ∧
        (other < a.phases → value < a.signal) := by
  have hphases := phases_of_mapM h
  cases hmax : all.argmax Amplified.signal with
  | none =>
    rw [List.argmax_eq_none.1 hmax] at hphases
    exact absurd hphases.symm hne
  | some a =>
    have hall : all.Pairwise fun a b => a.phases < b.phases := by
      rwa [← hphases, List.pairwise_map] at horders
    obtain ⟨_, hmem, ha⟩ := exists_mem_of_mapM h (List.argmax_mem hmax)
    obtain ⟨hrow, rfl⟩ := amplified_eq_ok.1 ha
    refine ⟨a, rfl, hmem, hrow, fun other hother => ?_⟩
    obtain ⟨b, hb, hvalue⟩ := exists_ok_of_mapM h hother
    obtain ⟨hvalue, rfl⟩ := amplified_eq_ok.1 hvalue
    exact ⟨b.signal, hvalue, List.le_of_mem_argmax hb hmax, signal_lt_of_argmax hall hmax hb⟩

/-- **The search finds the first of the best arrangements, or the first failure.**  With fewer than
five phase settings there is nothing to try, whatever a row would do. -/
theorem best_of_arrangements (first stop : ℤ) (row : List ℤ → Except Failure ℤ) :
    (stop - first < 5 →
      best first stop row = .error (.fault (.unsolvable (.tooFewPhases first stop)))) ∧
    (5 ≤ stop - first →
      (∃ phases why, Arranges first stop phases ∧ row phases = .error why ∧
        (∀ earlier, Arranges first stop earlier → earlier < phases →
          ∃ signal, row earlier = .ok signal) ∧
        best first stop row = .error why) ∨
      ∃ phases signal, Arranges first stop phases ∧ row phases = .ok signal ∧
        (∀ other, Arranges first stop other →
          ∃ value, row other = .ok value ∧ value ≤ signal ∧ (other < phases → value < signal)) ∧
        best first stop row = .ok ⟨signal, phases⟩) := by
  simp only [← mem_arrangements_settings_iff]
  rw [best_eq]
  constructor
  · intro hfew
    rw [arrangements_settings_eq_nil hfew]
    rfl
  · intro henough
    have horder := pairwise_arrangements_settings first stop
    cases hmap : (arrangements rowSize (settings first stop)).mapM (amplified row) with
    | error why =>
      obtain ⟨phases, hphases, hrow, hearlier⟩ := exists_of_mapM_eq_error horder hmap
      exact .inl ⟨phases, why, hphases, hrow, hearlier, rfl⟩
    | ok all =>
      obtain ⟨a, hmax, hphases, hrow, hothers⟩ :=
        exists_argmax_of_mapM horder (arrangements_settings_ne_nil henough) hmap
      refine .inr ⟨a.phases, a.signal, hphases, hrow, hothers, ?_⟩
      simp only [bind, Except.bind, hmax]

/-- A row that squares its first phase setting, which is best at minus two and at two: the greatest
signal is found with the first arrangement of all. -/
theorem best_of_arrangements_tie :
    best (-2) 3 (fun phases => .ok (phases.headD 0 * phases.headD 0)) =
        .ok ⟨4, [-2, -1, 0, 1, 2]⟩ ∧
      ∀ phases, Arranges (-2) 3 phases → phases.headD 0 * phases.headD 0 ≤ 4 := by
  have hbest : best (-2) 3 (fun phases => .ok (phases.headD 0 * phases.headD 0)) =
      .ok ⟨4, [-2, -1, 0, 1, 2]⟩ := by decide +kernel
  refine ⟨hbest, fun phases hphases => ?_⟩
  rcases (best_of_arrangements (-2) 3 fun phases => .ok (phases.headD 0 * phases.headD 0)).2
    (by decide) with ⟨_, _, -, hfails, -⟩ | ⟨_, _, -, -, hall, hfound⟩
  · cases hfails
  · obtain ⟨_, hvalue, hle, -⟩ := hall phases hphases
    cases hvalue
    cases hbest.symm.trans hfound
    exact hle

end Shipboard.Amplifier
