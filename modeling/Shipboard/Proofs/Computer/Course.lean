import Mathlib.Tactic
import Shipboard.Computer.Run
import Shipboard.Proofs.Computer.Step

/-!
# The course of a run

`after n c` is the computer after `n` completed instructions, if it completes that many.  A run is
such a course up to the computer that rests (`run_eq_some_iff`), so that statements about runs come
down to statements about one step.

* `after_add` cuts a course in two, `after_sub` takes its first part away;
* `le_of_rests`: nothing comes after a computer that rests;
* `outputs_prefix`: what has been put out stays, in its place.
-/

namespace Shipboard.Computer

/-- The computer after `n` completed instructions. -/
def after : ℕ → Computer → Option Computer
  | 0, c => some c
  | n + 1, c =>
    match c.step with
    | .runs next => after n next
    | .rests _ => none

@[simp] theorem after_zero (c : Computer) : after 0 c = some c := rfl

theorem after_succ_of_runs {c next : Computer} (h : c.step = .runs next) (n : ℕ) :
    after (n + 1) c = after n next := by
  rw [after, h]

theorem after_succ_of_rests {c : Computer} {rest : Rest} (h : c.step = .rests rest) (n : ℕ) :
    after (n + 1) c = none := by
  rw [after, h]

theorem after_add (m n : ℕ) (c : Computer) : after (m + n) c = (after m c).bind (after n) := by
  induction m generalizing c with
  | zero => simp
  | succ m ih =>
    rw [Nat.add_right_comm]
    cases h : c.step with
    | runs next => rw [after_succ_of_runs h, after_succ_of_runs h, ih]
    | rests rest => rw [after_succ_of_rests h, after_succ_of_rests h]; rfl

theorem after_trans {c d e : Computer} {m n : ℕ} (hd : after m c = some d)
    (he : after n d = some e) : after (m + n) c = some e := by
  rw [after_add, hd, Option.bind_some, he]

theorem after_succ {c d e : Computer} {n : ℕ} (hd : after n c = some d) (he : d.step = .runs e) :
    after (n + 1) c = some e :=
  after_trans hd (by rw [after_succ_of_runs he, after_zero])

/-- What is left of a course once its first part is taken away. -/
theorem after_sub {c d e : Computer} {m n : ℕ} (hd : after m c = some d) (he : after n c = some e)
    (hle : m ≤ n) : after (n - m) d = some e := by
  obtain ⟨k, rfl⟩ := Nat.exists_eq_add_of_le hle
  rw [after_add, hd, Option.bind_some] at he
  rwa [Nat.add_sub_cancel_left]

/-- Nothing comes after a computer that rests. -/
theorem le_of_rests {c d e : Computer} {rest : Rest} {m n : ℕ} (hd : after m c = some d)
    (he : after n c = some e) (hrest : e.step = .rests rest) : m ≤ n := by
  by_contra hlt
  obtain ⟨k, hk⟩ := Nat.exists_eq_add_of_lt (Nat.lt_of_not_le hlt)
  rw [hk, Nat.add_assoc, after_add, he, Option.bind_some, after_succ_of_rests hrest] at hd
  cases hd

/-- A computer comes to rest once at most. -/
theorem eq_of_rests {c d e : Computer} {r s : Rest} {m n : ℕ} (hd : after m c = some d)
    (hr : d.step = .rests r) (he : after n c = some e) (hs : e.step = .rests s) :
    m = n ∧ d = e := by
  obtain rfl : m = n := Nat.le_antisymm (le_of_rests hd he hs) (le_of_rests he hd hr)
  exact ⟨rfl, Option.some.inj (hd.symm.trans he)⟩

/-! ### Runs as courses -/

/-- A run that ends is a course up to a computer that rests. -/
theorem run_eq_some_iff {budget : ℕ} {c : Computer} {rest : Rest} :
    run budget c = some rest ↔ ∃ n < budget, ∃ d, after n c = some d ∧ d.step = .rests rest := by
  induction budget generalizing c with
  | zero => simp
  | succ budget ih =>
    cases h : c.step with
    | runs next =>
      rw [run_succ, h]
      refine ih.trans ⟨?_, ?_⟩
      · rintro ⟨n, hn, d, hd, hrest⟩
        exact ⟨n + 1, by omega, d, by rw [after_succ_of_runs h, hd], hrest⟩
      · rintro ⟨n, hn, d, hd, hrest⟩
        cases n with
        | zero => cases hd; rw [h] at hrest; cases hrest
        | succ n => exact ⟨n, by omega, d, by rwa [after_succ_of_runs h] at hd, hrest⟩
    | rests r =>
      rw [run_succ, h]
      constructor
      · intro hr
        cases hr
        exact ⟨0, by omega, c, rfl, h⟩
      · rintro ⟨n, hn, d, hd, hrest⟩
        cases n with
        | zero => cases hd; rw [h] at hrest; cases hrest; rfl
        | succ n => rw [after_succ_of_rests h] at hd; cases hd

theorem run_of_rests {c : Computer} {rest : Rest} (h : c.step = .rests rest) (extra : ℕ) :
    run (extra + 1) c = some rest :=
  run_eq_some_iff.2 ⟨0, by omega, c, rfl, h⟩

/-- What has been put out stays, in its place. -/
theorem outputs_prefix {c d : Computer} {n : ℕ} (h : after n c = some d) :
    c.outputs.toList <+: d.outputs.toList := by
  induction n generalizing c with
  | zero => cases h; exact List.prefix_rfl
  | succ n ih =>
    cases hs : c.step with
    | runs next =>
      rw [after_succ_of_runs hs] at h
      exact (outputs_prefix_of_step hs).trans (ih h)
    | rests rest => rw [after_succ_of_rests hs] at h; cases h

end Shipboard.Computer
