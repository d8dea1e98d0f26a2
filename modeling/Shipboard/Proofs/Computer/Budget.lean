import Mathlib.Tactic
import Shipboard.GravityAssist
import Shipboard.Proofs.Outcome

/-!
# Budgets that suffice

A computation that starts computers takes a budget of instructions.  Either it spends the budget
and tells nothing, or it comes to an end, and then every larger budget gives the same.

* `Suffices budget f`: the budget is enough for the computation `f`;
* `Suffices.bind`: what is done with the result afterwards takes no instructions;
* `Suffices.exists_forall`: finitely many computations have a budget in common;
* `Computer.suffices_finish`: to run a computer until it halts, a budget within which it comes to
  rest is enough;
* `GravityAssist.suffices_runWith`: a budget with which a gravity assist program comes to an end is
  enough for it.
-/

namespace Shipboard

variable {α β : Type} {budget first second larger : ℕ} {f : ℕ → Except Failure α}

/-- With this budget a computation comes to an end, and larger ones make no difference. -/
def Suffices (budget : ℕ) (f : ℕ → Except Failure α) : Prop :=
  f budget ≠ .error .unfinished ∧ ∀ larger, budget ≤ larger → f larger = f budget

namespace Suffices

theorem mono (h : Suffices budget f) (hle : budget ≤ larger) : Suffices larger f := by
  obtain ⟨hends, hsame⟩ := h
  have hlarger : f larger = f budget := hsame larger hle
  refine ⟨by rwa [hlarger], fun more hmore => ?_⟩
  rw [hsame more (hle.trans hmore), hlarger]

/-- Of two budgets that suffice, neither makes a difference. -/
theorem unique (h : Suffices first f) (h' : Suffices second f) : f first = f second := by
  rcases le_total first second with hle | hle
  · exact (h.2 second hle).symm
  · exact h'.2 first hle

/-- No instruction is needed where none is executed. -/
theorem const {x : Except Failure α} (hx : x ≠ .error .unfinished) :
    Suffices budget fun _ => x :=
  ⟨hx, fun _ _ => rfl⟩

theorem bind {g : α → Except Failure β} (h : Suffices budget f)
    (hg : ∀ a, g a ≠ .error .unfinished) : Suffices budget fun n => f n >>= g := by
  obtain ⟨hends, hsame⟩ := h
  constructor
  · intro hbind
    rcases bind_eq_error.1 hbind with herror | ⟨a, -, herror⟩
    · exact hends herror
    · exact hg a herror
  · intro larger hle
    show f larger >>= g = f budget >>= g
    rw [hsame larger hle]

/-- There is a budget for all of finitely many computations together. -/
theorem exists_forall {xs : List α} {f : α → ℕ → Except Failure β}
    (h : ∀ x ∈ xs, ∃ budget, Suffices budget (f x)) :
    ∃ enough, ∀ x ∈ xs, Suffices enough (f x) := by
  induction xs with
  | nil => exact ⟨0, by simp⟩
  | cons x xs ih =>
    obtain ⟨first, hfirst⟩ := h x (by simp)
    obtain ⟨second, hsecond⟩ := ih fun y hy => h y (by simp [hy])
    refine ⟨max first second, fun y hy => ?_⟩
    rcases List.mem_cons.1 hy with rfl | hy
    · exact hfirst.mono (le_max_left _ _)
    · exact (hsecond y hy).mono (le_max_right _ _)

end Suffices

/-! ### Running a computer until it halts -/

namespace Computer

variable {c : Computer} {rest : Rest}

theorem suffices_finish (h : run budget c = some rest) : Suffices budget fun n => c.finish n := by
  constructor
  · show c.finish budget ≠ _
    rw [finish, runToHalt, h, Option.map_some]
    obtain ⟨ending, left⟩ := rest.untilHalt
    cases ending <;> nofun
  · intro larger hle
    obtain ⟨extra, rfl⟩ := Nat.exists_eq_add_of_le hle
    show c.finish (budget + extra) = c.finish budget
    unfold finish runToHalt
    rw [run_add h extra, h]

theorem exists_run_of_finish (h : c.finish budget ≠ .error .unfinished) :
    ∃ rest, run budget c = some rest := by
  cases hrun : run budget c with
  | some rest => exact ⟨rest, rfl⟩
  | none =>
    refine absurd ?_ h
    rw [finish, runToHalt, hrun]
    rfl

end Computer

/-! ### The gravity assist program -/

namespace GravityAssist

variable {program : List ℤ} {noun verb : ℤ}

theorem suffices_execute {rest : Computer.Rest}
    (h : (Computer.load program).run budget = some rest) :
    Suffices budget fun n => execute n program :=
  (Computer.suffices_finish h).bind fun _ => nofun

/-- A program that is too short is not run; another one is run with the noun and the verb in it. -/
theorem suffices_runWith_of_execute
    (h : 3 ≤ program.length →
      Suffices budget fun n => execute n ((program.set 1 noun).set 2 verb)) :
    Suffices budget fun n => runWith n program noun verb := by
  unfold runWith
  by_cases hlength : program.length < 3
  · simp only [hlength, if_true]
    apply Suffices.const
    nofun
  · simp only [hlength, if_false]
    apply (h (not_lt.1 hlength)).bind
    intro memory
    split <;> nofun

theorem suffices_runWith (h : runWith budget program noun verb ≠ .error .unfinished) :
    Suffices budget fun n => runWith n program noun verb := by
  apply suffices_runWith_of_execute
  intro hlength
  have hfinish : (Computer.load ((program.set 1 noun).set 2 verb)).finish budget ≠
      .error .unfinished := by
    intro hunfinished
    apply h
    rw [runWith, if_neg (not_lt.2 hlength), execute, hunfinished]
    rfl
  obtain ⟨rest, hrun⟩ := Computer.exists_run_of_finish hfinish
  exact suffices_execute hrun

end GravityAssist

end Shipboard
