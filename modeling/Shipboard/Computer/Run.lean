import Shipboard.Computer.Step

/-!
# Running a computer

A computer is run until it rests. A program may never rest, so a run is given a budget of
instructions; `run budget c` is `none` if the budget is spent before the computer rests. A larger
budget never changes an answer (`run_add`).

* `run` goes on until the computer halts, waits for an input or is at fault;
* `runToHalt` takes the want of an input for a fault;
* `trail` lists the instructions that a run comes to, each with its position.
-/

namespace Shipboard.Computer

/-- Run a computer until it rests, with a budget of instructions. -/
def run : Nat → Computer → Option Rest
  | 0, _ => none
  | budget + 1, c =>
    match c.step with
    | .runs next => run budget next
    | .rests rest => some rest

@[simp] theorem run_zero (c : Computer) : run 0 c = none := rfl

theorem run_succ (budget : Nat) (c : Computer) :
    run (budget + 1) c =
      match c.step with
      | .runs next => run budget next
      | .rests rest => some rest := rfl

/-- A larger budget gives the same answer. -/
theorem run_add {budget : Nat} {c : Computer} {rest : Rest} (h : run budget c = some rest)
    (extra : Nat) : run (budget + extra) c = some rest := by
  induction budget generalizing c with
  | zero => simp at h
  | succ budget ih =>
    rw [Nat.add_right_comm, run_succ]
    rw [run_succ] at h
    split at h
    · exact ih h
    · exact h

/-- Of two budgets that suffice, neither makes a difference. -/
theorem run_unique {first second : Nat} {c : Computer} {r s : Rest} (hr : run first c = some r)
    (hs : run second c = some s) : r = s := by
  have h := run_add hr second
  rw [Nat.add_comm, run_add hs first] at h
  exact (Option.some.inj h).symm

/-- A rest where the want of an input counts as a fault. -/
def Rest.untilHalt (rest : Rest) : Rest :=
  match rest.ending with
  | .needsInput => { rest with ending := .failed (.missingInput rest.computer.position) }
  | .halted | .failed _ => rest

/-- Run a computer until it halts, with a budget of instructions. -/
def runToHalt (budget : Nat) (c : Computer) : Option Rest :=
  (run budget c).map Rest.untilHalt

/-- The instructions that a run comes to, the last of which it may not complete, each with its
position. A word that is no instruction is not listed. -/
def trail : Nat → Computer → List (Nat × Instruction)
  | 0, _ => []
  | budget + 1, c =>
    match c.fetch with
    | .error _ => []
    | .ok i =>
      (c.position, i) ::
        match c.step with
        | .runs next => trail budget next
        | .rests _ => []

end Shipboard.Computer
