import Mathlib.Tactic
import Shipboard.Computer.Step
import Shipboard.Proofs.Outcome

/-!
# What one instruction does

A step is the next instruction, fetched, worked out and carried out.  Here it is opened once, so
that no later proof has to unfold it.

* `Means c i e` lists, operation by operation, the values that an instruction reads and the effect
  `e` that it has; `effect_eq_ok_iff` says that `effect` works out exactly this;
* `step_eq_runs_iff` says what one completed instruction is, and `step_eq_rests_iff` when a
  computer rests;
* `AtInput` computers stand at an input instruction, `Starved` ones without an input, `AtHalt` ones
  at a halt instruction.
-/

namespace Shipboard.Computer

theorem checked_eq_ok_iff {c : Computer} {v w : ℤ} :
    c.checked v = .ok w ↔ fits v = true ∧ w = v := by
  unfold checked
  split_ifs with h <;> simp [h, eq_comm]

/-! ### Storing -/

@[simp] theorem store_position (c : Computer) (k : ℕ) (v : ℤ) :
    (c.store k v).position = c.position := by
  unfold store; split <;> rfl

@[simp] theorem store_base (c : Computer) (k : ℕ) (v : ℤ) : (c.store k v).base = c.base := by
  unfold store; split <;> rfl

@[simp] theorem store_inputs (c : Computer) (k : ℕ) (v : ℤ) :
    (c.store k v).inputs = c.inputs := by
  unfold store; split <;> rfl

@[simp] theorem store_outputs (c : Computer) (k : ℕ) (v : ℤ) :
    (c.store k v).outputs = c.outputs := by
  unfold store; split <;> rfl

/-! ### Effects -/

/-- An instruction reads `left` and `right` as its first two parameters and puts `result` into the
cell that its third parameter denotes. -/
def Combines (c : Computer) (i : Instruction) (left right result : ℤ) (effect : Effect) : Prop :=
  c.operand i.first 0 = .ok left ∧ c.operand i.second 1 = .ok right ∧
    ∃ index, c.target i.third 2 = .ok index ∧ effect = .store index result

/-- An instruction reads `test` and `goal` as its parameters and jumps if `taken` holds. -/
def Branches (c : Computer) (i : Instruction) (test goal : ℤ) (taken : Prop) (effect : Effect) :
    Prop :=
  c.operand i.first 0 = .ok test ∧ c.operand i.second 1 = .ok goal ∧
    ((taken ∧ ∃ place, cell goal = .ok place ∧ effect = .jump place) ∨
      (¬ taken ∧ effect = .pass))

/-- What an instruction reads and what its effect is. -/
def Means (c : Computer) (i : Instruction) (effect : Effect) : Prop :=
  match i.operation with
  | .halt => effect = .halt
  | .add => ∃ l r, c.Combines i l r (l + r) effect ∧ fits (l + r) = true
  | .multiply => ∃ l r, c.Combines i l r (l * r) effect ∧ fits (l * r) = true
  | .lessThan => ∃ l r, c.Combines i l r (if l < r then 1 else 0) effect
  | .equals => ∃ l r, c.Combines i l r (if l = r then 1 else 0) effect
  | .input =>
    (c.inputs = [] ∧ effect = .wait) ∨
      ∃ value others index, c.inputs = value :: others ∧ c.target i.first 0 = .ok index ∧
        effect = .receive index value
  | .output => ∃ value, c.operand i.first 0 = .ok value ∧ effect = .emit value
  | .jumpIfTrue => ∃ test goal, c.Branches i test goal (test ≠ 0) effect
  | .jumpIfFalse => ∃ test goal, c.Branches i test goal (test = 0) effect
  | .adjustBase => ∃ offset, c.operand i.first 0 = .ok offset ∧ fits (c.base + offset) = true ∧
      effect = .rebase (c.base + offset)

theorem branch_eq_ok_iff {taken : Prop} [Decidable taken] {goal : ℤ} {e : Effect} :
    (if taken then (do return .jump (← cell goal)) else return .pass : Except Fault Effect)
        = .ok e ↔
      (taken ∧ ∃ place, cell goal = .ok place ∧ e = .jump place) ∨ (¬ taken ∧ e = .pass) := by
  split_ifs with h <;> simp [h, bind_eq_ok, pure, Except.pure, @eq_comm Effect]

theorem effect_eq_ok_iff {c : Computer} {i : Instruction} {e : Effect} :
    c.effect i = .ok e ↔ c.Means i e := by
  unfold effect Means
  cases i.operation with
  | halt => simp [eq_comm]
  | add | multiply =>
    simp only [bind_eq_ok, checked_eq_ok_iff, Combines, pure, Except.pure, Except.ok.injEq]
    constructor
    · rintro ⟨l, hl, r, hr, _, ⟨hfits, rfl⟩, index, hindex, rfl⟩
      exact ⟨l, r, ⟨hl, hr, index, hindex, rfl⟩, hfits⟩
    · rintro ⟨l, r, ⟨hl, hr, index, hindex, rfl⟩, hfits⟩
      exact ⟨l, hl, r, hr, _, ⟨hfits, rfl⟩, index, hindex, rfl⟩
  | lessThan | equals =>
    simp only [bind_eq_ok, Combines, pure, Except.pure, Except.ok.injEq]
    constructor
    · rintro ⟨l, hl, r, hr, index, hindex, rfl⟩
      exact ⟨l, r, hl, hr, index, hindex, rfl⟩
    · rintro ⟨l, r, hl, hr, index, hindex, rfl⟩
      exact ⟨l, hl, r, hr, index, hindex, rfl⟩
  | input =>
    cases c.inputs with
    | nil => simp [@eq_comm Effect]
    | cons value others =>
      simp [bind_eq_ok, pure, Except.pure, @eq_comm Effect]
  | output => simp [bind_eq_ok, pure, Except.pure, @eq_comm Effect]
  | jumpIfTrue | jumpIfFalse =>
    simp only [bind_eq_ok, branch_eq_ok_iff, Branches]
    constructor
    · rintro ⟨test, htest, goal, hgoal, h⟩
      exact ⟨test, goal, htest, hgoal, h⟩
    · rintro ⟨test, goal, htest, hgoal, h⟩
      exact ⟨test, htest, goal, hgoal, h⟩
  | adjustBase =>
    simp only [bind_eq_ok, checked_eq_ok_iff, pure, Except.pure, Except.ok.injEq]
    constructor
    · rintro ⟨offset, hoffset, _, ⟨hfits, rfl⟩, rfl⟩
      exact ⟨offset, hoffset, hfits, rfl⟩
    · rintro ⟨offset, hoffset, hfits, rfl⟩
      exact ⟨offset, hoffset, _, ⟨hfits, rfl⟩, rfl⟩

/-! ### Steps -/

/-- A completed instruction is fetched, worked out and carried out. -/
theorem step_eq_runs_iff {c next : Computer} :
    c.step = .runs next ↔
      ∃ i e, c.fetch = .ok i ∧ c.effect i = .ok e ∧
        c.perform i.operation.arity e = .runs next := by
  unfold step
  cases hf : c.fetch with
  | error fault => simp
  | ok i => cases he : c.effect i <;> simp [he]

/-- A computer that is at an input instruction. -/
def AtInput (c : Computer) : Prop :=
  ∃ i, c.fetch = .ok i ∧ i.operation = .input

/-- A computer that is at a halt instruction. -/
def AtHalt (c : Computer) : Prop :=
  ∃ i, c.fetch = .ok i ∧ i.operation = .halt

/-- A computer that is at an input instruction and has no input. -/
def Starved (c : Computer) : Prop :=
  c.AtInput ∧ c.inputs = []

/-- A computer whose next instruction is at fault, with the computer that is left. -/
def Fails (c : Computer) (fault : Fault) (left : Computer) : Prop :=
  (c.fetch = .error fault ∧ left = c) ∨
    ∃ i, c.fetch = .ok i ∧ c.effect i = .error fault ∧ left = c.abandon i.operation

theorem effect_eq_halt_iff {c : Computer} {i : Instruction} :
    c.effect i = .ok .halt ↔ i.operation = .halt := by
  rw [effect_eq_ok_iff, Means]
  cases i.operation <;> simp [Combines, Branches]

theorem effect_eq_wait_iff {c : Computer} {i : Instruction} :
    c.effect i = .ok .wait ↔ i.operation = .input ∧ c.inputs = [] := by
  rw [effect_eq_ok_iff, Means]
  cases i.operation <;> simp [Combines, Branches]

theorem step_eq_failed_iff {c left : Computer} {fault : Fault} :
    c.step = .rests ⟨.failed fault, left⟩ ↔ c.Fails fault left := by
  unfold step Fails
  cases hf : c.fetch with
  | error why => simp [@eq_comm Computer]
  | ok i =>
    cases he : c.effect i with
    | error why => simp [he, @eq_comm Computer]
    | ok e => cases e <;> simp [he, perform]

theorem step_eq_halted_iff {c left : Computer} :
    c.step = .rests ⟨.halted, left⟩ ↔ c.AtHalt ∧ left = c := by
  have hhalt : c.AtHalt ↔ ∃ i, c.fetch = .ok i ∧ c.effect i = .ok .halt := by
    simp [AtHalt, effect_eq_halt_iff]
  rw [hhalt]
  unfold step
  cases hf : c.fetch with
  | error why => simp
  | ok i =>
    cases he : c.effect i with
    | error why => simp [he]
    | ok e => cases e <;> simp [he, perform, @eq_comm Computer]

theorem step_eq_needsInput_iff {c left : Computer} :
    c.step = .rests ⟨.needsInput, left⟩ ↔ c.Starved ∧ left = c := by
  have hwait : c.Starved ↔ ∃ i, c.fetch = .ok i ∧ c.effect i = .ok .wait := by
    simp [Starved, AtInput, effect_eq_wait_iff, ← and_assoc]
  rw [hwait]
  unfold step
  cases hf : c.fetch with
  | error why => simp
  | ok i =>
    cases he : c.effect i with
    | error why => simp [he]
    | ok e => cases e <;> simp [he, perform, @eq_comm Computer]

/-- A computer that has not failed stays where it rests. -/
theorem eq_of_step_rests {c d : Computer} {ending : Ending} (h : c.step = .rests ⟨ending, d⟩)
    (hending : ∀ fault, ending ≠ .failed fault) : d = c := by
  cases ending with
  | halted => exact (step_eq_halted_iff.1 h).2
  | needsInput => exact (step_eq_needsInput_iff.1 h).2
  | failed fault => exact (hending fault rfl).elim

/-- What has been put out stays, in its place. -/
theorem outputs_prefix_of_step {c next : Computer} (h : c.step = .runs next) :
    c.outputs.toList <+: next.outputs.toList := by
  obtain ⟨i, e, -, -, hp⟩ := step_eq_runs_iff.1 h
  cases e <;> simp only [perform, Step.runs.injEq, reduceCtorEq] at hp <;> subst hp <;>
    simp [advance]

end Shipboard.Computer
