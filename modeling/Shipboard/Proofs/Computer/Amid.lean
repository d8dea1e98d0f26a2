import Shipboard.Proofs.Computer.Course

/-!
# A computer amid outputs taken and inputs to come

`c.amid taken coming` is the computer `c` with the outputs `taken` in front of its own and the
inputs `coming` behind its own.  Neither matters to an instruction before it reads an input that
`c` does not have.

* `step_amid`: a step that does not starve is the same step amid anything;
* `after_amid`: and so is a course;
* `run_amid`: a run amid anything first comes to where the run without it ends, and goes on from
  there;
* `AtHalt.run_feedAll`: a computer that has halted stays so.
-/

namespace Shipboard.Computer

variable {c d : Computer} {taken coming : List ℤ}

/-- The computer with more outputs in front of its own and more inputs behind its own. -/
def amid (c : Computer) (taken coming : List ℤ) : Computer :=
  { c with inputs := c.inputs ++ coming, outputs := taken.toArray ++ c.outputs }

@[simp] theorem amid_memory : (c.amid taken coming).memory = c.memory := rfl
@[simp] theorem amid_position : (c.amid taken coming).position = c.position := rfl
@[simp] theorem amid_base : (c.amid taken coming).base = c.base := rfl
@[simp] theorem amid_inputs : (c.amid taken coming).inputs = c.inputs ++ coming := rfl

@[simp] theorem amid_outputs :
    (c.amid taken coming).outputs.toList = taken ++ c.outputs.toList := by
  simp [amid]

@[simp] theorem amid_nil_nil : c.amid [] [] = c := by
  simp [amid]

theorem feedAll_eq_amid (values : List ℤ) : c.feedAll values = c.amid [] values := by
  simp [amid, feedAll]

theorem feedAll_append (first second : List ℤ) :
    c.feedAll (first ++ second) = (c.feedAll first).feedAll second := by
  simp [feedAll]

/-- Outputs that have been taken are those in front. -/
theorem takeOutputs_amid : c.takeOutputs.amid (taken ++ c.outputs.toList) coming =
    c.amid taken coming := by
  simp [amid, takeOutputs]

/-! ### One step -/

theorem operand_amid (mode : Mode) (n : ℕ) :
    (c.amid taken coming).operand mode n = c.operand mode n := by
  cases mode <;> rfl

theorem target_amid (mode : Mode) (n : ℕ) :
    (c.amid taken coming).target mode n = c.target mode n := by
  cases mode <;> rfl

theorem checked_amid (v : ℤ) : (c.amid taken coming).checked v = c.checked v := rfl

theorem store_amid (k : ℕ) (v : ℤ) :
    (c.amid taken coming).store k v = (c.store k v).amid taken coming := by
  by_cases hk : k < c.memory.size
  · rw [store, dif_pos (show k < (c.amid taken coming).memory.size from hk), store, dif_pos hk]
    rfl
  · rw [store, dif_neg (show ¬ k < (c.amid taken coming).memory.size from hk), store, dif_neg hk]
    rfl

theorem effect_amid {i : Instruction} (h : i.operation = .input → c.inputs ≠ []) :
    (c.amid taken coming).effect i = c.effect i := by
  unfold effect
  cases hop : i.operation with
  | input =>
    obtain ⟨value, others, hinputs⟩ := List.exists_cons_of_ne_nil (h hop)
    simp only [target_amid, amid_inputs, hinputs, List.cons_append]
  | _ => simp only [operand_amid, target_amid, checked_amid, amid_base]

/-- What a step leaves, amid outputs taken and inputs to come. -/
def Step.amid (taken coming : List ℤ) : Step → Step
  | .runs c => .runs (c.amid taken coming)
  | .rests ⟨ending, c⟩ => .rests ⟨ending, c.amid taken coming⟩

theorem perform_amid {e : Effect} {arity : ℕ} (h : ∀ k v, e = .receive k v → c.inputs ≠ []) :
    (c.amid taken coming).perform arity e = (c.perform arity e).amid taken coming := by
  cases e with
  | store k v =>
    simp only [perform, Step.amid, store_amid]
    rfl
  | receive k v =>
    obtain ⟨value, others, hinputs⟩ := List.exists_cons_of_ne_nil (h k v rfl)
    have htail : { c.amid taken coming with inputs := (c.amid taken coming).inputs.tail } =
        { c with inputs := c.inputs.tail }.amid taken coming := by
      simp [amid, hinputs]
    simp only [perform, Step.amid, htail, store_amid]
    rfl
  | emit v => simp [perform, Step.amid, amid, advance]
  | halt | wait | rebase | jump | pass => rfl

theorem abandon_amid {operation : Operation} (h : operation = .input → c.inputs ≠ []) :
    (c.amid taken coming).abandon operation = (c.abandon operation).amid taken coming := by
  unfold abandon
  split_ifs with hop
  · obtain ⟨value, others, hinputs⟩ := List.exists_cons_of_ne_nil (h hop)
    simp [amid, hinputs]
  · rfl

/-- **A step that does not starve is the same step amid anything.** -/
theorem step_amid (h : ¬ c.Starved) :
    (c.amid taken coming).step = c.step.amid taken coming := by
  unfold step
  rw [show (c.amid taken coming).fetch = c.fetch from rfl]
  cases hfetch : c.fetch with
  | error fault => rfl
  | ok i =>
    -- an input instruction reads an input of `c`, in front of those to come
    have hinputs : i.operation = .input → c.inputs ≠ [] := fun hop hnil =>
      h ⟨⟨i, hfetch, hop⟩, hnil⟩
    simp only [effect_amid hinputs]
    cases heffect : c.effect i with
    | error fault => simp only [Step.amid, abandon_amid hinputs]
    | ok e =>
      refine perform_amid fun k v he => hinputs ?_
      subst he
      rw [effect_eq_ok_iff, Means] at heffect
      cases hop : i.operation <;> simp [hop, Combines, Branches] at heffect
      rfl

/-! ### Courses and runs -/

theorem not_starved_of_runs (h : c.step = .runs d) : ¬ c.Starved := by
  intro hstarved
  rw [step_eq_needsInput_iff.2 ⟨hstarved, rfl⟩] at h
  cases h

theorem not_starved_of_rests {ending : Ending} (h : c.step = .rests ⟨ending, d⟩)
    (hending : ending ≠ .needsInput) : ¬ c.Starved := by
  intro hstarved
  rw [step_eq_needsInput_iff.2 ⟨hstarved, rfl⟩] at h
  cases h
  exact hending rfl

theorem step_amid_of_runs (h : c.step = .runs d) :
    (c.amid taken coming).step = .runs (d.amid taken coming) := by
  rw [step_amid (not_starved_of_runs h), h]
  rfl

theorem step_amid_of_rests {ending : Ending} (h : c.step = .rests ⟨ending, d⟩)
    (hending : ending ≠ .needsInput) :
    (c.amid taken coming).step = .rests ⟨ending, d.amid taken coming⟩ := by
  rw [step_amid (not_starved_of_rests h hending), h]
  rfl

theorem step_feedAll_of_rests {ending : Ending} (h : c.step = .rests ⟨ending, d⟩)
    (hending : ending ≠ .needsInput) (values : List ℤ) :
    (c.feedAll values).step = .rests ⟨ending, d.feedAll values⟩ := by
  rw [feedAll_eq_amid, feedAll_eq_amid]
  exact step_amid_of_rests h hending

/-- With nothing to come, a computer rests as it does on its own. -/
theorem step_amid_nil {ending : Ending} (h : c.step = .rests ⟨ending, c⟩) :
    (c.amid taken []).step = .rests ⟨ending, c.amid taken []⟩ := by
  by_cases hending : ending = .needsInput
  · subst hending
    obtain ⟨⟨hat, hinputs⟩, -⟩ := step_eq_needsInput_iff.1 h
    refine step_eq_needsInput_iff.2 ⟨⟨hat, ?_⟩, rfl⟩
    rw [amid_inputs, hinputs, List.nil_append]
  · exact step_amid_of_rests h hending

theorem after_amid {n : ℕ} (h : after n c = some d) :
    after n (c.amid taken coming) = some (d.amid taken coming) := by
  induction n generalizing c with
  | zero => cases h; rfl
  | succ n ih =>
    cases hs : c.step with
    | runs next =>
      rw [after_succ_of_runs hs] at h
      rw [after_succ_of_runs (step_amid_of_runs hs)]
      exact ih h
    | rests rest => rw [after_succ_of_rests hs] at h; cases h

theorem after_feedAll {n : ℕ} (h : after n c = some d) (values : List ℤ) :
    after n (c.feedAll values) = some (d.feedAll values) := by
  rw [feedAll_eq_amid, feedAll_eq_amid]
  exact after_amid h

/-- **A run amid outputs taken and inputs to come.**  Unless it wants an input or fails, it goes on
from what is left without them to the same end. -/
theorem run_amid {budget : ℕ} {rest : Rest} (h : run budget (c.amid taken coming) = some rest) :
    ∃ ending left, run budget c = some ⟨ending, left⟩ ∧
      (ending ≠ .needsInput → rest = ⟨ending, left.amid taken coming⟩) ∧
      ((∀ fault, ending ≠ .failed fault) → run budget (left.amid taken coming) = some rest) := by
  induction budget generalizing c with
  | zero => cases h
  | succ budget ih =>
    cases hs : c.step with
    | runs next =>
      rw [run_succ, step_amid_of_runs hs] at h
      obtain ⟨ending, left, hrun, hends, hgoes⟩ := ih h
      refine ⟨ending, left, by rw [run_succ, hs]; exact hrun, hends, fun hending => ?_⟩
      exact run_add (hgoes hending) 1
    | rests r =>
      -- the run amid them goes on only if it was an input that was missing
      obtain ⟨ending, left⟩ := r
      refine ⟨ending, left, by rw [run_succ, hs], fun hending => ?_, fun hending => ?_⟩
      · rw [run_succ, step_amid_of_rests hs hending] at h
        exact (Option.some.inj h).symm
      · rw [eq_of_step_rests hs hending]
        exact h

/-- A run that waits for an input ends at an input instruction, and there is none left. -/
theorem starved_of_run {budget : ℕ} (h : run budget c = some ⟨.needsInput, d⟩) : d.Starved := by
  obtain ⟨n, -, e, -, hrest⟩ := run_eq_some_iff.1 h
  obtain ⟨hstarved, rfl⟩ := step_eq_needsInput_iff.1 hrest
  exact hstarved

/-- A run that halts ends at a halt instruction. -/
theorem atHalt_of_run {budget : ℕ} (h : run budget c = some ⟨.halted, d⟩) : d.AtHalt := by
  obtain ⟨n, -, e, -, hrest⟩ := run_eq_some_iff.1 h
  obtain ⟨hhalt, rfl⟩ := step_eq_halted_iff.1 hrest
  exact hhalt

/-- A computer that has halted stays so, whatever it is fed. -/
theorem AtHalt.run_feedAll (h : c.AtHalt) (values : List ℤ) (extra : ℕ) :
    run (extra + 1) (c.feedAll values) = some ⟨.halted, c.feedAll values⟩ := by
  have hfed : (c.feedAll values).AtHalt := h
  exact run_of_rests (step_eq_halted_iff.2 ⟨hfed, rfl⟩) extra

end Shipboard.Computer
