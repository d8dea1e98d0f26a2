import Shipboard.Proofs.Computer.Course

/-!
# Computers that fail

An instruction that is at fault leaves the computer as it was; an input instruction with nowhere to
put its value has used the value up, and that is all.

* `Blames c x`: the faults of the reading `x` are those of an instruction at the position of `c`;
  this is closed under `bind`, and so it holds of all that an instruction reads (`effect_blames`);
* `Abandoned d fault left`: the computer `left` is what `fault` leaves of `d`;
* `abandoned_of_run`: a run that fails comes to a computer whose instruction is at fault, leaves it
  in this sense, and fails again in the same way when it is repeated.
-/

namespace Shipboard.Computer

/-! ### Faults and their position -/

/-- A fault that an instruction at the given position can have. -/
def Fault.Concerns (position : ℕ) : Fault → Prop
  | .unknownOperation _ place | .invalidMode _ place | .overflow place => place = position
  | .outOfBounds _ => True
  | .missingInput _ => False

theorem Fault.Concerns.ne_missingInput {fault : Fault} {position : ℕ}
    (h : fault.Concerns position) (place : ℕ) : fault ≠ .missingInput place := by
  rintro rfl
  exact h

theorem Fault.Concerns.eq_of_position? {fault : Fault} {position place : ℕ}
    (h : fault.Concerns position) (hplace : fault.position? = some place) : place = position := by
  cases fault with
  | outOfBounds => cases hplace
  | missingInput => exact h.elim
  | unknownOperation | invalidMode | overflow => cases hplace; exact h

/-- The faults of a reading are those of an instruction at the computer's position. -/
def Blames {α : Type} (c : Computer) (x : Except Fault α) : Prop :=
  ∀ fault, x = .error fault → fault.Concerns c.position

variable {α β : Type} {c : Computer}

theorem Blames.ok (a : α) : c.Blames (.ok a) := nofun

theorem Blames.bind {x : Except Fault α} {f : α → Except Fault β} (hx : c.Blames x)
    (hf : ∀ a, c.Blames (f a)) : c.Blames (x >>= f) := by
  intro fault h
  cases x with
  | error why => cases h; exact hx fault rfl
  | ok a => exact hf a fault h

theorem cell_blames (address : ℤ) : c.Blames (cell address) := by
  unfold cell
  split_ifs
  · exact .ok _
  · rintro _ ⟨⟩
    trivial

theorem read_blames (address : ℤ) : c.Blames (c.read address) := by
  intro fault h
  refine cell_blames (c := c) address fault ?_
  unfold read at h
  cases hcell : cell address with
  | error why => rw [hcell] at h; cases h; rfl
  | ok index => rw [hcell] at h; cases h

theorem checked_blames (v : ℤ) : c.Blames (c.checked v) := by
  unfold checked
  split_ifs
  · exact .ok _
  · rintro _ ⟨⟩
    rfl

theorem parameter_blames (n : ℕ) : c.Blames (c.parameter n) := read_blames _

theorem address_blames (mode : Mode) (n : ℕ) : c.Blames (c.address mode n) := by
  cases mode with
  | relative => exact (parameter_blames n).bind fun _ => checked_blames _
  | position | immediate => exact parameter_blames n

theorem operand_blames (mode : Mode) (n : ℕ) : c.Blames (c.operand mode n) := by
  cases mode with
  | immediate => exact parameter_blames n
  | position | relative => exact (address_blames _ n).bind fun _ => read_blames _

theorem target_blames (mode : Mode) (n : ℕ) : c.Blames (c.target mode n) :=
  (address_blames mode n).bind fun _ => cell_blames _

theorem effect_blames (i : Instruction) : c.Blames (c.effect i) := by
  have first := operand_blames (c := c) i.first 0
  have second := operand_blames (c := c) i.second 1
  have third := target_blames (c := c) i.third 2
  unfold effect
  cases i.operation with
  | halt => exact .ok _
  | add | multiply =>
    exact first.bind fun _ => second.bind fun _ => (checked_blames _).bind fun _ =>
      third.bind fun _ => .ok _
  | lessThan | equals =>
    exact first.bind fun _ => second.bind fun _ => third.bind fun _ => .ok _
  | input =>
    dsimp only
    split
    · exact .ok _
    · exact (target_blames i.first 0).bind fun _ => .ok _
  | output => exact first.bind fun _ => .ok _
  | jumpIfTrue | jumpIfFalse =>
    refine first.bind fun _ => second.bind fun goal => ?_
    split_ifs
    · exact (cell_blames goal).bind fun _ => .ok _
    · exact .ok _
  | adjustBase => exact first.bind fun _ => (checked_blames _).bind fun _ => .ok _

theorem fetch_blames : c.Blames c.fetch := by
  unfold fetch
  split
  · rintro _ ⟨⟩
    trivial
  · have digit (n : ℤ) : c.Blames (Mode.ofDigit n c.position) := by
      unfold Mode.ofDigit
      split
      · exact .ok _
      · rintro _ ⟨⟩
        rfl
    unfold Instruction.decode
    split
    · rintro _ ⟨⟩
      rfl
    · exact (digit _).bind fun _ => (digit _).bind fun _ => (digit _).bind fun _ => .ok _

/-! ### What a fault leaves -/

/-- The computer `left` is what `fault` leaves of `d`, whose instruction it is: nothing is changed,
except that an input instruction with nowhere to put its value has used the value up. -/
structure Abandoned (d : Computer) (fault : Fault) (left : Computer) : Prop where
  memory : left.memory = d.memory
  position : left.position = d.position
  base : left.base = d.base
  outputs : left.outputs = d.outputs
  inputs : ¬ d.AtInput → left.inputs = d.inputs
  used : d.AtInput → ∃ value, d.inputs = value :: left.inputs
  nowhere : d.AtInput → ∃ i, d.fetch = .ok i ∧ d.target i.first 0 = .error fault

variable {d left : Computer} {fault : Fault}

/-- An input instruction is at fault only if it has a value and nowhere to put it. -/
theorem effect_input_eq_error_iff {i : Instruction} (hop : i.operation = .input) :
    d.effect i = .error fault ↔
      d.target i.first 0 = .error fault ∧ ∃ value others, d.inputs = value :: others := by
  unfold effect
  rw [hop]
  cases hinputs : d.inputs with
  | nil => simp
  | cons value others =>
    cases htarget : d.target i.first 0 <;> simp [bind, Except.bind, pure, Except.pure]

theorem Fails.concerns (h : d.Fails fault left) : fault.Concerns d.position := by
  rcases h with ⟨hfetch, -⟩ | ⟨i, -, heffect, -⟩
  · exact fetch_blames fault hfetch
  · exact effect_blames i fault heffect

theorem Fails.abandoned (h : d.Fails fault left) : d.Abandoned fault left := by
  rcases h with ⟨hfetch, rfl⟩ | ⟨i, hfetch, heffect, rfl⟩
  · -- an instruction that cannot be fetched is not known to be an input instruction
    have hnot : ¬ left.AtInput := by
      rintro ⟨i, hi, -⟩
      rw [hfetch] at hi
      cases hi
    exact ⟨rfl, rfl, rfl, rfl, fun _ => rfl, fun hat => (hnot hat).elim, fun hat => (hnot hat).elim⟩
  · by_cases hop : i.operation = .input
    · obtain ⟨htarget, value, others, hinputs⟩ := (effect_input_eq_error_iff hop).1 heffect
      have hleft : d.abandon i.operation = { d with inputs := others } := by
        rw [abandon, if_pos hop, hinputs, List.tail_cons]
      rw [hleft]
      exact ⟨rfl, rfl, rfl, rfl, fun hnot => (hnot ⟨i, hfetch, hop⟩).elim,
        fun _ => ⟨value, hinputs⟩, fun _ => ⟨i, hfetch, htarget⟩⟩
    · have hnot : ¬ d.AtInput := by
        rintro ⟨j, hj, hinput⟩
        cases hfetch.symm.trans hj
        exact hop hinput
      rw [abandon, if_neg hop]
      exact ⟨rfl, rfl, rfl, rfl, fun _ => rfl, fun hat => (hnot hat).elim,
        fun hat => (hnot hat).elim⟩

/-- What is left of a computer that is not at an input instruction is that computer. -/
theorem Abandoned.eq (h : d.Abandoned fault left) (hnot : ¬ d.AtInput) : left = d := by
  cases d
  cases left
  cases h.memory
  cases h.position
  cases h.base
  cases h.outputs
  cases h.inputs hnot
  rfl

/-- A computer that only has other inputs than one at an input instruction with nowhere to put a
value goes on to fail as long as it has inputs. -/
theorem Abandoned.step_eq (h : d.Abandoned fault left) (hat : d.AtInput) :
    left.step =
      match left.inputs with
      | [] => .rests ⟨.needsInput, left⟩
      | _ :: others => .rests ⟨.failed fault, { left with inputs := others }⟩ := by
  obtain ⟨i, hfetch, htarget⟩ := h.nowhere hat
  have hop : i.operation = .input := by
    obtain ⟨j, hj, hop⟩ := hat
    cases hfetch.symm.trans hj
    exact hop
  -- fetching and finding a target look at the memory, the position and the base only
  have hleft : left = { d with inputs := left.inputs } := by
    cases left
    cases h.memory
    cases h.position
    cases h.base
    cases h.outputs
    rfl
  generalize left.inputs = inputs at hleft
  subst hleft
  have hfetch' : fetch { d with inputs } = .ok i := hfetch
  cases inputs with
  | nil => exact step_eq_needsInput_iff.2 ⟨⟨⟨i, hfetch', hop⟩, rfl⟩, rfl⟩
  | cons value others =>
    refine step_eq_failed_iff.2 (Or.inr ⟨i, hfetch', ?_, ?_⟩)
    · exact (effect_input_eq_error_iff hop).2 ⟨htarget, value, others, rfl⟩
    · rw [abandon, if_pos hop, List.tail_cons]

/-- **A failing instruction leaves the computer as it was**, less the value that an input
instruction has used up, so that the next run fails in the same way. -/
theorem abandoned_of_run (c : Computer) (budget : ℕ) :
    (∀ fault left, run budget c = some ⟨.failed fault, left⟩ →
      (∃ n < budget, ∃ d, after n c = some d ∧ d.step = .rests ⟨.failed fault, left⟩ ∧
        d.Abandoned fault left ∧
        (¬ d.AtInput → ∀ extra, run (extra + 1) left = some ⟨.failed fault, left⟩) ∧
        (d.AtInput → ∀ extra, run (extra + 1) left =
          match left.inputs with
          | [] => some ⟨.needsInput, left⟩
          | _ :: others => some ⟨.failed fault, { left with inputs := others }⟩)) ∧
      (∀ place, fault ≠ .missingInput place) ∧
      (∀ place, fault.position? = some place → place = left.position)) ∧
    runToHalt budget c =
      (run budget c).map fun rest =>
        match rest.ending with
        | .needsInput => ⟨.failed (.missingInput rest.computer.position), rest.computer⟩
        | .halted | .failed _ => rest := by
  refine ⟨fun fault left h => ?_, ?_⟩
  · obtain ⟨n, hn, d, hd, hstep⟩ := run_eq_some_iff.1 h
    have hfails := step_eq_failed_iff.1 hstep
    have habandoned := hfails.abandoned
    have hconcerns : fault.Concerns left.position := habandoned.position ▸ hfails.concerns
    refine ⟨⟨n, hn, d, hd, hstep, habandoned, ?_, ?_⟩, hconcerns.ne_missingInput,
      fun place => hconcerns.eq_of_position?⟩
    · intro hnot extra
      exact run_of_rests (habandoned.eq hnot ▸ hstep) extra
    · intro hat extra
      have hagain := habandoned.step_eq hat
      cases hinputs : left.inputs with
      | nil => rw [hinputs] at hagain; exact run_of_rests hagain extra
      | cons value others => rw [hinputs] at hagain; exact run_of_rests hagain extra
  · rfl

/-- After an output, an input with a bad address uses up the first of two values. -/
theorem abandoned_of_run_bad_address :
    ∃ left, run 2 ((load [104, 7, 3, -1, 99]).feedAll [5, 6]) =
        some ⟨.failed (.outOfBounds (-1)), left⟩ ∧
      left.inputs = [6] ∧ left.outputs = #[7] ∧
      ∃ n < 2, ∃ d, after n ((load [104, 7, 3, -1, 99]).feedAll [5, 6]) = some d ∧
        d.Abandoned (.outOfBounds (-1)) left := by
  have hrun : run 2 ((load [104, 7, 3, -1, 99]).feedAll [5, 6]) =
      some ⟨.failed (.outOfBounds (-1)), ⟨#[104, 7, 3, -1, 99], 2, 0, [6], #[7]⟩⟩ := by decide
  obtain ⟨⟨n, hn, d, hd, -, h, -⟩, -⟩ := (abandoned_of_run _ 2).1 _ _ hrun
  exact ⟨_, hrun, rfl, rfl, n, hn, d, hd, h⟩

end Shipboard.Computer
