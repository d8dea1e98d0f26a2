import Shipboard.Proofs.Computer.Course
import Shipboard.Proofs.Computer.Memory

/-!
# Zeros behind a program

Cells past the end of memory hold zero, so it makes no difference to a program whether there are
some more zeros behind it.  There is one place where the end of memory can be seen: no instruction
is fetched past it.

* `Padded c d`: the computer `d` differs from `c` at most in that it has more zeros at the end of
  its memory;
* `Padded.effect_eq`: an instruction does the same on both;
* `Padded.step_cases`: both go on to computers that differ no more than they do, or both rest, as
  `RestAlike` says;
* `run_padded`: so do whole runs.
-/

namespace Shipboard.Computer

variable {c d : Computer}

/-- The computers show the same, and `d` has the larger memory if there is a difference. -/
structure Padded (c d : Computer) : Prop where
  value : ∀ k, d.value k = c.value k
  size_le : c.memory.size ≤ d.memory.size
  position : d.position = c.position
  base : d.base = c.base
  inputs : d.inputs = c.inputs
  outputs : d.outputs = c.outputs

namespace Padded

theorem load (program inputs : List ℤ) (k : ℕ) :
    Padded ((Computer.load program).feedAll inputs)
      ((Computer.load (program ++ List.replicate k 0)).feedAll inputs) where
  value j := by
    show (Computer.load _).value j = (Computer.load _).value j
    rw [value_load, value_load, List.getD_eq_getElem?_getD, List.getD_eq_getElem?_getD]
    by_cases hj : j < program.length
    · rw [List.getElem?_append_left hj]
    · rw [List.getElem?_append_right (not_lt.1 hj), List.getElem?_replicate,
        List.getElem?_eq_none (not_lt.1 hj)]
      split_ifs <;> rfl
  size_le := by
    show (program.toArray).size ≤ (program ++ List.replicate k 0).toArray.size
    simp
  position := rfl
  base := rfl
  inputs := rfl
  outputs := rfl

/-- The memory of the one is that of the other, up to zeros at the end. -/
theorem exists_memory_eq (h : c.Padded d) :
    ∃ m, d.memory = c.memory ++ Array.replicate m 0 := by
  have hsize := h.size_le
  refine ⟨d.memory.size - c.memory.size, Array.ext_getElem? fun k => ?_⟩
  rw [getElem?_memory, h.value, Array.getElem?_append, getElem?_memory, Array.getElem?_replicate]
  by_cases hk : k < c.memory.size
  · simp only [hk, if_true, hk.trans_le hsize]
  · have hzeros : k < d.memory.size ↔ k - c.memory.size < d.memory.size - c.memory.size := by omega
    rw [value_of_size_le (not_lt.1 hk)]
    simp only [hk, if_false, hzeros]

/-! ### Reading -/

theorem read_eq (h : c.Padded d) (address : ℤ) : d.read address = c.read address := by
  have hvalue : d.value = c.value := funext h.value
  rw [read, read, hvalue]

theorem parameter_eq (h : c.Padded d) (n : ℕ) : d.parameter n = c.parameter n := by
  rw [parameter, parameter, h.position, h.read_eq]

theorem checked_eq (h : c.Padded d) (v : ℤ) : d.checked v = c.checked v := by
  rw [checked, checked, h.position]

theorem address_eq (h : c.Padded d) (mode : Mode) (n : ℕ) :
    d.address mode n = c.address mode n := by
  cases mode <;> simp only [address, h.parameter_eq, h.base, h.checked_eq]

theorem operand_eq (h : c.Padded d) (mode : Mode) (n : ℕ) :
    d.operand mode n = c.operand mode n := by
  have hread : d.read = c.read := funext h.read_eq
  cases mode <;> simp only [operand, h.parameter_eq, h.address_eq, hread]

theorem target_eq (h : c.Padded d) (mode : Mode) (n : ℕ) :
    d.target mode n = c.target mode n := by
  rw [target, target, h.address_eq]

/-- No instruction sees where memory ends. -/
theorem effect_eq (h : c.Padded d) (i : Instruction) : d.effect i = c.effect i := by
  unfold effect
  cases i.operation <;>
    simp only [h.operand_eq, h.target_eq, h.checked_eq, h.base, h.inputs]

/-! ### Writing -/

theorem store (h : c.Padded d) (k : ℕ) (v : ℤ) : (c.store k v).Padded (d.store k v) where
  value j := by rw [value_store, value_store, h.value]
  size_le := by
    rw [size_store, size_store]
    exact max_le_max_right _ h.size_le
  position := by rw [store_position, store_position, h.position]
  base := by rw [store_base, store_base, h.base]
  inputs := by rw [store_inputs, store_inputs, h.inputs]
  outputs := by rw [store_outputs, store_outputs, h.outputs]

theorem advance (h : c.Padded d) (arity : ℕ) : (c.advance arity).Padded (d.advance arity) where
  value := h.value
  size_le := h.size_le
  position := by rw [Computer.advance, Computer.advance, h.position]
  base := h.base
  inputs := h.inputs
  outputs := h.outputs

theorem tail (h : c.Padded d) :
    Padded { c with inputs := c.inputs.tail } { d with inputs := d.inputs.tail } where
  value := h.value
  size_le := h.size_le
  position := h.position
  base := h.base
  inputs := by rw [h.inputs]
  outputs := h.outputs

theorem abandon (h : c.Padded d) (operation : Operation) :
    (c.abandon operation).Padded (d.abandon operation) := by
  rw [Computer.abandon, Computer.abandon]
  split_ifs
  · exact h.tail
  · exact h

end Padded

/-- Steps that lead to computers of which the second has more zeros at most, and that rest in the
same way if they rest. -/
inductive Step.Padded : Step → Step → Prop
  | runs {c d : Computer} (h : c.Padded d) : Step.Padded (.runs c) (.runs d)
  | rests {c d : Computer} (ending : Ending) (h : c.Padded d) :
    Step.Padded (.rests ⟨ending, c⟩) (.rests ⟨ending, d⟩)

namespace Padded

theorem perform (h : c.Padded d) (arity : ℕ) (e : Effect) :
    (c.perform arity e).Padded (d.perform arity e) := by
  cases e with
  | halt => exact .rests _ h
  | wait => exact .rests _ h
  | store index v => exact .runs ((h.store index v).advance arity)
  | receive index v => exact .runs ((h.tail.store index v).advance arity)
  | emit v =>
    have hemit : Padded { c with outputs := c.outputs.push v }
        { d with outputs := d.outputs.push v } :=
      ⟨h.value, h.size_le, h.position, h.base, h.inputs, by rw [h.outputs]⟩
    exact .runs (hemit.advance arity)
  | rebase base =>
    have hrebase : Padded { c with base } { d with base } :=
      ⟨h.value, h.size_le, h.position, rfl, h.inputs, h.outputs⟩
    exact .runs (hrebase.advance arity)
  | jump position => exact .runs ⟨h.value, h.size_le, rfl, h.base, h.inputs, h.outputs⟩
  | pass => exact .runs (h.advance arity)

/-- An instruction in front of the end of memory does the same to both. -/
theorem step_of_lt (h : c.Padded d) (hlt : c.position < c.memory.size) :
    c.step.Padded d.step := by
  have hlt' : d.position < d.memory.size := h.position ▸ hlt.trans_le h.size_le
  have hfetch : d.fetch = c.fetch := by
    rw [fetch_of_lt hlt, fetch_of_lt hlt', h.position, h.value]
  rw [step, step, hfetch]
  cases c.fetch with
  | error fault => exact .rests _ h
  | ok i =>
    dsimp only
    rw [h.effect_eq]
    cases c.effect i with
    | error fault => exact .rests _ (h.abandon i.operation)
    | ok e => exact h.perform i.operation.arity e

/-- Past the end of memory there is no instruction, and a zero is none. -/
theorem step_of_size_le (h : c.Padded d) (hle : c.memory.size ≤ c.position) :
    c.step = .rests ⟨.failed (.outOfBounds c.position), c⟩ ∧
      (d.step = .rests ⟨.failed (.outOfBounds c.position), d⟩ ∨
        d.step = .rests ⟨.failed (.unknownOperation 0 c.position), d⟩) := by
  refine ⟨by rw [step, fetch_of_size_le hle], ?_⟩
  by_cases hlt : d.position < d.memory.size
  · -- what is found there is one of the zeros that `c` does not have
    have hzero : d.value d.position = 0 := by
      rw [h.value, h.position, value_of_size_le hle]
    right
    rw [step, fetch_of_lt hlt, hzero, h.position]
    rfl
  · left
    rw [step, fetch_of_size_le (not_lt.1 hlt), h.position]

end Padded

/-- How two computers rest that differ in zeros at most: in the same way, unless the position is
past the end of the smaller memory. -/
structure RestAlike (last : Computer) (rest rest' : Rest) : Prop where
  padded : rest.computer.Padded rest'.computer
  ending_eq : last.position < last.memory.size → rest'.ending = rest.ending
  ending_past : last.memory.size ≤ last.position →
    rest.ending = .failed (.outOfBounds last.position) ∧
      (rest'.ending = .failed (.outOfBounds last.position) ∨
        rest'.ending = .failed (.unknownOperation 0 last.position))

namespace Padded

theorem step_cases (h : c.Padded d) :
    (∃ next next', c.step = .runs next ∧ d.step = .runs next' ∧ next.Padded next') ∨
      ∃ rest rest', c.step = .rests rest ∧ d.step = .rests rest' ∧ RestAlike c rest rest' := by
  by_cases hlt : c.position < c.memory.size
  · have hstep := h.step_of_lt hlt
    generalize c.step = s, d.step = t at hstep
    cases hstep with
    | runs hnext => exact .inl ⟨_, _, rfl, rfl, hnext⟩
    | rests ending hleft =>
      exact .inr ⟨_, _, rfl, rfl, hleft, fun _ => rfl, fun hle => absurd hlt (not_lt.2 hle)⟩
  · obtain ⟨hc, hd⟩ := h.step_of_size_le (not_lt.1 hlt)
    right
    obtain hd | hd := hd
    · exact ⟨_, _, hc, hd, h, fun hlt' => absurd hlt' hlt, fun _ => ⟨rfl, .inl rfl⟩⟩
    · exact ⟨_, _, hc, hd, h, fun hlt' => absurd hlt' hlt, fun _ => ⟨rfl, .inr rfl⟩⟩

/-- With one budget, both runs are unfinished, or both have come to rest after the same number of
instructions. -/
theorem run_cases (h : c.Padded d) (budget : ℕ) :
    (run budget c = none ∧ run budget d = none) ∨
      ∃ n < budget, ∃ last last' rest rest', after n c = some last ∧ last.step = .rests rest ∧
        after n d = some last' ∧ last'.step = .rests rest' ∧ RestAlike last rest rest' := by
  induction budget generalizing c d with
  | zero => exact .inl ⟨rfl, rfl⟩
  | succ budget ih =>
    obtain ⟨next, next', hc, hd, hnext⟩ | ⟨rest, rest', hc, hd, hrest⟩ := h.step_cases
    · rw [run_succ, hc, run_succ, hd]
      obtain hnone | ⟨n, hn, last, last', rest, rest', hlast, hrest, hlast', hrest', halike⟩ :=
        ih hnext
      · exact .inl hnone
      · refine .inr ⟨n + 1, by omega, last, last', rest, rest', ?_, hrest, ?_, hrest', halike⟩
        · rw [after_succ_of_runs hc, hlast]
        · rw [after_succ_of_runs hd, hlast']
    · exact .inr ⟨0, by omega, c, d, rest, rest', rfl, hc, rfl, hd, hrest⟩

end Padded

/-- **Zeros behind a program make no difference**, unless the position is past the end of memory:
there no instruction is found, and where there are more zeros a zero may be found, which is none. -/
theorem run_padded (program inputs : List ℤ) (k : ℕ) :
    (∀ budget, run budget ((load program).feedAll inputs) = none ∧
      run budget ((load (program ++ List.replicate k 0)).feedAll inputs) = none) ∨
    ∃ n last last' rest rest',
      after n ((load program).feedAll inputs) = some last ∧ last.step = .rests rest ∧
      after n ((load (program ++ List.replicate k 0)).feedAll inputs) = some last' ∧
        last'.step = .rests rest' ∧
      (∀ budget, n < budget →
        run budget ((load program).feedAll inputs) = some rest ∧
        run budget ((load (program ++ List.replicate k 0)).feedAll inputs) = some rest') ∧
      rest'.computer.outputs = rest.computer.outputs ∧
      rest'.computer.position = rest.computer.position ∧
      rest'.computer.base = rest.computer.base ∧
      rest'.computer.inputs = rest.computer.inputs ∧
      (∀ address, rest'.computer.read address = rest.computer.read address) ∧
      (∃ m, rest'.computer.memory = rest.computer.memory ++ Array.replicate m 0) ∧
      (last.position < last.memory.size → rest'.ending = rest.ending) ∧
      (last.memory.size ≤ last.position →
        rest.ending = .failed (.outOfBounds last.position) ∧
        (rest'.ending = .failed (.outOfBounds last.position) ∨
          rest'.ending = .failed (.unknownOperation 0 last.position))) := by
  have hpadded := Padded.load program inputs k
  by_cases hnone : ∀ budget, run budget ((load program).feedAll inputs) = none ∧
      run budget ((load (program ++ List.replicate k 0)).feedAll inputs) = none
  · exact .inl hnone
  obtain ⟨budget, hsome⟩ := not_forall.1 hnone
  obtain ⟨n, -, last, last', rest, rest', hlast, hrest, hlast', hrest', halike⟩ :=
    (hpadded.run_cases budget).resolve_left hsome
  have hleft := halike.padded
  exact .inr ⟨n, last, last', rest, rest', hlast, hrest, hlast', hrest',
    fun budget hn => ⟨run_eq_some_iff.2 ⟨n, hn, last, hlast, hrest⟩,
      run_eq_some_iff.2 ⟨n, hn, last', hlast', hrest'⟩⟩,
    hleft.outputs, hleft.position, hleft.base, hleft.inputs, hleft.read_eq,
    hleft.exists_memory_eq, halike.ending_eq, halike.ending_past⟩

example : (run 2 (load [1, 0, 0, 0])).map Rest.ending = some (.failed (.outOfBounds 4)) ∧
    (run 2 (load ([1, 0, 0, 0] ++ List.replicate 2 0))).map Rest.ending =
      some (.failed (.unknownOperation 0 4)) := by
  decide

end Shipboard.Computer
