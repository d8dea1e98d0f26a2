import Shipboard.Proofs.Computer.Course
import Shipboard.Proofs.Computer.Memory
import Shipboard.Proofs.Computer.Word

/-!
# The ideal computer

A computer without limits: its cells hold any integers, there is a cell for every natural number,
and nothing overflows.  The computer with limits never gives a wrong answer: if a run does not
fail, the ideal computer goes through the same instructions (`ideal_of_run`).

* `Ideal` is the state of an ideal computer; `Ideal.At s i` says that the word of the instruction
  `i` is in the cell at its position;
* `Ideal.execute?` is what an instruction makes of it, all operands being read before anything is
  written.  It is `none` if the instruction stops the computer or names a negative address;
* `Ideal.Steps n s t`: `n` instructions lead from `s` to `t`, and to no other state
  (`Ideal.Steps.unique`);
* `Mirrors c s`: the ideal computer `s` shows the same as the computer `c`.
-/

namespace Shipboard.Computer

/-- An ideal computer between two instructions. -/
structure Ideal where
  memory : ℕ → ℤ
  position : ℕ := 0
  base : ℤ := 0
  inputs : List ℤ := []
  outputs : List ℤ := []

namespace Ideal

/-- An ideal computer with a program in its first cells, zeros in the others, and its inputs. -/
def load (program inputs : List ℤ) : Ideal where
  memory k := program.getD k 0
  inputs := inputs

/-- There is a cell for every address that is not negative. -/
def cell? (address : ℤ) : Option ℕ :=
  if 0 ≤ address then some address.toNat else none

/-- A parameter exactly as it is written, counted from zero. -/
def parameter (s : Ideal) (n : ℕ) : ℤ := s.memory (s.position + 1 + n)

/-- The address that a parameter denotes; one that is taken as a value denotes itself. -/
def address (s : Ideal) (n : ℕ) : Mode → ℤ
  | .position | .immediate => s.parameter n
  | .relative => s.base + s.parameter n

/-- The value that a parameter denotes. -/
def operand? (s : Ideal) (n : ℕ) : Mode → Option ℤ
  | .immediate => some (s.parameter n)
  | .position => (cell? (s.address n .position)).map s.memory
  | .relative => (cell? (s.address n .relative)).map s.memory

/-- Put a value into the cell that a parameter denotes. -/
def write? (s : Ideal) (n : ℕ) (mode : Mode) (value : ℤ) : Option Ideal :=
  (cell? (s.address n mode)).map fun k => { s with memory := Function.update s.memory k value }

/-- Go on behind an instruction that has so many parameters. -/
def advance (s : Ideal) (arity : ℕ) : Ideal := { s with position := s.position + 1 + arity }

/-- Combine the values of two parameters and put the result into the cell that a third denotes. -/
def combine? (s : Ideal) (i : Instruction) (f : ℤ → ℤ → ℤ) : Option Ideal := do
  let left ← s.operand? 0 i.first
  let right ← s.operand? 1 i.second
  let t ← s.write? 2 i.third (f left right)
  return t.advance 3

/-- Jump to the value of the second parameter if the first one's passes a test. -/
def branch? (s : Ideal) (i : Instruction) (taken : ℤ → Prop) [DecidablePred taken] :
    Option Ideal := do
  let test ← s.operand? 0 i.first
  let goal ← s.operand? 1 i.second
  if taken test then return { s with position := ← cell? goal } else return s.advance 2

/-- What an instruction makes of an ideal computer. -/
def execute? (s : Ideal) (i : Instruction) : Option Ideal :=
  match i.operation with
  | .halt => none
  | .add => s.combine? i fun left right => left + right
  | .multiply => s.combine? i fun left right => left * right
  | .lessThan => s.combine? i fun left right => if left < right then 1 else 0
  | .equals => s.combine? i fun left right => if left = right then 1 else 0
  | .input =>
    match s.inputs with
    | [] => none
    | value :: others => do
      let t ← { s with inputs := others }.write? 0 i.first value
      return t.advance 1
  | .output => do
    let value ← s.operand? 0 i.first
    return { s with outputs := s.outputs ++ [value] }.advance 1
  | .jumpIfTrue => s.branch? i fun test => test ≠ 0
  | .jumpIfFalse => s.branch? i fun test => test = 0
  | .adjustBase => do
    let offset ← s.operand? 0 i.first
    return { s with base := s.base + offset }.advance 1

/-- The word of an instruction is in the cell at the computer's position. -/
def At (s : Ideal) (i : Instruction) : Prop := s.memory s.position = i.word

/-- One instruction leads from one state to another. -/
def Step (s t : Ideal) : Prop := ∃ i, s.At i ∧ s.execute? i = some t

/-- So many instructions lead from one state to another. -/
def Steps : ℕ → Ideal → Ideal → Prop
  | 0, s, t => s = t
  | n + 1, s, t => ∃ u, s.Step u ∧ Steps n u t

theorem Step.unique {s t u : Ideal} (ht : s.Step t) (hu : s.Step u) : t = u := by
  obtain ⟨i, hi, hexecute⟩ := ht
  obtain ⟨j, hj, hexecute'⟩ := hu
  obtain rfl : i = j := Instruction.word_injective (hi.symm.trans hj)
  exact Option.some.inj (hexecute.symm.trans hexecute')

theorem Steps.unique {n : ℕ} {s t u : Ideal} (ht : Steps n s t) (hu : Steps n s u) : t = u := by
  induction n generalizing s with
  | zero => exact ht.symm.trans hu
  | succ n ih =>
    obtain ⟨v, hv, ht⟩ := ht
    obtain ⟨w, hw, hu⟩ := hu
    cases hv.unique hw
    exact ih ht hu

end Ideal

/-! ### The ideal computer beside the other -/

/-- The ideal computer `s` shows the same as the computer `c`. -/
structure Mirrors (c : Computer) (s : Ideal) : Prop where
  memory : ∀ k, c.value k = s.memory k
  position : c.position = s.position
  base : c.base = s.base
  inputs : c.inputs = s.inputs
  outputs : c.outputs.toList = s.outputs

namespace Mirrors

variable {c next : Computer} {s : Ideal} {i : Instruction}

theorem load (program inputs : List ℤ) :
    Mirrors ((Computer.load program).feedAll inputs) (Ideal.load program inputs) where
  memory k := value_load program k
  position := rfl
  base := rfl
  inputs := rfl
  outputs := rfl

theorem cell? {address : ℤ} {k : ℕ} (h : cell address = .ok k) : Ideal.cell? address = some k := by
  obtain ⟨rfl, -⟩ := cell_eq_ok_iff.1 h
  simp [Ideal.cell?]

theorem read {address v : ℤ} (h : c.Mirrors s) (hread : c.read address = .ok v) :
    (Ideal.cell? address).map s.memory = some v := by
  obtain ⟨k, hk, rfl⟩ := read_eq_ok_iff.1 hread
  rw [cell? hk, Option.map_some, h.memory]

theorem parameter {n : ℕ} {v : ℤ} (h : c.Mirrors s) (hn : c.parameter n = .ok v) :
    s.parameter n = v := by
  have hread := h.read hn
  rw [Ideal.cell?, if_pos (by omega), Option.map_some, Int.toNat_natCast, h.position] at hread
  exact Option.some.inj hread

theorem address {mode : Mode} {n : ℕ} {a : ℤ} (h : c.Mirrors s)
    (ha : c.address mode n = .ok a) : s.address n mode = a := by
  cases mode with
  | position | immediate => exact h.parameter ha
  | relative =>
    obtain ⟨v, hv, hchecked⟩ := bind_eq_ok.1 ha
    obtain ⟨-, rfl⟩ := checked_eq_ok_iff.1 hchecked
    rw [Ideal.address, h.parameter hv, h.base]

theorem operand? {mode : Mode} {n : ℕ} {v : ℤ} (h : c.Mirrors s)
    (hv : c.operand mode n = .ok v) : s.operand? n mode = some v := by
  cases mode with
  | immediate => exact congrArg some (h.parameter hv)
  | position | relative =>
    obtain ⟨a, ha, hread⟩ := bind_eq_ok.1 hv
    rw [Ideal.operand?, h.address ha]
    exact h.read hread

theorem write? {mode : Mode} {n k : ℕ} (h : c.Mirrors s) (hk : c.target mode n = .ok k)
    (v : ℤ) : s.write? n mode v = some { s with memory := Function.update s.memory k v } := by
  obtain ⟨a, ha, hcell⟩ := bind_eq_ok.1 hk
  rw [Ideal.write?, h.address ha, cell? hcell, Option.map_some]

theorem store (h : c.Mirrors s) (k : ℕ) (v : ℤ) :
    (c.store k v).Mirrors { s with memory := Function.update s.memory k v } where
  memory j := by simp [value_store, Function.update_apply, h.memory]
  position := by rw [store_position, h.position]
  base := by rw [store_base, h.base]
  inputs := by rw [store_inputs, h.inputs]
  outputs := by rw [store_outputs, h.outputs]

theorem advance (h : c.Mirrors s) (arity : ℕ) : (c.advance arity).Mirrors (s.advance arity) where
  memory := h.memory
  position := by rw [Computer.advance, Ideal.advance, h.position]
  base := h.base
  inputs := h.inputs
  outputs := h.outputs

theorem at_of_fetch (h : c.Mirrors s) (hi : c.fetch = .ok i) : s.At i := by
  obtain ⟨-, hdecode⟩ := fetch_eq_ok_iff.1 hi
  rw [Ideal.At, ← h.position, ← h.memory, Instruction.word_of_decode hdecode]

theorem combine? {l r : ℤ} {f : ℤ → ℤ → ℤ} {e : Effect} {arity : ℕ} (h : c.Mirrors s)
    (he : c.Combines i l r (f l r) e) (hp : c.perform arity e = .runs next) (harity : arity = 3) :
    ∃ t, s.combine? i f = some t ∧ next.Mirrors t := by
  obtain ⟨hl, hr, k, hk, rfl⟩ := he
  cases hp
  subst harity
  refine ⟨_, ?_, (h.store k (f l r)).advance 3⟩
  simp [Ideal.combine?, h.operand? hl, h.operand? hr, h.write? hk]

theorem branch? {test goal : ℤ} {taken : ℤ → Prop} [DecidablePred taken] {e : Effect} {arity : ℕ}
    (h : c.Mirrors s) (he : c.Branches i test goal (taken test) e)
    (hp : c.perform arity e = .runs next) (harity : arity = 2) :
    ∃ t, s.branch? i taken = some t ∧ next.Mirrors t := by
  obtain ⟨htest, hgoal, ⟨htaken, place, hplace, rfl⟩ | ⟨htaken, rfl⟩⟩ := he
  · cases hp
    refine ⟨{ s with position := place }, ?_, h.memory, rfl, h.base, h.inputs, h.outputs⟩
    simp [Ideal.branch?, h.operand? htest, h.operand? hgoal, htaken, cell? hplace]
  · cases hp
    subst harity
    refine ⟨_, ?_, h.advance 2⟩
    simp [Ideal.branch?, h.operand? htest, h.operand? hgoal, htaken]

/-- What a completed instruction does, it does to the ideal computer too. -/
theorem execute? (h : c.Mirrors s) {e : Effect} (he : c.Means i e)
    (hp : c.perform i.operation.arity e = .runs next) :
    ∃ t, s.execute? i = some t ∧ next.Mirrors t := by
  unfold Means at he
  unfold Ideal.execute?
  cases hop : i.operation <;> rw [hop] at he hp
  case halt => subst he; cases hp
  case add | multiply =>
    obtain ⟨l, r, he, -⟩ := he
    exact h.combine? he hp rfl
  case lessThan | equals =>
    obtain ⟨l, r, he⟩ := he
    exact h.combine? he hp rfl
  case jumpIfTrue | jumpIfFalse =>
    obtain ⟨test, goal, he⟩ := he
    exact h.branch? he hp rfl
  case output =>
    obtain ⟨v, hv, rfl⟩ := he
    cases hp
    have hemit : Mirrors { c with outputs := c.outputs.push v }
        { s with outputs := s.outputs ++ [v] } :=
      ⟨h.memory, h.position, h.base, h.inputs, by simp [h.outputs]⟩
    exact ⟨_, by simp [h.operand? hv], hemit.advance 1⟩
  case adjustBase =>
    obtain ⟨v, hv, -, rfl⟩ := he
    cases hp
    have hrebase : Mirrors { c with base := c.base + v } { s with base := s.base + v } :=
      ⟨h.memory, h.position, by rw [h.base], h.inputs, h.outputs⟩
    exact ⟨_, by simp [h.operand? hv], hrebase.advance 1⟩
  case input =>
    rcases he with ⟨-, rfl⟩ | ⟨v, others, k, hinputs, hk, rfl⟩
    · cases hp
    · cases hp
      have htail : Mirrors { c with inputs := c.inputs.tail } { s with inputs := others } :=
        ⟨h.memory, h.position, h.base, by rw [hinputs, List.tail_cons], h.outputs⟩
      refine ⟨_, ?_, (htail.store k v).advance 1⟩
      rw [← h.inputs, hinputs]
      dsimp only
      rw [htail.write? hk]
      rfl

/-- A completed instruction is one of the ideal computer. -/
theorem step (h : c.Mirrors s) (hs : c.step = .runs next) : ∃ t, s.Step t ∧ next.Mirrors t := by
  obtain ⟨i, e, hi, he, hp⟩ := step_eq_runs_iff.1 hs
  obtain ⟨t, ht, hnext⟩ := h.execute? (effect_eq_ok_iff.1 he) hp
  exact ⟨t, ⟨i, h.at_of_fetch hi, ht⟩, hnext⟩

/-- And so is a course of them. -/
theorem after {d : Computer} {n : ℕ} (h : c.Mirrors s) (hd : after n c = some d) :
    ∃ t, Ideal.Steps n s t ∧ d.Mirrors t := by
  induction n generalizing c s with
  | zero => cases hd; exact ⟨s, rfl, h⟩
  | succ n ih =>
    cases hs : c.step with
    | rests rest => rw [after_succ_of_rests hs] at hd; cases hd
    | runs next =>
      rw [after_succ_of_runs hs] at hd
      obtain ⟨u, hu, hnext⟩ := h.step hs
      obtain ⟨t, ht, hd⟩ := ih hnext hd
      exact ⟨t, ⟨u, hu, ht⟩, hd⟩

end Mirrors

/-- **The limits of a computer never change what a program comes to.**  If no limit is met, then the
ideal computer comes by as many instructions to one state, which agrees with what is left. -/
theorem ideal_of_run (program inputs : List ℤ) {budget : ℕ} {rest : Rest}
    (h : run budget ((load program).feedAll inputs) = some rest)
    (hending : ∀ fault, rest.ending ≠ .failed fault) :
    ∃ n s, after n ((load program).feedAll inputs) = some rest.computer ∧
      (∀ t, Ideal.Steps n (Ideal.load program inputs) t ↔ t = s) ∧
      (∃ i, rest.computer.fetch = .ok i ∧ s.At i ∧ s.execute? i = none ∧
        ((rest.ending = .halted ∧ i.operation = .halt) ∨
          (rest.ending = .needsInput ∧ i.operation = .input ∧ s.inputs = []))) ∧
      s.position = rest.computer.position ∧ s.base = rest.computer.base ∧
      s.outputs = rest.computer.outputs.toList ∧ s.inputs = rest.computer.inputs ∧
      ∀ address : ℕ, address < memoryLimit →
        rest.computer.read address = .ok (s.memory address) := by
  obtain ⟨n, -, d, hd, hrest⟩ := run_eq_some_iff.1 h
  obtain ⟨ending, left⟩ := rest
  obtain rfl : left = d := eq_of_step_rests hrest hending
  obtain ⟨s, hs, hmirrors⟩ := (Mirrors.load program inputs).after hd
  refine ⟨n, s, hd, fun t => ⟨fun ht => ht.unique hs, fun ht => ht ▸ hs⟩, ?_,
    hmirrors.position.symm, hmirrors.base.symm, hmirrors.outputs.symm, hmirrors.inputs.symm, ?_⟩
  · cases ending with
    | failed fault => exact (hending fault rfl).elim
    | halted =>
      obtain ⟨⟨i, hi, hop⟩, -⟩ := step_eq_halted_iff.1 hrest
      refine ⟨i, hi, hmirrors.at_of_fetch hi, ?_, Or.inl ⟨rfl, hop⟩⟩
      rw [Ideal.execute?, hop]
    | needsInput =>
      obtain ⟨⟨⟨i, hi, hop⟩, hinputs⟩, -⟩ := step_eq_needsInput_iff.1 hrest
      have hnone : s.inputs = [] := by rw [← hmirrors.inputs, hinputs]
      refine ⟨i, hi, hmirrors.at_of_fetch hi, ?_, Or.inr ⟨rfl, hop, hnone⟩⟩
      rw [Ideal.execute?, hop, hnone]
  · intro address haddress
    rw [read_natCast haddress, hmirrors.memory]

/-- A program that moves the base, puts its input into a cell past the end of its memory and puts
it out from there. -/
theorem ideal_of_run_relative :
    ∃ rest, run 5 ((load [109, 10, 203, -3, 204, -3, 99]).feedAll [42]) = some rest ∧
      rest.ending = .halted ∧
      ∃ n s, Ideal.Steps n (Ideal.load [109, 10, 203, -3, 204, -3, 99] [42]) s ∧
        s.outputs = [42] ∧ s.base = 10 ∧ s.memory 7 = 42 := by
  have hrun : run 5 ((load [109, 10, 203, -3, 204, -3, 99]).feedAll [42]) =
      some ⟨.halted, ⟨#[109, 10, 203, -3, 204, -3, 99, 42], 6, 10, [], #[42]⟩⟩ := by decide
  obtain ⟨n, s, -, hsteps, -, -, hbase, houtputs, -, hmemory⟩ :=
    ideal_of_run [109, 10, 203, -3, 204, -3, 99] [42] hrun (by simp)
  exact ⟨_, hrun, rfl, n, s, (hsteps s).2 rfl, houtputs, hbase,
    (Except.ok.inj (hmemory 7 (by decide))).symm⟩

end Shipboard.Computer
