import Mathlib.Data.Set.Card
import Shipboard.Proofs.Computer.Change
import Shipboard.Proofs.Computer.Failing

/-!
# One instruction changes at most one cell

What an instruction does to a computer is told in full by `Changes`, and every change that can be
made is the doing of an instruction.

* `Means.changes`: what a completed instruction does is a change;
* `Changes.exists_means`: a change tells that the instruction can read all that it needs, and so
  that it is completed;
* `Totals done c d` adds up the changes of a course, whose operations are `done`
  (`totals_of_after`);
* `changes_of_step` is the main result.
-/

namespace Shipboard.Computer

variable {c d next : Computer} {i : Instruction} {e : Effect} {n index : ℕ} {v left right : ℤ}

/-! ### Steps -/

theorem Combines.changes (h : c.Combines i left right v e)
    (hp : c.perform i.operation.arity e = .runs next) (harity : i.operation.arity = 3)
    (hresult : c.Reads i left right → c.Results i v) : c.Changes i next := by
  obtain ⟨hleft, hright, index, hindex, rfl⟩ := h
  obtain ⟨hstores, hinput⟩ := Operation.stores_of_arity harity
  have hreads : c.Reads i left right := ⟨operand_eq_ok_iff.1 hleft, operand_eq_ok_iff.1 hright⟩
  have hpoints : c.Points i.lastMode (i.operation.arity - 1) index := by
    rw [Instruction.lastMode, harity]
    exact target_eq_ok_iff.1 hindex
  cases hp
  refine .of_stores hstores hpoints (hresult hreads) rfl ?_ (store_outputs ..) (store_base ..) ?_
  · rw [if_neg hinput, advance, store_inputs]
  · rw [advance, store_position]

theorem Branches.changes {test goal : ℤ} {taken : Prop} (h : c.Branches i test goal taken e)
    (hp : c.perform i.operation.arity e = .runs next) (harity : i.operation.arity = 2)
    (htaken : i.operation.takenOn test = true ↔ taken) : c.Changes i next := by
  have hbranches := Operation.branches_of_arity harity
  obtain ⟨htest, hgoal, h⟩ := h
  have hreads : c.Reads i test goal := ⟨operand_eq_ok_iff.1 htest, operand_eq_ok_iff.1 hgoal⟩
  obtain ⟨hmet, place, hplace, rfl⟩ | ⟨hmissed, rfl⟩ := h
  · cases hp
    obtain ⟨rfl, hlt⟩ := cell_eq_ok_iff.1 hplace
    refine .of_branches hbranches hreads ?_
    rw [if_pos (htaken.2 hmet)]
    exact ⟨hlt, rfl⟩
  · cases hp
    refine .of_branches hbranches hreads ?_
    rw [if_neg fun h => hmissed (htaken.1 h)]

/-- The inputs do not matter to a cell that is written. -/
theorem memory_store_inputs (inputs : List ℤ) (k : ℕ) (v : ℤ) :
    ({ c with inputs }.store k v).memory = (c.store k v).memory := by
  unfold store
  split_ifs <;> rfl

/-- What a completed instruction does is a change. -/
theorem Means.changes (h : c.Means i e) (hp : c.perform i.operation.arity e = .runs next) :
    c.Changes i next := by
  unfold Means at h
  cases hop : i.operation <;> rw [hop] at h
  case halt =>
    subst h
    cases hp
  case add | multiply =>
    obtain ⟨left, right, h, hfits⟩ := h
    refine h.changes hp (by rw [hop]; rfl) fun hreads => ?_
    rw [Results, hop]
    exact ⟨left, right, hreads, rfl, hfits⟩
  case lessThan | equals =>
    obtain ⟨left, right, h⟩ := h
    refine h.changes hp (by rw [hop]; rfl) fun hreads => ?_
    rw [Results, hop]
    exact ⟨left, right, hreads, rfl⟩
  case jumpIfTrue | jumpIfFalse =>
    obtain ⟨test, goal, h⟩ := h
    refine h.changes hp (by rw [hop]; rfl) ?_
    rw [hop, Operation.takenOn, decide_eq_true_iff]
  case input =>
    obtain ⟨-, rfl⟩ | ⟨v, others, index, hinputs, hindex, rfl⟩ := h
    · cases hp
    · cases hp
      have hpoints : c.Points i.lastMode (i.operation.arity - 1) index := by
        rw [Instruction.lastMode, hop]
        exact target_eq_ok_iff.1 hindex
      have hresult : c.Results i v := by
        rw [Results, hop, hinputs]
        rfl
      refine .of_stores (by rw [hop]; rfl) hpoints hresult (memory_store_inputs ..) ?_
        (store_outputs ..) (store_base ..) ?_
      · rw [if_pos hop, advance, store_inputs, hinputs]
        exact ⟨v, rfl⟩
      · rw [advance, store_position]
  case output =>
    obtain ⟨v, hv, rfl⟩ := h
    cases hp
    constructor
    case outputs =>
      rw [if_pos hop]
      exact ⟨v, operand_eq_ok_iff.1 hv, rfl⟩
    all_goals simp [hop, Operation.stores, Operation.branches, advance]
  case adjustBase =>
    obtain ⟨v, hv, hfits, rfl⟩ := h
    cases hp
    constructor
    case base =>
      rw [if_pos hop]
      exact ⟨v, operand_eq_ok_iff.1 hv, hfits, rfl⟩
    all_goals simp [hop, Operation.stores, Operation.branches, advance]

theorem Reads.combines (h : c.Reads i left right) (hpoints : c.Points i.third 2 index) :
    c.Combines i left right v (.store index v) :=
  ⟨operand_eq_ok_iff.2 h.1, operand_eq_ok_iff.2 h.2, index, target_eq_ok_iff.2 hpoints, rfl⟩

theorem Reads.exists_branches {test goal : ℤ} {taken : Prop} {place behind arity : ℕ}
    (h : c.Reads i test goal) (htaken : i.operation.takenOn test = true ↔ taken)
    (hplace : if i.operation.takenOn test then place < memoryLimit ∧ goal = place
      else place = behind) :
    ∃ e d, c.Branches i test goal taken e ∧ c.perform arity e = .runs d := by
  have htest := operand_eq_ok_iff.2 h.1
  have hgoal := operand_eq_ok_iff.2 h.2
  split_ifs at hplace with hmet
  · obtain ⟨hlt, rfl⟩ := hplace
    exact ⟨.jump place, _,
      ⟨htest, hgoal, .inl ⟨htaken.1 hmet, place, cell_eq_ok_iff.2 ⟨rfl, hlt⟩, rfl⟩⟩, rfl⟩
  · exact ⟨.pass, _, ⟨htest, hgoal, .inr ⟨fun h => hmet (htaken.2 h), rfl⟩⟩, rfl⟩

/-- A change tells that the instruction can read all that it needs, and that its result fits. -/
theorem Changes.exists_means (hhalt : i.operation ≠ .halt) (h : c.Changes i next) :
    ∃ e d, c.Means i e ∧ c.perform i.operation.arity e = .runs d := by
  -- the part that an operation changes is the one that tells what the operation has read
  unfold Means
  cases hop : i.operation
  case halt => exact absurd hop hhalt
  case add | multiply =>
    obtain ⟨index, v, hpoints, hresult, -⟩ := h.overwrites (by rw [hop]; rfl)
    rw [Results, hop] at hresult
    rw [Instruction.lastMode, hop] at hpoints
    obtain ⟨left, right, hreads, rfl, hfits⟩ := hresult
    exact ⟨.store index _, _, ⟨left, right, hreads.combines hpoints, hfits⟩, rfl⟩
  case lessThan | equals =>
    obtain ⟨index, v, hpoints, hresult, -⟩ := h.overwrites (by rw [hop]; rfl)
    rw [Results, hop] at hresult
    rw [Instruction.lastMode, hop] at hpoints
    obtain ⟨left, right, hreads, rfl⟩ := hresult
    exact ⟨.store index _, _, ⟨left, right, hreads.combines hpoints⟩, rfl⟩
  case input =>
    obtain ⟨index, v, hpoints, hresult, -⟩ := h.overwrites (by rw [hop]; rfl)
    rw [Results, hop] at hresult
    rw [Instruction.lastMode, hop] at hpoints
    obtain ⟨others, hinputs⟩ := List.head?_eq_some_iff.1 hresult
    exact ⟨.receive index v, _,
      .inr ⟨v, others, index, hinputs, target_eq_ok_iff.2 hpoints, rfl⟩, rfl⟩
  case output =>
    have houtputs := h.outputs
    rw [if_pos hop] at houtputs
    obtain ⟨v, hv, -⟩ := houtputs
    exact ⟨.emit v, _, ⟨v, operand_eq_ok_iff.2 hv, rfl⟩, rfl⟩
  case jumpIfTrue | jumpIfFalse =>
    have hposition := h.position
    rw [if_pos (by rw [hop]; rfl)] at hposition
    obtain ⟨test, goal, hreads, hplace⟩ := hposition
    obtain ⟨e, d, hbranches, hp⟩ :=
      hreads.exists_branches (by rw [hop, Operation.takenOn, decide_eq_true_iff]) hplace
    exact ⟨e, d, ⟨test, goal, hbranches⟩, hp⟩
  case adjustBase =>
    have hbase := h.base
    rw [if_pos hop] at hbase
    obtain ⟨v, hv, hfits, -⟩ := hbase
    exact ⟨.rebase (c.base + v), _, ⟨v, operand_eq_ok_iff.2 hv, hfits, rfl⟩, rfl⟩

/-- An instruction is completed if and only if its change can be made, and the change is all. -/
theorem step_eq_runs_iff_changes :
    c.step = .runs next ↔ ∃ i, c.fetch = .ok i ∧ i.operation ≠ .halt ∧ c.Changes i next := by
  rw [step_eq_runs_iff]
  constructor
  · rintro ⟨i, e, hi, he, hp⟩
    refine ⟨i, hi, fun hop => ?_, (effect_eq_ok_iff.1 he).changes hp⟩
    rw [effect_eq_halt_iff.2 hop] at he
    cases he
    cases hp
  · rintro ⟨i, hi, hhalt, h⟩
    obtain ⟨e, d, hmeans, hp⟩ := h.exists_means hhalt
    obtain rfl : next = d := h.unique (hmeans.changes hp)
    exact ⟨i, e, hi, effect_eq_ok_iff.2 hmeans, hp⟩

/-! ### Courses -/

/-- The changes of completed instructions with the operations `done`, from `c` to `d`. -/
structure Totals (done : List Operation) (c d : Computer) : Prop where
  /-- No more addresses have another value than results were put into cells. -/
  cells : {address : ℤ | d.read address ≠ c.read address}.encard ≤ done.countP Operation.stores
  inputs : ∃ used, c.inputs = used ++ d.inputs ∧ used.length = done.count .input
  outputs : ∃ sent, d.outputs.toList = c.outputs.toList ++ sent ∧ sent.length = done.count .output
  base : .adjustBase ∉ done → d.base = c.base

theorem read_congr (h : c.memory = d.memory) (address : ℤ) : c.read address = d.read address := by
  have hvalue : c.value = d.value := by
    funext k
    rw [value, value, h]
  rw [read, read, hvalue]

namespace Totals

theorem refl (c : Computer) : Totals [] c c where
  cells := by simp
  inputs := ⟨[], rfl, rfl⟩
  outputs := ⟨[], by simp, rfl⟩
  base _ := rfl

theorem trans {done later : List Operation} (h : Totals done c d) (h' : Totals later d next) :
    Totals (done ++ later) c next where
  cells := by
    have hsubset : {address : ℤ | next.read address ≠ c.read address} ⊆
        {address | d.read address ≠ c.read address} ∪
          {address | next.read address ≠ d.read address} := by
      intro address hne
      by_contra hnot
      simp only [Set.mem_union, Set.mem_ofPred_eq, not_or, not_not] at hnot
      exact hne (hnot.2.trans hnot.1)
    calc {address : ℤ | next.read address ≠ c.read address}.encard
      _ ≤ _ := Set.encard_le_encard hsubset
      _ ≤ _ := Set.encard_union_le _ _
      _ ≤ done.countP Operation.stores + later.countP Operation.stores :=
          add_le_add h.cells h'.cells
      _ = (done ++ later).countP Operation.stores := by rw [List.countP_append, Nat.cast_add]
  inputs := by
    obtain ⟨used, hused, hlength⟩ := h.inputs
    obtain ⟨more, hmore, hlength'⟩ := h'.inputs
    refine ⟨used ++ more, ?_, ?_⟩
    · rw [hused, hmore, List.append_assoc]
    · rw [List.length_append, hlength, hlength', List.count_append]
  outputs := by
    obtain ⟨sent, hsent, hlength⟩ := h.outputs
    obtain ⟨more, hmore, hlength'⟩ := h'.outputs
    refine ⟨sent ++ more, ?_, ?_⟩
    · rw [hmore, hsent, List.append_assoc]
    · rw [List.length_append, hlength, hlength', List.count_append]
  base hnot := by
    rw [List.mem_append, not_or] at hnot
    exact (h'.base hnot.2).trans (h.base hnot.1)

end Totals

theorem Changes.totals (h : c.Changes i next) : Totals [i.operation] c next where
  cells := by
    by_cases hstores : i.operation.stores = true
    · obtain ⟨index, v, -, -, hmemory⟩ := h.overwrites hstores
      have hsubset : {address : ℤ | next.read address ≠ c.read address} ⊆ {(index : ℤ)} := by
        intro address hne
        by_contra hnot
        exact hne (hmemory.read_of_ne address hnot)
      have hle := Set.encard_le_encard hsubset
      rw [Set.encard_singleton] at hle
      simpa [hstores] using hle
    · have hmemory := h.memory
      rw [if_neg hstores] at hmemory
      simp [read_congr hmemory]
  inputs := by
    have hinputs := h.inputs
    split_ifs at hinputs with hop
    · obtain ⟨v, hv⟩ := hinputs
      exact ⟨[v], hv, by simp [hop]⟩
    · exact ⟨[], hinputs.symm, by simp [hop]⟩
  outputs := by
    have houtputs := h.outputs
    split_ifs at houtputs with hop
    · obtain ⟨v, -, hv⟩ := houtputs
      exact ⟨[v], by simp [hv], by simp [hop]⟩
    · exact ⟨[], by simp [houtputs], by simp [hop]⟩
  base hnot := by
    have hbase := h.base
    rwa [if_neg fun hop => hnot (by simp [hop])] at hbase

theorem trail_succ_of_runs (hi : c.fetch = .ok i) (hs : c.step = .runs next) (n : ℕ) :
    trail (n + 1) c = (c.position, i) :: trail n next := by
  rw [trail, hi, hs]

/-- The operations of the instructions that a run comes to. -/
def operations (n : ℕ) (c : Computer) : List Operation :=
  (trail n c).map fun entry => entry.2.operation

theorem totals_of_after (h : after n c = some d) :
    (operations n c).length = n ∧ Totals (operations n c) c d := by
  -- the first instruction is a change, and the others are a course of the computer that it leaves
  induction n generalizing c with
  | zero =>
    cases h
    exact ⟨rfl, .refl _⟩
  | succ n ih =>
    cases hs : c.step with
    | rests rest =>
      rw [after_succ_of_rests hs] at h
      cases h
    | runs next =>
      rw [after_succ_of_runs hs] at h
      obtain ⟨i, hi, -, hchanges⟩ := step_eq_runs_iff_changes.1 hs
      obtain ⟨hlength, htotals⟩ := ih h
      have hcons : operations (n + 1) c = i.operation :: operations n next := by
        rw [operations, trail_succ_of_runs hi hs, List.map_cons, operations]
      rw [hcons]
      exact ⟨by rw [List.length_cons, hlength], hchanges.totals.trans htotals⟩

/-- **One instruction changes at most one cell**, and all that it takes is read from the computer as
it was, even if the cell is part of the instruction. -/
theorem changes_of_step :
    (∀ c next : Computer, c.step = .runs next ↔
      ∃ i, c.fetch = .ok i ∧ i.operation ≠ .halt ∧ c.Changes i next) ∧
    (∀ (c : Computer) (rest : Rest), c.step = .rests rest →
      rest.computer.memory = c.memory ∧
        ((∀ fault, rest.ending ≠ .failed fault) → rest.computer = c)) ∧
    ∀ (n : ℕ) (c d : Computer), after n c = some d →
      (operations n c).length = n ∧ Totals (operations n c) c d := by
  refine ⟨fun c next => step_eq_runs_iff_changes, fun c rest h => ?_,
    fun n c d h => totals_of_after h⟩
  obtain ⟨ending, left⟩ := rest
  refine ⟨?_, fun hending => eq_of_step_rests h hending⟩
  cases ending with
  | failed fault => exact (step_eq_failed_iff.1 h).abandoned.memory
  | halted | needsInput => rw [eq_of_step_rests h (by simp)]

/-- A program that moves the base, adds an instruction's own word to another cell and puts the sum
in the place of the word, then writes past its end, and in the end has nowhere to put its input. -/
def selfAdding : List ℤ := [109, 9, 22201, -7, -8, -7, 1101, 1, 1, 14, 3, -1]

/-- An instruction that reads and overwrites its own word, memory that grows by more than one cell,
and an input that cannot be completed. -/
theorem changes_of_step_selfAdding :
    ∃ c next last left, after 1 ((load selfAdding).feedAll [5]) = some c ∧ c.step = .runs next ∧
      (∃ i, c.fetch = .ok i ∧ i.operation = .add ∧ i.third = .relative ∧ c.Changes i next) ∧
      next.memory = #[109, 9, 22210, -7, -8, -7, 1101, 1, 1, 14, 3, -1] ∧
      after 3 ((load selfAdding).feedAll [5]) = some last ∧
      Totals [.adjustBase, .add, .add] ((load selfAdding).feedAll [5]) last ∧
      last.memory = #[109, 9, 22210, -7, -8, -7, 1101, 1, 1, 14, 3, -1, 0, 0, 2] ∧
      last.step = .rests ⟨.failed (.outOfBounds (-1)), left⟩ ∧ left.inputs = [] ∧
      left.memory = last.memory := by
  obtain ⟨hchanges, hrests, htotals⟩ := changes_of_step
  have hstep : Computer.step ⟨selfAdding.toArray, 2, 9, [5], #[]⟩ =
      .runs ⟨#[109, 9, 22210, -7, -8, -7, 1101, 1, 1, 14, 3, -1], 6, 9, [5], #[]⟩ := by decide
  have hafter : after 3 ((load selfAdding).feedAll [5]) =
      some ⟨#[109, 9, 22210, -7, -8, -7, 1101, 1, 1, 14, 3, -1, 0, 0, 2], 10, 9, [5], #[]⟩ := by
    decide
  have hrest : Computer.step
      ⟨#[109, 9, 22210, -7, -8, -7, 1101, 1, 1, 14, 3, -1, 0, 0, 2], 10, 9, [5], #[]⟩ =
      .rests ⟨.failed (.outOfBounds (-1)),
        ⟨#[109, 9, 22210, -7, -8, -7, 1101, 1, 1, 14, 3, -1, 0, 0, 2], 10, 9, [], #[]⟩⟩ := by
    decide
  obtain ⟨i, hi, -, hchange⟩ := (hchanges _ _).1 hstep
  obtain rfl : i = ⟨.add, .relative, .relative, .relative⟩ :=
    Except.ok.inj (hi.symm.trans (by decide))
  exact ⟨_, _, _, _, by decide, hstep, ⟨_, hi, rfl, rfl, hchange⟩, rfl, hafter,
    (htotals 3 _ _ hafter).2, rfl, hrest, rfl, (hrests _ _ hrest).1⟩

end Shipboard.Computer
