import Shipboard.GravityAssist
import Shipboard.Proofs.Computer.Failing
import Shipboard.Proofs.Computer.Parameter

/-!
# The limits of position and memory

Whatever is asked of a computer, it stays within the limit of memory: it never gets further than
the limit, memory does not grow beyond it, and the cells beyond it, which only a long program has,
stay as they are.

* `Means.within`: an instruction that does not stop the computer has read all its parameters, so
  that they are within the limit, and so is the cell that it refers to;
* `Keeps c d` is what does not change when the computer `c` becomes `d`, in one step
  (`keeps_of_step`), in a course of steps (`keeps_of_after`) or by a `Request` (`Request.keeps`);
* `Occurs budget c requests d`: the computer `d` occurs while requests are served, one after the
  other, beginning with `c`;
* `limits_of_occurs` is the main result.
-/

namespace Shipboard.Computer

variable {c d next : Computer} {i : Instruction} {e : Effect}

/-! ### Parameters are within the limit -/

theorem operand_lt {mode : Mode} {n : ℕ} {v : ℤ} (h : c.operand mode n = .ok v) :
    c.position + 1 + n < memoryLimit :=
  (operand_eq_ok_iff.1 h).position_lt

theorem target_lt {mode : Mode} {n k : ℕ} (h : c.target mode n = .ok k) :
    c.position + 1 + n < memoryLimit ∧ k < memoryLimit := by
  obtain ⟨hlt, hk, -⟩ := target_eq_ok_iff.1 h
  exact ⟨hlt, hk⟩

/-- The cell that an effect refers to is within the limit. -/
def Effect.Within : Effect → Prop
  | .store index _ | .receive index _ => index < memoryLimit
  | .jump position => position < memoryLimit
  | .halt | .wait | .emit _ | .rebase _ | .pass => True

theorem Combines.position_lt {l r v : ℤ} (h : c.Combines i l r v e) :
    c.position + 3 < memoryLimit ∧ e.Within := by
  obtain ⟨-, -, index, hindex, rfl⟩ := h
  exact target_lt hindex

theorem Branches.position_lt {test goal : ℤ} {taken : Prop} (h : c.Branches i test goal taken e) :
    c.position + 2 < memoryLimit ∧ e.Within := by
  obtain ⟨-, hgoal, ⟨-, place, hplace, rfl⟩ | ⟨-, rfl⟩⟩ := h
  · exact ⟨operand_lt hgoal, (cell_eq_ok_iff.1 hplace).2⟩
  · exact ⟨operand_lt hgoal, trivial⟩

/-- An instruction that does not stop the computer has read its last parameter. -/
theorem Means.within (h : c.Means i e) :
    e = .halt ∨ e = .wait ∨ (c.position + i.operation.arity < memoryLimit ∧ e.Within) := by
  -- each operation reads its last parameter, even where it needs no value from it
  unfold Means at h
  cases hop : i.operation <;> rw [hop] at h
  case halt => exact .inl h
  case add | multiply =>
    obtain ⟨l, r, h, -⟩ := h
    exact .inr (.inr h.position_lt)
  case lessThan | equals =>
    obtain ⟨l, r, h⟩ := h
    exact .inr (.inr h.position_lt)
  case jumpIfTrue | jumpIfFalse =>
    obtain ⟨test, goal, h⟩ := h
    exact .inr (.inr h.position_lt)
  case output =>
    obtain ⟨v, hv, rfl⟩ := h
    exact .inr (.inr ⟨operand_lt hv, trivial⟩)
  case adjustBase =>
    obtain ⟨v, hv, -, rfl⟩ := h
    exact .inr (.inr ⟨operand_lt hv, trivial⟩)
  case input =>
    obtain ⟨-, rfl⟩ | ⟨v, others, index, -, hindex, rfl⟩ := h
    · exact .inr (.inl rfl)
    · exact .inr (.inr (target_lt hindex))

/-! ### What is kept -/

/-- What is kept when the computer `c` becomes `d`. -/
structure Keeps (c d : Computer) : Prop where
  size_le : c.memory.size ≤ d.memory.size
  size_le_max : d.memory.size ≤ max c.memory.size memoryLimit
  getElem?_eq : ∀ k, memoryLimit ≤ k → d.memory[k]? = c.memory[k]?
  position_le : c.position ≤ memoryLimit → d.position ≤ memoryLimit

namespace Keeps

theorem of_memory_eq (hmemory : d.memory = c.memory)
    (hposition : c.position ≤ memoryLimit → d.position ≤ memoryLimit) : Keeps c d where
  size_le := by rw [hmemory]
  size_le_max := by rw [hmemory]; exact le_max_left _ _
  getElem?_eq k _ := by rw [hmemory]
  position_le := hposition

theorem refl (c : Computer) : Keeps c c := of_memory_eq rfl id

theorem trans (h : Keeps c d) (h' : Keeps d next) : Keeps c next where
  size_le := h.size_le.trans h'.size_le
  size_le_max := by
    have hd := h.size_le_max
    have hnext := h'.size_le_max
    omega
  getElem?_eq k hk := (h'.getElem?_eq k hk).trans (h.getElem?_eq k hk)
  position_le hc := h'.position_le (h.position_le hc)

end Keeps

theorem keeps_store {index : ℕ} (h : index < memoryLimit) (v : ℤ) : Keeps c (c.store index v) where
  size_le := by rw [size_store]; exact le_max_left _ _
  size_le_max := by rw [size_store]; omega
  getElem?_eq k hk := by
    -- the cell is below the limit, and so is where memory ends if it has to grow
    have hne : k ≠ index := by omega
    have hsize : k < max c.memory.size (index + 1) ↔ k < c.memory.size := by omega
    simp only [getElem?_memory, size_store, value_store, hne, hsize, if_false]
  position_le hc := by rwa [store_position]

theorem keeps_write {address v : ℤ} (h : c.write address v = .ok d) : Keeps c d := by
  obtain ⟨index, hindex, rfl⟩ := map_eq_ok.1 h
  exact keeps_store (cell_eq_ok_iff.1 hindex).2 v

theorem keeps_advance {arity : ℕ} (h : c.position + arity < memoryLimit) :
    Keeps c (c.advance arity) := by
  refine .of_memory_eq rfl fun _ => ?_
  show c.position + 1 + arity ≤ memoryLimit
  omega

theorem keeps_of_perform {arity : ℕ} (hposition : c.position + arity < memoryLimit)
    (hwithin : e.Within) (hp : c.perform arity e = .runs next) : Keeps c next := by
  cases e with
  | halt | wait => cases hp
  | store index v =>
    cases hp
    refine (keeps_store hwithin v).trans (keeps_advance ?_)
    rwa [store_position]
  | receive index v =>
    cases hp
    have htail : Keeps c { c with inputs := c.inputs.tail } := .of_memory_eq rfl id
    refine (htail.trans (keeps_store hwithin v)).trans (keeps_advance ?_)
    rwa [store_position]
  | emit v =>
    cases hp
    have hemit : Keeps c { c with outputs := c.outputs.push v } := .of_memory_eq rfl id
    exact hemit.trans (keeps_advance hposition)
  | rebase base =>
    cases hp
    have hrebase : Keeps c { c with base } := .of_memory_eq rfl id
    exact hrebase.trans (keeps_advance hposition)
  | jump position =>
    cases hp
    exact .of_memory_eq rfl fun _ => le_of_lt hwithin
  | pass =>
    cases hp
    exact keeps_advance hposition

theorem keeps_of_step (h : c.step = .runs next) : Keeps c next := by
  obtain ⟨i, e, -, he, hp⟩ := step_eq_runs_iff.1 h
  obtain rfl | rfl | ⟨hposition, hwithin⟩ := (effect_eq_ok_iff.1 he).within
  · cases hp
  · cases hp
  · exact keeps_of_perform hposition hwithin hp

/-- A computer that rests has its memory and its position, even if it has failed. -/
theorem keeps_of_rests {rest : Rest} (h : c.step = .rests rest) : Keeps c rest.computer := by
  obtain ⟨ending, left⟩ := rest
  cases ending with
  | failed fault =>
    have habandoned := (step_eq_failed_iff.1 h).abandoned
    exact .of_memory_eq habandoned.memory fun hc => habandoned.position.trans_le hc
  | halted | needsInput =>
    rw [eq_of_step_rests h (by simp)]
    exact .refl c

theorem keeps_of_after {n : ℕ} (h : after n c = some d) : Keeps c d := by
  induction n generalizing c with
  | zero => cases h; exact .refl _
  | succ n ih =>
    cases hs : c.step with
    | runs next =>
      rw [after_succ_of_runs hs] at h
      exact (keeps_of_step hs).trans (ih h)
    | rests rest => rw [after_succ_of_rests hs] at h; cases h

theorem keeps_of_run {budget : ℕ} {rest : Rest} (h : run budget c = some rest) :
    Keeps c rest.computer := by
  obtain ⟨n, -, d, hd, hrest⟩ := run_eq_some_iff.1 h
  exact (keeps_of_after hd).trans (keeps_of_rests hrest)

/-- The want of an input is a fault of the same computer. -/
theorem Rest.untilHalt_computer (rest : Rest) : rest.untilHalt.computer = rest.computer := by
  unfold untilHalt
  split <;> rfl

theorem keeps_of_runToHalt {budget : ℕ} {rest : Rest} (h : runToHalt budget c = some rest) :
    Keeps c rest.computer := by
  obtain ⟨rest, hrun, rfl⟩ := Option.map_eq_some_iff.1 h
  rw [rest.untilHalt_computer]
  exact keeps_of_run hrun

/-! ### Requests -/

/-- Something that is asked of a computer. -/
inductive Request
  /-- Run until it halts or waits for an input. -/
  | run
  /-- Run until it halts. -/
  | runToHalt
  /-- Queue a value. -/
  | push (value : ℤ)
  /-- Queue some values. -/
  | extend (values : List ℤ)
  /-- Tell the value at an address. -/
  | read (address : ℤ)
  /-- Overwrite the value at an address. -/
  | write (address value : ℤ)
  /-- Tell the outputs. -/
  | outputs
  /-- Take the outputs. -/
  | takeOutputs
  deriving DecidableEq, Repr

namespace Request

/-- The computer that is left when a request has been served.  There is none if a run does not end
within the budget; a value that cannot be written changes nothing. -/
def serve? (budget : ℕ) (c : Computer) : Request → Option Computer
  | run => (c.run budget).map Rest.computer
  | runToHalt => (c.runToHalt budget).map Rest.computer
  | push value => some (c.feed value)
  | extend values => some (c.feedAll values)
  | read _ => some c
  | write address value =>
    match c.write address value with
    | .ok next => some next
    | .error _ => some c
  | outputs => some c
  | takeOutputs => some c.takeOutputs

/-- A request to run. -/
def Runs (request : Request) : Prop := request = run ∨ request = runToHalt

theorem keeps {budget : ℕ} {request : Request} (h : request.serve? budget c = some d) :
    Keeps c d := by
  cases request with
  | run =>
    obtain ⟨rest, hrun, rfl⟩ := Option.map_eq_some_iff.1 h
    exact keeps_of_run hrun
  | runToHalt =>
    obtain ⟨rest, hrun, rfl⟩ := Option.map_eq_some_iff.1 h
    exact keeps_of_runToHalt hrun
  | write address value =>
    cases hwrite : c.write address value <;> rw [serve?, hwrite] at h <;> cases h
    · exact .refl c
    · exact keeps_write hwrite
  | push | extend | takeOutputs => cases h; exact .of_memory_eq rfl id
  | read | outputs => cases h; exact .refl c

end Request

/-- A computer that occurs while requests are served, one after the other. -/
inductive Occurs (budget : ℕ) : Computer → List Request → Computer → Prop
  /-- Before the first request. -/
  | now {c : Computer} {requests : List Request} : Occurs budget c requests c
  /-- In the course of a run, which need not end. -/
  | within {c d : Computer} {request : Request} {later : List Request} {n : ℕ}
    (hruns : request.Runs) (h : after n c = some d) : Occurs budget c (request :: later) d
  /-- Once the first request has been served. -/
  | later {c next d : Computer} {request : Request} {later : List Request}
    (h : request.serve? budget c = some next) (hd : Occurs budget next later d) :
    Occurs budget c (request :: later) d

theorem Occurs.keeps {budget : ℕ} {requests : List Request} (h : Occurs budget c requests d) :
    Keeps c d := by
  induction h with
  | now => exact .refl _
  | within _ h => exact keeps_of_after h
  | later h _ ih => exact (Request.keeps h).trans ih

/-! ### Jobs -/

theorem keeps_of_finish {budget : ℕ} (h : c.finish budget = .ok d) : Keeps c d := by
  unfold finish at h
  split at h
  · cases h
  · cases h
  · next hrun =>
    cases h
    exact keeps_of_runToHalt hrun

theorem finish_ne_outOfRange (budget : ℕ) : c.finish budget ≠ .error .outOfRange := by
  unfold finish
  split <;> nofun

theorem execute_ne_outOfRange (budget : ℕ) (program : List ℤ) :
    GravityAssist.execute budget program ≠ .error .outOfRange := by
  intro h
  rcases bind_eq_error.1 h with h | ⟨d, -, h⟩
  · exact finish_ne_outOfRange budget h
  · cases h

/-- The memory that a gravity assist program leaves has a first cell. -/
theorem runWith_ne_outOfRange (budget : ℕ) (program : List ℤ) (noun verb : ℤ) :
    GravityAssist.runWith budget program noun verb ≠ .error .outOfRange := by
  unfold GravityAssist.runWith
  split_ifs with hlength
  · nofun
  intro h
  obtain h | ⟨memory, hmemory, h⟩ := bind_eq_error.1 h
  · exact execute_ne_outOfRange budget _ h
  · obtain ⟨d, hd, hmemory⟩ := bind_eq_ok.1 hmemory
    cases hmemory
    have hsize := (keeps_of_finish hd).size_le
    have hpos : 0 < d.memory.size := by
      simp only [load, List.size_toArray, List.length_set] at hsize
      omega
    rw [Array.getElem?_toList, Array.getElem?_eq_getElem hpos] at h
    cases h

/-- **A computer stays within its limits**, whatever is asked of it with any program, and also in
the course of a run: positions and sizes never leave a signed word of sixty-four bits. -/
theorem limits_of_occurs :
    (∀ (program : List ℤ) (budget : ℕ) (requests : List Request) (c : Computer),
      Occurs budget (load program) requests c →
        c.position ≤ memoryLimit ∧
        c.memory.size ≤ max program.length memoryLimit ∧
        (∀ later d, Occurs budget c later d → c.memory.size ≤ d.memory.size) ∧
        (∀ k, memoryLimit ≤ k → c.memory[k]? = program[k]?) ∧
        (∀ operation : Operation, ∀ n ≤ operation.arity, c.position + 1 + n < 2 ^ 63) ∧
        (∀ address index, cell address = .ok index → index + 1 < 2 ^ 63) ∧
        (program.length < 2 ^ 63 → c.memory.size < 2 ^ 63)) ∧
    ∀ (program : List ℤ) (budget : ℕ) (noun verb : ℤ),
      GravityAssist.runWith budget program noun verb ≠ .error .outOfRange := by
  refine ⟨fun program budget requests c h => ?_,
    fun program budget => runWith_ne_outOfRange budget program⟩
  have hkeeps := h.keeps
  have hposition : c.position ≤ memoryLimit := hkeeps.position_le (Nat.zero_le _)
  have hsize : c.memory.size ≤ max program.length memoryLimit := hkeeps.size_le_max
  have hlimit : memoryLimit + 4 < 2 ^ 63 := by decide
  refine ⟨hposition, hsize, fun later d hd => hd.keeps.size_le, fun k hk => ?_,
    fun operation n hn => ?_, fun address index hindex => ?_, fun hlength => by omega⟩
  · rw [hkeeps.getElem?_eq k hk, load, List.getElem?_toArray]
  · have harity : operation.arity ≤ 3 := by cases operation <;> decide
    omega
  · have hlt := (cell_eq_ok_iff.1 hindex).2
    omega

/-- A value that cannot be written, one that is written past the end of memory, a run that has to
wait and one that comes to a halt. -/
theorem limits_of_occurs_copy :
    ∃ c, Occurs 9 (load [3, 7, 4, 7, 99])
        [.write (-1) 5, .write 9 4, .run, .push 3, .runToHalt, .takeOutputs] c ∧
      c.position = 4 ∧ c.memory = #[3, 7, 4, 7, 99, 0, 0, 3, 0, 4] ∧
      c.position ≤ memoryLimit ∧ c.memory.size ≤ max 5 memoryLimit ∧
      GravityAssist.runWith 9 [1, 0, 0, 0, 99] 4 0 ≠ .error .outOfRange := by
  have hoccurs : Occurs 9 (load [3, 7, 4, 7, 99])
      [.write (-1) 5, .write 9 4, .run, .push 3, .runToHalt, .takeOutputs]
      ⟨#[3, 7, 4, 7, 99, 0, 0, 3, 0, 4], 4, 0, [], #[]⟩ :=
    .later rfl <| .later rfl <| .later rfl <| .later rfl <| .later rfl <| .later rfl .now
  obtain ⟨hoccurrence, hfirst⟩ := limits_of_occurs
  obtain ⟨hposition, hsize, -⟩ := hoccurrence _ _ _ _ hoccurs
  exact ⟨_, hoccurs, rfl, rfl, hposition, hsize, hfirst _ _ _ _⟩

end Shipboard.Computer
