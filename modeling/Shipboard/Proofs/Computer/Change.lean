import Shipboard.Proofs.Computer.Parameter

/-!
# What becomes of a computer

A completed instruction puts at most one value into a cell, and it may put it anywhere: into its own
word, into one of its parameters or operands, or past the end of memory.  Whatever it meets there,
the change is the same, since everything is read before anything is written.

* `Operation.stores` are the operations that put a result into a cell, `Results c i v` is the
  result, and `Overwrites c index v next` says what becomes of memory;
* `Changes c i next` says of each part of the computer `c` what becomes of it when the instruction
  `i` is completed, and `next` is what comes of `c`;
* `Changes.unique`: nothing is left open by this.
-/

namespace Shipboard.Computer

variable {c d next : Computer} {i : Instruction} {index : ℕ} {v w left right : ℤ}

/-! ### Results -/

namespace Operation

/-- The operations that put a result into a cell. -/
def stores : Operation → Bool
  | add | multiply | input | lessThan | equals => true
  | output | jumpIfTrue | jumpIfFalse | adjustBase | halt => false

/-- The operations that may jump. -/
def branches : Operation → Bool
  | jumpIfTrue | jumpIfFalse => true
  | add | multiply | input | output | lessThan | equals | adjustBase | halt => false

/-- Whether a jump is taken on a value. -/
def takenOn : Operation → ℤ → Bool
  | jumpIfTrue, test => test ≠ 0
  | jumpIfFalse, test => test = 0
  | _, _ => false

theorem ne_of_stores {operation : Operation} (h : operation.stores = true) :
    operation ≠ output ∧ operation ≠ adjustBase ∧ operation.branches = false := by
  cases operation <;> simp [stores, branches] at h ⊢

theorem ne_of_branches {operation : Operation} (h : operation.branches = true) :
    operation.stores = false ∧ operation ≠ input ∧ operation ≠ output ∧
      operation ≠ adjustBase := by
  cases operation <;> simp [stores, branches] at h ⊢

/-- Operations with three parameters combine two of them in the third. -/
theorem stores_of_arity {operation : Operation} (h : operation.arity = 3) :
    operation.stores = true ∧ operation ≠ input := by
  cases operation <;> simp [arity, stores] at h ⊢

/-- Operations with two parameters are jumps. -/
theorem branches_of_arity {operation : Operation} (h : operation.arity = 2) :
    operation.branches = true := by
  cases operation <;> simp [arity, branches] at h ⊢

end Operation

/-- The mode of the last parameter. -/
def Instruction.lastMode (i : Instruction) : Mode :=
  match i.operation.arity with
  | 0 | 1 => i.first
  | 2 => i.second
  | _ => i.third

/-- The values that the first two parameters denote. -/
def Reads (c : Computer) (i : Instruction) (left right : ℤ) : Prop :=
  c.Denotes i.first 0 left ∧ c.Denotes i.second 1 right

/-- The value that an instruction puts into a cell: what it makes of its operands, or the next
input. -/
def Results (c : Computer) (i : Instruction) (v : ℤ) : Prop :=
  match i.operation with
  | .add => ∃ left right, c.Reads i left right ∧ v = left + right ∧ fits v = true
  | .multiply => ∃ left right, c.Reads i left right ∧ v = left * right ∧ fits v = true
  | .lessThan => ∃ left right, c.Reads i left right ∧ v = if left < right then 1 else 0
  | .equals => ∃ left right, c.Reads i left right ∧ v = if left = right then 1 else 0
  | .input => c.inputs.head? = some v
  | .output | .jumpIfTrue | .jumpIfFalse | .adjustBase | .halt => False

theorem Reads.unique {l r : ℤ} (h : c.Reads i left right) (h' : c.Reads i l r) :
    left = l ∧ right = r :=
  ⟨h.1.unique h'.1, h.2.unique h'.2⟩

theorem Results.unique (h : c.Results i v) (h' : c.Results i w) : v = w := by
  unfold Results at h h'
  cases hop : i.operation <;> rw [hop] at h h'
  case add | multiply =>
    obtain ⟨left, right, hreads, rfl, -⟩ := h
    obtain ⟨l, r, hreads', rfl, -⟩ := h'
    obtain ⟨rfl, rfl⟩ := hreads.unique hreads'
    rfl
  case lessThan | equals =>
    obtain ⟨left, right, hreads, rfl⟩ := h
    obtain ⟨l, r, hreads', rfl⟩ := h'
    obtain ⟨rfl, rfl⟩ := hreads.unique hreads'
    rfl
  case input => exact Option.some.inj (h.symm.trans h')
  case output | jumpIfTrue | jumpIfFalse | adjustBase | halt => exact h.elim

/-! ### The cell that is written -/

/-- What becomes of memory when a value is put into a cell. -/
structure Overwrites (c : Computer) (index : ℕ) (v : ℤ) (next : Computer) : Prop where
  read_eq : next.read index = .ok v
  read_of_ne : ∀ address : ℤ, address ≠ index → next.read address = c.read address
  size_eq : next.memory.size = max c.memory.size (index + 1)
  /-- The new cells in front of the one that is written are zero. -/
  zeros : ∀ k, c.memory.size ≤ k → k < index → next.memory[k]? = some 0
  /-- The old cells stay as they are, and so do those that no address reaches. -/
  kept : ∀ k < c.memory.size, k ≠ index → next.memory[k]? = c.memory[k]?

theorem Overwrites.of_memory_eq (hindex : index < memoryLimit)
    (h : next.memory = (c.store index v).memory) : c.Overwrites index v next := by
  have hvalue (k : ℕ) : next.value k = if k = index then v else c.value k := by
    rw [← value_store, value, value, h]
  have hsize : next.memory.size = max c.memory.size (index + 1) := by
    rw [h, size_store]
  refine ⟨?_, fun address hne => ?_, hsize, fun k hle hlt => ?_, fun k hlt hne => ?_⟩
  · rw [read_natCast hindex, hvalue, if_pos rfl]
  · unfold read
    cases hcell : cell address with
    | error fault => rfl
    | ok k =>
      have hk : k ≠ index := by
        rintro rfl
        exact hne (cell_eq_ok_iff.1 hcell).1
      simp only [Except.map, hvalue, hk, if_false]
  · rw [getElem?_memory, if_pos (by omega), hvalue, if_neg (by omega), value_of_size_le hle]
  · rw [getElem?_memory, getElem?_memory, if_pos (by omega), if_pos hlt, hvalue, if_neg hne]

/-- Nothing of memory is left open. -/
theorem Overwrites.memory_eq (h : c.Overwrites index v next) (hd : c.Overwrites index v d) :
    next.memory = d.memory := by
  apply Array.ext_getElem?
  intro k
  rcases lt_trichotomy k index with hlt | rfl | hlt
  · by_cases hk : k < c.memory.size
    · rw [h.kept k hk hlt.ne, hd.kept k hk hlt.ne]
    · rw [h.zeros k (not_lt.1 hk) hlt, hd.zeros k (not_lt.1 hk) hlt]
  · have hread : next.read k = d.read k := h.read_eq.trans hd.read_eq.symm
    have hlt : k < memoryLimit := by
      obtain ⟨j, hj, -⟩ := read_eq_ok_iff.1 h.read_eq
      obtain ⟨heq, hlt⟩ := cell_eq_ok_iff.1 hj
      omega
    rw [read_natCast hlt, read_natCast hlt] at hread
    rw [getElem?_memory, getElem?_memory, h.size_eq, hd.size_eq, Except.ok.inj hread]
  · by_cases hk : k < c.memory.size
    · rw [h.kept k hk hlt.ne', hd.kept k hk hlt.ne']
    · have hnext := h.size_eq
      have hsize := hd.size_eq
      rw [Array.getElem?_eq_none (by omega), Array.getElem?_eq_none (by omega)]

/-! ### All parts of a computer -/

/-- What becomes of a computer when it completes an instruction. -/
structure Changes (c : Computer) (i : Instruction) (next : Computer) : Prop where
  /-- One cell is overwritten, at the address that the last parameter denotes, or none. -/
  memory : if i.operation.stores then
      ∃ index v, c.Points i.lastMode (i.operation.arity - 1) index ∧ c.Results i v ∧
        c.Overwrites index v next
    else next.memory = c.memory
  /-- An input takes the first of the inputs. -/
  inputs : if i.operation = .input then ∃ v, c.inputs = v :: next.inputs
    else next.inputs = c.inputs
  /-- An output adds one value. -/
  outputs : if i.operation = .output then
      ∃ v, c.Denotes i.first 0 v ∧ next.outputs = c.outputs.push v
    else next.outputs = c.outputs
  /-- The base is moved by a value. -/
  base : if i.operation = .adjustBase then
      ∃ v, c.Denotes i.first 0 v ∧ fits (c.base + v) = true ∧ next.base = c.base + v
    else next.base = c.base
  /-- The next instruction is behind this one, unless a jump is taken. -/
  position : if i.operation.branches then
      ∃ test goal, c.Reads i test goal ∧
        if i.operation.takenOn test then next.position < memoryLimit ∧ goal = next.position
        else next.position = c.position + 1 + i.operation.arity
    else next.position = c.position + 1 + i.operation.arity

theorem eq_of_parts (hmemory : c.memory = d.memory) (hposition : c.position = d.position)
    (hbase : c.base = d.base) (hinputs : c.inputs = d.inputs) (houtputs : c.outputs = d.outputs) :
    c = d := by
  cases c
  cases d
  cases hmemory
  cases hposition
  cases hbase
  cases hinputs
  cases houtputs
  rfl

namespace Changes

/-- The change determines what comes of the computer. -/
theorem unique (h : c.Changes i next) (h' : c.Changes i d) : next = d := by
  obtain ⟨hmemory, hinputs, houtputs, hbase, hposition⟩ := h
  obtain ⟨hmemory', hinputs', houtputs', hbase', hposition'⟩ := h'
  apply eq_of_parts
  case hmemory =>
    split_ifs at hmemory hmemory'
    · obtain ⟨index, v, hpoints, hresult, hnext⟩ := hmemory
      obtain ⟨k, w, hpoints', hresult', hd⟩ := hmemory'
      obtain rfl := hpoints.unique hpoints'
      obtain rfl := hresult.unique hresult'
      exact hnext.memory_eq hd
    · exact hmemory.trans hmemory'.symm
  case hposition =>
    split_ifs at hposition hposition'
    · obtain ⟨test, goal, hreads, hposition⟩ := hposition
      obtain ⟨t, g, hreads', hposition'⟩ := hposition'
      obtain ⟨rfl, rfl⟩ := hreads.unique hreads'
      split_ifs at hposition hposition' <;> omega
    · exact hposition.trans hposition'.symm
  case hbase =>
    split_ifs at hbase hbase'
    · obtain ⟨v, hv, -, hnext⟩ := hbase
      obtain ⟨w, hw, -, hd⟩ := hbase'
      rw [hnext, hd, hv.unique hw]
    · exact hbase.trans hbase'.symm
  case hinputs =>
    split_ifs at hinputs hinputs'
    · obtain ⟨v, hv⟩ := hinputs
      obtain ⟨w, hw⟩ := hinputs'
      exact (List.cons.inj (hv.symm.trans hw)).2
    · exact hinputs.trans hinputs'.symm
  case houtputs =>
    split_ifs at houtputs houtputs'
    · obtain ⟨v, hv, hnext⟩ := houtputs
      obtain ⟨w, hw, hd⟩ := houtputs'
      rw [hnext, hd, hv.unique hw]
    · exact houtputs.trans houtputs'.symm

theorem overwrites (h : c.Changes i next) (hstores : i.operation.stores = true) :
    ∃ index v, c.Points i.lastMode (i.operation.arity - 1) index ∧ c.Results i v ∧
      c.Overwrites index v next := by
  have hmemory := h.memory
  rwa [if_pos hstores] at hmemory

/-- An operation that puts a result into a cell changes nothing else but the position and, if it is
an input, the inputs. -/
theorem of_stores (hstores : i.operation.stores = true)
    (hpoints : c.Points i.lastMode (i.operation.arity - 1) index) (hresult : c.Results i v)
    (hmemory : next.memory = (c.store index v).memory)
    (hinputs : if i.operation = .input then ∃ v, c.inputs = v :: next.inputs
      else next.inputs = c.inputs)
    (houtputs : next.outputs = c.outputs) (hbase : next.base = c.base)
    (hposition : next.position = c.position + 1 + i.operation.arity) : c.Changes i next := by
  obtain ⟨houtput, hadjust, hbranches⟩ := Operation.ne_of_stores hstores
  refine ⟨?_, hinputs, ?_, ?_, ?_⟩
  · rw [if_pos hstores]
    exact ⟨index, v, hpoints, hresult, .of_memory_eq hpoints.2.1 hmemory⟩
  · rw [if_neg houtput, houtputs]
  · rw [if_neg hadjust, hbase]
  · rw [hbranches, if_neg Bool.false_ne_true, hposition]

/-- A jump changes nothing but the position. -/
theorem of_branches (hbranches : i.operation.branches = true) (hreads : c.Reads i left right)
    {place : ℕ}
    (hplace : if i.operation.takenOn left then place < memoryLimit ∧ right = place
      else place = c.position + 1 + i.operation.arity) :
    c.Changes i { c with position := place } := by
  obtain ⟨hstores, hinput, houtput, hadjust⟩ := Operation.ne_of_branches hbranches
  refine ⟨?_, ?_, ?_, ?_, ?_⟩
  · rw [hstores, if_neg Bool.false_ne_true]
  · rw [if_neg hinput]
  · rw [if_neg houtput]
  · rw [if_neg hadjust]
  · rw [if_pos hbranches]
    exact ⟨left, right, hreads, hplace⟩

end Changes

end Shipboard.Computer
