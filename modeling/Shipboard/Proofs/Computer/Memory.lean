import Shipboard.Proofs.Computer.Step

/-!
# Memory as a function

The cells of a computer, seen as a total function from indices to values (`value`): storing changes
it at one index (`value_store`), and reading and finding a target look at it and at nothing else of
the memory.  What a parameter denotes can be told from it, too (`operand_position`,
`target_position`).
-/

namespace Shipboard.Computer

variable {c : Computer}

theorem cell_eq_ok_iff {address : ℤ} {index : ℕ} :
    cell address = .ok index ↔ address = index ∧ index < memoryLimit := by
  unfold cell
  split_ifs with h
  · rw [Except.ok.injEq]
    omega
  · simp only [false_iff]
    omega

theorem read_eq_ok_iff {address v : ℤ} :
    c.read address = .ok v ↔ ∃ index, cell address = .ok index ∧ v = c.value index := by
  rw [read, map_eq_ok]
  simp only [@eq_comm ℤ v]

theorem read_natCast {index : ℕ} (h : index < memoryLimit) :
    c.read index = .ok (c.value index) :=
  read_eq_ok_iff.2 ⟨index, cell_eq_ok_iff.2 ⟨rfl, h⟩, rfl⟩

/-- The cells that there are and their values are all of memory. -/
theorem getElem?_memory (c : Computer) (k : ℕ) :
    c.memory[k]? = if k < c.memory.size then some (c.value k) else none := by
  split_ifs with hk <;> simp [value, hk]

theorem value_of_size_le {index : ℕ} (h : c.memory.size ≤ index) : c.value index = 0 := by
  simp [value, h]

theorem value_store (k : ℕ) (v : ℤ) (j : ℕ) :
    (c.store k v).value j = if j = k then v else c.value j := by
  unfold store value
  simp only [Array.getD_eq_getD_getElem?]
  by_cases hk : k < c.memory.size
  · rw [dif_pos hk, Array.getElem?_set]
    by_cases hj : j = k
    · simp [hj]
    · simp [hj, Ne.symm hj]
  · have hsize : (c.memory ++ Array.replicate (k - c.memory.size) 0).size = k := by
      simp only [Array.size_append, Array.size_replicate]
      omega
    rw [dif_neg hk, Array.getElem?_push, hsize]
    by_cases hj : j = k
    · simp [hj]
    · rw [if_neg hj, if_neg hj, Array.getElem?_append]
      split_ifs with hlt
      · rfl
      · -- past the old end there are zeros, before and after
        rw [Array.getElem?_replicate, Array.getElem?_eq_none (by omega)]
        split_ifs <;> rfl

theorem size_store (k : ℕ) (v : ℤ) :
    (c.store k v).memory.size = max c.memory.size (k + 1) := by
  unfold store
  split_ifs with h
  · simp; omega
  · simp; omega

theorem value_load (program : List ℤ) (k : ℕ) : (load program).value k = program.getD k 0 := by
  simp [value, load]

theorem fetch_of_lt (h : c.position < c.memory.size) :
    c.fetch = Instruction.decode (c.value c.position) c.position := by
  rw [fetch, getElem?_memory, if_pos h]

theorem fetch_of_size_le (h : c.memory.size ≤ c.position) :
    c.fetch = .error (.outOfBounds c.position) := by
  rw [fetch, getElem?_memory, if_neg (not_lt.2 h)]

/-- The word that is fetched is the value of a cell. -/
theorem fetch_eq_ok_iff {i : Instruction} :
    c.fetch = .ok i ↔ c.position < c.memory.size ∧
      Instruction.decode (c.value c.position) c.position = .ok i := by
  by_cases h : c.position < c.memory.size
  · rw [fetch_of_lt h, and_iff_right h]
  · rw [fetch_of_size_le (not_lt.1 h)]
    simp [h]

/-! ### Parameters -/

variable {n : ℕ}

theorem parameter_eq (place : ℕ) (hplace : c.position + 1 + n = place) (hlt : place < memoryLimit) :
    c.parameter n = .ok (c.value place) := by
  subst hplace
  exact read_natCast hlt

theorem address_position (place a : ℕ) (hplace : c.position + 1 + n = place)
    (hlt : place < memoryLimit) (hvalue : c.value place = a) :
    c.address .position n = .ok (a : ℤ) := by
  rw [← hvalue]
  exact parameter_eq place hplace hlt

theorem target_position (place a : ℕ) (hplace : c.position + 1 + n = place)
    (hlt : place < memoryLimit) (hvalue : c.value place = a) (ha : a < memoryLimit) :
    c.target .position n = .ok a :=
  bind_eq_ok.2 ⟨a, address_position place a hplace hlt hvalue, cell_eq_ok_iff.2 ⟨rfl, ha⟩⟩

theorem operand_position (place a : ℕ) (hplace : c.position + 1 + n = place)
    (hlt : place < memoryLimit) (hvalue : c.value place = a) (ha : a < memoryLimit) :
    c.operand .position n = .ok (c.value a) :=
  bind_eq_ok.2 ⟨a, address_position place a hplace hlt hvalue, read_natCast ha⟩

end Shipboard.Computer
