import Shipboard.Proofs.Computer.Memory
import Shipboard.Proofs.Text.Numeral

/-!
# What a parameter denotes

A parameter is taken as an address, as a value, or as an address that counts from the base.  What
it denotes can be told from the values of the cells, the position and the base.

* `Points c mode n index`: the `n`-th parameter denotes the cell `index`.  A parameter that is taken
  as a value denotes the cell of that number (`target_eq_ok_iff`);
* `Denotes c mode n v`: the `n`-th parameter denotes the value `v` (`operand_eq_ok_iff`).

No cell from the limit of memory on is denoted, and no parameter stands there.
-/

namespace Shipboard.Computer

variable {c : Computer} {mode : Mode} {n index : ℕ} {v w : ℤ}

/-- The address that a parameter denotes, counted from the base in relative mode only. -/
def pointer (c : Computer) (mode : Mode) (n : ℕ) : ℤ :=
  match mode with
  | .position | .immediate => c.value (c.position + 1 + n)
  | .relative => c.base + c.value (c.position + 1 + n)

/-- The cell that a parameter denotes. -/
def Points (c : Computer) (mode : Mode) (n index : ℕ) : Prop :=
  c.position + 1 + n < memoryLimit ∧ index < memoryLimit ∧ c.pointer mode n = index

/-- The value that a parameter denotes. -/
def Denotes (c : Computer) (mode : Mode) (n : ℕ) (v : ℤ) : Prop :=
  match mode with
  | .immediate => c.position + 1 + n < memoryLimit ∧ v = c.value (c.position + 1 + n)
  | .position | .relative => ∃ index, c.Points mode n index ∧ v = c.value index

theorem Points.unique {k : ℕ} (h : c.Points mode n index) (h' : c.Points mode n k) :
    index = k := by
  obtain ⟨-, -, heq⟩ := h
  obtain ⟨-, -, heq'⟩ := h'
  omega

theorem parameter_eq_ok_iff :
    c.parameter n = .ok v ↔
      c.position + 1 + n < memoryLimit ∧ v = c.value (c.position + 1 + n) := by
  rw [parameter, read_eq_ok_iff]
  constructor
  · rintro ⟨k, hk, rfl⟩
    obtain ⟨heq, hlt⟩ := cell_eq_ok_iff.1 hk
    obtain rfl : c.position + 1 + n = k := Int.ofNat.inj heq
    exact ⟨hlt, rfl⟩
  · rintro ⟨hlt, rfl⟩
    exact ⟨_, cell_eq_ok_iff.2 ⟨rfl, hlt⟩, rfl⟩

theorem fits_of_lt (h : index < memoryLimit) : fits index = true := by
  rw [fits_eq, Text.fitsSigned_iff, cellBits]
  unfold memoryLimit at h
  omega

/-- The sum of the base and a relative address is checked, but it fits if it denotes a cell. -/
theorem target_eq_ok_iff : c.target mode n = .ok index ↔ c.Points mode n index := by
  simp only [target, bind_eq_ok, cell_eq_ok_iff]
  cases mode with
  | position | immediate =>
    simp only [address, parameter_eq_ok_iff, Points, pointer]
    constructor
    · rintro ⟨a, ⟨hlt, rfl⟩, heq, hindex⟩
      exact ⟨hlt, hindex, heq⟩
    · rintro ⟨hlt, hindex, heq⟩
      exact ⟨_, ⟨hlt, rfl⟩, heq, hindex⟩
  | relative =>
    simp only [address, bind_eq_ok, parameter_eq_ok_iff, checked_eq_ok_iff, Points, pointer]
    constructor
    · rintro ⟨a, ⟨w, ⟨hlt, rfl⟩, -, rfl⟩, heq, hindex⟩
      exact ⟨hlt, hindex, heq⟩
    · rintro ⟨hlt, hindex, heq⟩
      refine ⟨_, ⟨_, ⟨hlt, rfl⟩, ?_, rfl⟩, heq, hindex⟩
      rw [heq]
      exact fits_of_lt hindex

theorem operand_eq_ok_iff : c.operand mode n = .ok v ↔ c.Denotes mode n v := by
  cases mode with
  | immediate => exact parameter_eq_ok_iff
  | position | relative =>
    -- the cell that is read is the one that would be written
    simp only [Denotes, ← target_eq_ok_iff, target, operand, bind_eq_ok, read_eq_ok_iff]
    constructor
    · rintro ⟨a, ha, k, hk, rfl⟩
      exact ⟨k, ⟨a, ha, hk⟩, rfl⟩
    · rintro ⟨k, ⟨a, ha, hk⟩, rfl⟩
      exact ⟨a, ha, k, hk, rfl⟩

theorem Denotes.position_lt (h : c.Denotes mode n v) : c.position + 1 + n < memoryLimit := by
  cases mode with
  | immediate => exact h.1
  | position | relative =>
    obtain ⟨index, hpoints, -⟩ := h
    exact hpoints.1

theorem Denotes.unique (h : c.Denotes mode n v) (h' : c.Denotes mode n w) : v = w := by
  rw [← operand_eq_ok_iff] at h h'
  exact Except.ok.inj (h.symm.trans h')

end Shipboard.Computer
