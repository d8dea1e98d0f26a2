import Mathlib.Tactic
import Shipboard.Arrangement

/-!
# Which arrangements there are

The arrangements of a list without repetitions, described without the way in which they are made.

* `arrangements_succ`: the first pick is any entry, and the others are picked from what is left;
* `mem_arrangements_iff`: the arrangements are the lists of so many different entries;
* `pairwise_arrangements`: if the list is in order, then they come in lexicographic order.
-/

namespace Shipboard

variable {α : Type} {k : ℕ}

section Members

variable [DecidableEq α] {xs ys : List α}

/-- Of a list without repetitions every entry is taken out once. -/
theorem selections_eq_map (h : xs.Nodup) :
    selections xs = xs.map fun x => (x, xs.erase x) := by
  induction xs with
  | nil => rfl
  | cons x xs ih =>
    obtain ⟨hx, hxs⟩ := List.nodup_cons.1 h
    rw [selections, ih hxs, List.map_map, List.map_cons, List.erase_cons_head]
    congr 1
    apply List.map_congr_left
    intro y hy
    have hne : x ≠ y := fun hxy => hx (hxy ▸ hy)
    show (y, x :: xs.erase y) = (y, (x :: xs).erase y)
    rw [List.erase_cons_tail (by simpa using hne)]

theorem arrangements_succ (h : xs.Nodup) (k : ℕ) :
    arrangements (k + 1) xs =
      xs.flatMap fun x => (arrangements k (xs.erase x)).map (x :: ·) := by
  rw [arrangements, selections_eq_map h, List.flatMap_map]

/-- The arrangements are the lists of so many different entries. -/
theorem mem_arrangements_iff (h : xs.Nodup) :
    ys ∈ arrangements k xs ↔ ys.length = k ∧ ys.Nodup ∧ ys ⊆ xs := by
  induction k generalizing xs ys with
  | zero =>
    rw [arrangements, List.mem_singleton, List.length_eq_zero_iff]
    constructor
    · rintro rfl
      exact ⟨rfl, List.nodup_nil, List.nil_subset xs⟩
    · exact And.left
  | succ k ih =>
    rw [arrangements_succ h, List.mem_flatMap]
    constructor
    · rintro ⟨x, hx, hys⟩
      obtain ⟨zs, hzs, rfl⟩ := List.mem_map.1 hys
      obtain ⟨hlength, hnodup, hsubset⟩ := (ih (h.erase x)).1 hzs
      have hnot : x ∉ zs := fun hxzs => h.not_mem_erase (hsubset hxzs)
      refine ⟨by rw [List.length_cons, hlength], List.nodup_cons.2 ⟨hnot, hnodup⟩, ?_⟩
      exact List.cons_subset.2 ⟨hx, fun z hz => List.mem_of_mem_erase (hsubset hz)⟩
    · rintro ⟨hlength, hnodup, hsubset⟩
      obtain ⟨x, zs, rfl⟩ := List.exists_cons_of_length_eq_add_one hlength
      obtain ⟨hnot, hnodup⟩ := List.nodup_cons.1 hnodup
      obtain ⟨hx, hzs⟩ := List.cons_subset.1 hsubset
      have hrest : zs ∈ arrangements k (xs.erase x) := by
        refine (ih (h.erase x)).2 ⟨by simpa using hlength, hnodup, fun z hz => ?_⟩
        have hne : z ≠ x := fun hzx => hnot (hzx ▸ hz)
        exact (List.mem_erase_of_ne hne).2 (hzs hz)
      exact ⟨x, hx, List.mem_map_of_mem hrest⟩

/-- There is no arrangement of more entries than there are. -/
theorem arrangements_eq_nil (h : xs.Nodup) (hk : xs.length < k) : arrangements k xs = [] := by
  rw [List.eq_nil_iff_forall_not_mem]
  intro ys hys
  obtain ⟨hlength, hnodup, hsubset⟩ := (mem_arrangements_iff h).1 hys
  have hle := (hnodup.subperm hsubset).length_le
  omega

end Members

/-- The arrangements of a list that is in order are in lexicographic order. -/
theorem pairwise_arrangements [LinearOrder α] {xs : List α} (h : xs.Pairwise (· < ·)) :
    (arrangements k xs).Pairwise (· < ·) := by
  induction k generalizing xs with
  | zero => exact List.pairwise_singleton ..
  | succ k ih =>
    rw [arrangements_succ h.nodup, List.pairwise_flatMap]
    constructor
    · -- after the same first pick
      intro x hx
      rw [List.pairwise_map]
      apply (ih (h.sublist List.erase_sublist)).imp
      intro zs us hlt
      exact List.cons_lt_cons_iff.2 (.inr ⟨rfl, hlt⟩)
    · -- after different first picks
      apply h.imp
      intro x y hxy zs hzs us hus
      obtain ⟨zs, -, rfl⟩ := List.mem_map.1 hzs
      obtain ⟨us, -, rfl⟩ := List.mem_map.1 hus
      exact List.cons_lt_cons_iff.2 (.inl hxy)

end Shipboard
