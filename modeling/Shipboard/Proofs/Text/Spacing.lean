import Mathlib.Data.List.Sort
import Mathlib.Tactic
import Shipboard.Proofs.Text.Lines

/-!
# Blanks between lines and around them

A text says the same with more blanks at the ends of its lines and with more blank lines between
them, only that its lines have other numbers then.

* `Text.Padded line line'`: the second line is the first with more blanks at its ends;
* `Text.Respaced f text text'`: the second text is the first with more blanks at the ends of its
  lines and with more blank lines, and `f` tells where its lines are now;
* `Text.numberedEntries text` is what is on the lines that are not blank, with their numbers;
  `Text.Respaced.numberedEntries_eq` says that only the numbers change;
* `Text.exists_numberedEntries_append`: what is on the first lines does not depend on the others.
-/

namespace Shipboard.Text

variable {f : ℕ → ℕ} {text text' front behind line line' cs : List Char} {n : ℕ}

/-! ### Lines -/

/-- A line with more blanks at its start and at its end, which may be in front of the carriage
return that it ends with. -/
def Padded (line line' : List Char) : Prop :=
  ∃ front core behind ending, line = core ++ ending ∧ line' = front ++ core ++ behind ++ ending ∧
    (∀ c ∈ front, isBlank c = true) ∧ (∀ c ∈ behind, isBlank c = true) ∧
    (ending = [] ∨ ending = ['\r'])

theorem Padded.trim_eq (h : Padded line line') : trim line' = trim line := by
  obtain ⟨front, core, behind, ending, rfl, rfl, hfront, hbehind, hending⟩ := h
  have hreturn : ∀ c ∈ ending, isBlank c = true := by
    rcases hending with rfl | rfl
    · simp
    · simp only [List.mem_singleton, forall_eq]
      decide
  calc trim (front ++ core ++ behind ++ ending)
      = trim (front ++ core ++ behind) := trim_append_of_blank hreturn
    _ = trim (front ++ core) := trim_append_of_blank hbehind
    _ = trim core := trim_blank_append hfront
    _ = trim (core ++ ending) := (trim_append_of_blank hreturn).symm

/-! ### Texts -/

/-- A text with more blanks at the ends of its lines, and with more blank lines.  Where a line was
and where it is now is counted from zero. -/
structure Respaced (f : ℕ → ℕ) (text text' : List Char) : Prop where
  strictMono : StrictMono f
  kept : ∀ i line, (splitOn '\n' text)[i]? = some line →
    ∃ line', (splitOn '\n' text')[f i]? = some line' ∧ Padded line line'
  added : ∀ j line', (splitOn '\n' text')[j]? = some line' →
    isBlankLine line' = true ∨ ∃ i line, j = f i ∧ (splitOn '\n' text)[i]? = some line

/-- What is on the lines of a text that are not blank, with the numbers of these lines. -/
def numberedEntries (text : List Char) : List (List Char × ℕ) :=
  (numberedLines text).map fun line => (trim line.1, line.2)

theorem map_fst_numberedEntries (text : List Char) :
    (numberedEntries text).map Prod.fst = entries text := by
  rw [entries_eq_map_numberedLines, numberedEntries, List.map_map]
  rfl

/-- How lines end does not matter for what is on them. -/
theorem numberedEntries_eq (text : List Char) :
    numberedEntries text =
      (((splitOn '\n' text).map trim).zipIdx 1).filter fun entry => entry.1 ≠ [] := by
  have hne : splitOn '\n' text ≠ [] := (splitOn_eq_iff.1 rfl).1
  have hlines : numberedEntries text =
      (((lines text).map trim).zipIdx 1).filter fun entry => entry.1 ≠ [] := by
    rw [numberedEntries, numberedLines_eq, List.zipIdx_map, List.filter_map]
    rfl
  have hfront : ∀ pieces : List (List Char),
      (pieces.map withoutReturn).map trim = pieces.map trim := by
    intro pieces
    simp [trim_withoutReturn]
  obtain ⟨front, last, hpieces⟩ := (List.eq_nil_or_concat' _).resolve_left hne
  rw [hlines, lines, hpieces]
  simp only [List.getLastD_concat, List.dropLast_concat, List.map_append, hfront]
  cases last with
  | nil => simp [List.zipIdx_append]
  | cons c last => rfl

theorem mem_numberedEntries_iff {entry : List Char} :
    (entry, n) ∈ numberedEntries text ↔
      entry ≠ [] ∧
        ∃ i line, (splitOn '\n' text)[i]? = some line ∧ trim line = entry ∧ n = i + 1 := by
  rw [numberedEntries_eq, List.mem_filter, List.mk_mem_zipIdx_iff_le_and_getElem?_sub,
    decide_eq_true_eq, List.getElem?_map, Option.map_eq_some_iff, and_comm]
  refine and_congr_right fun _ => ⟨?_, ?_⟩
  · rintro ⟨hle, line, hline, hentry⟩
    exact ⟨n - 1, line, hline, hentry, by omega⟩
  · rintro ⟨i, line, hline, hentry, rfl⟩
    exact ⟨by omega, line, hline, hentry⟩

/-- Later entries have greater numbers. -/
theorem pairwise_numberedEntries (text : List Char) :
    (numberedEntries text).Pairwise fun entry other => entry.2 < other.2 := by
  rw [numberedEntries, List.pairwise_map]
  exact pairwise_numberedLines text

/-- Of numbered entries in order, none is there twice, and the order tells them apart. -/
theorem eq_of_pairwise_of_mem_iff {α : Type} {xs ys : List (α × ℕ)}
    (hxs : xs.Pairwise fun x y => x.2 < y.2) (hys : ys.Pairwise fun x y => x.2 < y.2)
    (h : ∀ x, x ∈ xs ↔ x ∈ ys) : xs = ys := by
  have hirrefl : Std.Irrefl fun x y : α × ℕ => x.2 < y.2 := ⟨fun x => Nat.lt_irrefl x.2⟩
  have hantisymm : Std.Antisymm fun x y : α × ℕ => x.2 < y.2 :=
    ⟨fun x y hxy hyx => (Nat.lt_asymm hxy hyx).elim⟩
  exact hxs.eq_of_mem_iff hys h

/-- **Only the numbers of the lines change.** -/
theorem Respaced.numberedEntries_eq (h : Respaced f text text') :
    numberedEntries text' =
      (numberedEntries text).map fun entry => (entry.1, f (entry.2 - 1) + 1) := by
  refine eq_of_pairwise_of_mem_iff (pairwise_numberedEntries text') ?_ fun ⟨entry, n⟩ => ?_
  · rw [List.pairwise_map]
    refine List.Pairwise.imp_of_mem ?_ (pairwise_numberedEntries text)
    intro a b ha hb hlt
    obtain ⟨-, i, -, -, -, hi⟩ := mem_numberedEntries_iff.1 ha
    have hmono := h.strictMono (show a.2 - 1 < b.2 - 1 by omega)
    omega
  · rw [mem_numberedEntries_iff, List.mem_map]
    constructor
    · rintro ⟨hne, j, line', hline', rfl, rfl⟩
      rcases h.added j line' hline' with hblank | ⟨i, line, rfl, hline⟩
      · exact (hne (trim_eq_nil_iff.2 hblank)).elim
      · obtain ⟨padded, hpadded, hpads⟩ := h.kept i line hline
        obtain rfl := Option.some.inj (hline'.symm.trans hpadded)
        rw [hpads.trim_eq] at hne ⊢
        exact ⟨_, mem_numberedEntries_iff.2 ⟨hne, i, line, hline, rfl, rfl⟩, rfl⟩
    · rintro ⟨⟨entry, m⟩, hmem, heq⟩
      obtain ⟨hne, i, line, hline, rfl, rfl⟩ := mem_numberedEntries_iff.1 hmem
      obtain ⟨rfl, rfl⟩ := Prod.mk.inj heq
      obtain ⟨line', hline', hpads⟩ := h.kept i line hline
      exact ⟨hne, f i, line', hline', hpads.trim_eq, rfl⟩

/-- What is on the first lines of a text does not depend on what is behind their last line feed. -/
theorem exists_numberedEntries_append (front behind : List Char) :
    ∃ later, numberedEntries (front ++ '\n' :: behind) = numberedEntries front ++ later := by
  rw [numberedEntries_eq, numberedEntries_eq, splitOn_eq, List.splitOn_append_cons_self,
    ← splitOn_eq, List.map_append, List.zipIdx_append, List.filter_append]
  exact ⟨_, rfl⟩

end Shipboard.Text
