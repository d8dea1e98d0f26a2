import Mathlib.Data.List.DropRight
import Mathlib.Tactic
import Shipboard.Text.Lines

/-!
# What is on the lines of a text

Blanks at the ends of a line do not count, and neither do lines of blanks alone.

* `Text.trim_eq_nil_iff`, `Text.trim_trim` and `Text.trim_append_of_blank`: what is left of a text
  without the blanks at its ends;
* `Text.splitOn_eq`: cutting a text at a separator is the library's `List.splitOn`;
* `Text.map_trim_splitOn_trim`: blanks at the ends of a text do not count in its pieces either;
* `Text.entries text` is what is on the lines of a text that are not blank; `Text.entries_eq` says
  that the way in which lines end does not matter for it;
* `Text.ConsistsOf text lines`: the text is written line by line;
* `Text.Appended line text text'`: a text and the same text with one line more.
-/

namespace Shipboard.Text

variable {sep : Char} {cs front behind line text text' : List Char} {pieces : List (List Char)}

/-! ### Blanks at the ends -/

theorem trim_eq (cs : List Char) : trim cs = (cs.dropWhile isBlank).rdropWhile isBlank := rfl

/-- Nothing is left of a text that holds nothing but blanks, and of no other. -/
theorem trim_eq_nil_iff : trim cs = [] ↔ isBlankLine cs = true := by
  rw [trim_eq, List.rdropWhile_eq_nil_iff, isBlankLine, List.all_eq_true]
  constructor
  · intro h
    rw [← List.dropWhile_eq_nil_iff]
    by_contra hne
    have hblank := h _ (List.head_mem hne)
    rw [List.head_dropWhile_not isBlank hne] at hblank
    cases hblank
  · intro h c hc
    exact h c ((List.dropWhile_suffix isBlank).mem hc)

/-- A text that does not start with a blank does not do so either without the blanks at its end. -/
theorem dropWhile_rdropWhile (h : cs.dropWhile isBlank = cs) :
    (cs.rdropWhile isBlank).dropWhile isBlank = cs.rdropWhile isBlank := by
  rw [List.dropWhile_eq_self_iff] at h ⊢
  intro hlength
  have hfront := List.rdropWhile_prefix isBlank cs
  rw [List.IsPrefix.getElem hfront hlength]
  exact h (hlength.trans_le hfront.length_le)

@[simp] theorem trim_nil : trim [] = [] := rfl

@[simp] theorem trim_trim (cs : List Char) : trim (trim cs) = trim cs := by
  simp only [trim_eq]
  rw [dropWhile_rdropWhile (List.dropWhile_idempotent isBlank cs), List.rdropWhile_idempotent]

/-- Blanks at the end of a text do not count. -/
theorem trim_append_of_blank (h : ∀ c ∈ behind, isBlank c = true) :
    trim (cs ++ behind) = trim cs := by
  have hbehind : ∀ front : List Char,
      (front ++ behind).rdropWhile isBlank = front.rdropWhile isBlank := by
    intro front
    rw [List.rdropWhile, List.reverse_append, List.dropWhile_append_of_pos (by simpa using h)]
    rfl
  rw [trim_eq, trim_eq, List.dropWhile_append]
  split_ifs with hempty
  · rw [List.isEmpty_iff.1 hempty, List.dropWhile_eq_nil_iff.2 h]
  · exact hbehind _

/-- Blanks at the start of a text do not count. -/
theorem trim_blank_append (h : ∀ c ∈ front, isBlank c = true) : trim (front ++ cs) = trim cs := by
  rw [trim_eq, List.dropWhile_append_of_pos h]
  rfl

/-- A text has blanks at its ends and what is left without them in between. -/
theorem exists_eq_append_trim (cs : List Char) :
    ∃ front behind, cs = front ++ trim cs ++ behind ∧ (∀ c ∈ front, isBlank c = true) ∧
      ∀ c ∈ behind, isBlank c = true := by
  refine ⟨cs.takeWhile isBlank, (cs.dropWhile isBlank).rtakeWhile isBlank, ?_,
    fun c => List.mem_takeWhile_imp, fun c => List.mem_rtakeWhile_imp⟩
  rw [trim_eq, List.append_assoc, List.rdropWhile_append_rtakeWhile,
    List.takeWhile_append_dropWhile]

theorem mem_of_mem_trim {c : Char} (h : c ∈ trim cs) : c ∈ cs := by
  obtain ⟨front, behind, hcs, -, -⟩ := exists_eq_append_trim cs
  rw [hcs]
  simp [h]

/-- A text without blanks is left as it is. -/
theorem trim_eq_self (h : ∀ c ∈ cs, isBlank c = false) : trim cs = cs := by
  have hstart : cs.dropWhile isBlank = cs :=
    List.dropWhile_eq_self_iff.2 fun _ => by simp [h]
  rw [trim_eq, hstart, List.rdropWhile_eq_self_iff]
  intro hne
  simp [h _ (List.getLast_mem hne)]

/-- What neither starts with a blank nor ends with one is left as it is. -/
theorem trim_append_cons_eq_self {c : Char} (hfront : trimStart front = front) (hne : front ≠ [])
    (hbehind : trimEnd behind = behind) (hne' : behind ≠ []) :
    trim (front ++ c :: behind) = front ++ c :: behind := by
  have hstart : (front ++ c :: behind).dropWhile isBlank = front ++ c :: behind := by
    rw [List.dropWhile_eq_self_iff]
    intro hlength
    rw [List.getElem_append_left (List.length_pos_of_ne_nil hne)]
    exact List.dropWhile_eq_self_iff.1 hfront (List.length_pos_of_ne_nil hne)
  rw [trim_eq, hstart, List.rdropWhile_eq_self_iff]
  intro hlast
  rw [List.getLast_append_of_ne_nil hlast (List.cons_ne_nil c behind), List.getLast_cons hne']
  exact List.rdropWhile_eq_self_iff.1 hbehind hne'

theorem isBlank_of_isDigit {c : Char} (h : c.isDigit = true) : isBlank c = false := by
  have hcodes : 48 ≤ c.toNat ∧ c.toNat ≤ 57 := Char.isDigit_iff_toNat.1 h
  simp only [isBlank, Bool.or_eq_false_iff, Bool.and_eq_false_iff, decide_eq_false_iff_not,
    beq_eq_false_iff_ne]
  omega

theorem trim_withoutReturn (cs : List Char) : trim (withoutReturn cs) = trim cs := by
  rw [withoutReturn]
  split_ifs with h
  · have hreturn : ∀ c ∈ ['\r'], isBlank c = true := by
      intro c hc
      rw [List.mem_singleton.1 hc]
      decide
    rw [← trim_append_of_blank hreturn, List.dropLast_append_getLast? _ h]
  · rfl

/-! ### Cutting -/

/-- Cutting at a separator is what the library calls so. -/
theorem splitOn_eq (sep : Char) (cs : List Char) : splitOn sep cs = cs.splitOn sep := by
  induction cs with
  | nil => rfl
  | cons c cs ih => simp [splitOn_cons, ih, List.splitOn_cons_eq_if_modifyHead]

theorem notMem_of_mem_splitOn {piece : List Char} (h : piece ∈ splitOn sep cs) : sep ∉ piece := by
  induction cs generalizing piece with
  | nil => simp_all
  | cons c cs ih =>
    rw [splitOn_cons] at h
    split_ifs at h with hc
    · rcases List.mem_cons.1 h with rfl | h
      · simp
      · exact ih h
    · cases hpieces : splitOn sep cs with
      | nil => simp [hpieces] at h
      | cons first others =>
        simp only [hpieces, List.modifyHead_cons, List.mem_cons] at h ih
        rcases h with rfl | h
        · simpa [Ne.symm hc] using ih (.inl rfl)
        · exact ih (.inr h)

/-- A text is cut into pieces without a separator that make up the text with one between any two. -/
theorem splitOn_eq_iff : splitOn sep cs = pieces ↔
    pieces ≠ [] ∧ (∀ piece ∈ pieces, sep ∉ piece) ∧ cs = [sep].intercalate pieces := by
  constructor
  · rintro rfl
    refine ⟨?_, fun piece => notMem_of_mem_splitOn, ?_⟩
    · rw [splitOn_eq]
      exact List.splitOn_ne_nil sep cs
    · rw [splitOn_eq, List.intercalate_splitOn]
  · rintro ⟨hne, hpieces, rfl⟩
    rw [splitOn_eq, List.splitOn_intercalate sep hpieces hne]

theorem notMem_of_blank (hsep : isBlank sep = false) (h : ∀ c ∈ behind, isBlank c = true) :
    sep ∉ behind := by
  intro hmem
  simp [h sep hmem] at hsep

/-- The blanks at the ends of a text are nothing but blanks. -/
theorem count_trim (hsep : isBlank sep = false) (cs : List Char) :
    (trim cs).count sep = cs.count sep := by
  obtain ⟨front, behind, hcs, hfront, hbehind⟩ := exists_eq_append_trim cs
  conv_rhs => rw [hcs]
  rw [List.count_append, List.count_append, List.count_eq_zero.2 (notMem_of_blank hsep hfront),
    List.count_eq_zero.2 (notMem_of_blank hsep hbehind)]
  omega

theorem mem_of_mem_intercalate {c : Char} {joint : List Char} (h : c ∈ joint.intercalate pieces) :
    c ∈ joint ∨ ∃ piece ∈ pieces, c ∈ piece := by
  induction pieces with
  | nil => simp at h
  | cons first others ih =>
    cases others with
    | nil => exact .inr ⟨first, by simp, by simpa using h⟩
    | cons second others =>
      rw [List.intercalate_cons_cons, List.mem_append, List.mem_append] at h
      rcases h with (h | h) | h
      · exact .inr ⟨first, by simp, h⟩
      · exact .inl h
      · rcases ih h with h | ⟨piece, hpiece, h⟩
        · exact .inl h
        · exact .inr ⟨piece, .tail _ hpiece, h⟩

/-! ### What is on the lines -/

/-- What is on the lines of a text that are not blank. -/
def entries (text : List Char) : List (List Char) :=
  ((lines text).map trim).filter fun entry => entry ≠ []

/-- How lines end does not matter for what is on them. -/
theorem entries_eq (text : List Char) :
    entries text = ((splitOn '\n' text).map trim).filter fun entry => entry ≠ [] := by
  have hne : splitOn '\n' text ≠ [] := (splitOn_eq_iff.1 rfl).1
  have hfront : ∀ pieces : List (List Char),
      (pieces.map withoutReturn).map trim = pieces.map trim := by
    intro pieces
    simp [trim_withoutReturn]
  obtain ⟨front, last, hpieces⟩ := (List.eq_nil_or_concat' _).resolve_left hne
  rw [entries, lines, hpieces]
  simp only [List.getLastD_concat, List.dropLast_concat, List.map_append, hfront]
  cases last with
  | nil => simp
  | cons c last => rfl

theorem numberedLines_eq (text : List Char) :
    numberedLines text = ((lines text).zipIdx 1).filter fun line => trim line.1 ≠ [] := by
  rw [numberedLines]
  refine List.filter_congr fun line _ => ?_
  rw [Bool.eq_iff_iff]
  simp [trim_eq_nil_iff]

theorem entries_eq_map_numberedLines (text : List Char) :
    entries text = (numberedLines text).map fun line => trim line.1 := by
  have hlines : (lines text).map trim = ((lines text).zipIdx 1).map fun line => trim line.1 := by
    conv_lhs => rw [← List.zipIdx_map_fst 1 (lines text), List.map_map]
    rfl
  rw [entries, hlines, List.filter_map, numberedLines_eq]
  rfl

/-- The numbered lines are the lines of the text that are not blank, each with its number. -/
theorem mem_numberedLines_iff {line : List Char} {n : ℕ} :
    (line, n) ∈ numberedLines text ↔
      ∃ i, (lines text)[i]? = some line ∧ trim line ≠ [] ∧ n = i + 1 := by
  rw [numberedLines_eq, List.mem_filter, List.mk_mem_zipIdx_iff_le_and_getElem?_sub,
    decide_eq_true_eq]
  constructor
  · rintro ⟨⟨hle, hline⟩, hblank⟩
    exact ⟨n - 1, hline, hblank, by omega⟩
  · rintro ⟨i, hline, hblank, rfl⟩
    exact ⟨⟨by omega, hline⟩, hblank⟩

/-- Later lines have greater numbers. -/
theorem pairwise_numberedLines (text : List Char) :
    (numberedLines text).Pairwise fun line other => line.2 < other.2 := by
  refine List.Pairwise.filter _ ?_
  rw [← List.pairwise_map (f := Prod.snd), List.zipIdx_map_snd]
  exact List.pairwise_lt_range'

/-- A text consists of lines, in this order. The last of them may end like the others. -/
structure ConsistsOf (text : List Char) (lines : List (List Char)) : Prop where
  notMem : ∀ line ∈ lines, '\n' ∉ line
  eq : text = ['\n'].intercalate lines ∨ text = ['\n'].intercalate lines ++ ['\n']

theorem ConsistsOf.entries_eq {lines : List (List Char)} (h : ConsistsOf text lines) :
    entries text = (lines.map trim).filter fun entry => entry ≠ [] := by
  have hsplit : lines ≠ [] → splitOn '\n' (['\n'].intercalate lines) = lines :=
    fun hne => splitOn_eq_iff.2 ⟨hne, h.notMem, rfl⟩
  rw [Text.entries_eq]
  by_cases hne : lines = []
  · subst hne
    rcases h.eq with rfl | rfl <;> rfl
  · rcases h.eq with rfl | rfl
    · rw [hsplit hne]
    · rw [splitOn_eq, List.splitOn_append_cons_self, ← splitOn_eq, hsplit hne]
      simp

theorem notMem_of_mem_entries (h : line ∈ entries text) : '\n' ∉ line := by
  rw [entries_eq, List.mem_filter, List.mem_map] at h
  obtain ⟨⟨piece, hpiece, rfl⟩, -⟩ := h
  exact fun hmem => notMem_of_mem_splitOn hpiece (mem_of_mem_trim hmem)

theorem entries_append (front behind : List Char) :
    entries (front ++ '\n' :: behind) = entries front ++ entries behind := by
  rw [entries_eq, entries_eq, entries_eq, splitOn_eq, List.splitOn_append_cons_self, ← splitOn_eq,
    ← splitOn_eq, List.map_append, List.filter_append]

theorem entries_of_notMem (h : '\n' ∉ line) (hne : trim line ≠ []) :
    entries line = [trim line] := by
  have hline : splitOn '\n' line = [line] :=
    splitOn_eq_iff.2 ⟨by simp, by simpa using h, by simp⟩
  rw [entries_eq, hline]
  simp [hne]

/-- A text with one line more behind the others.  Either may end with a line feed. -/
def Appended (line text text' : List Char) : Prop :=
  ∃ front, (text = front ∨ text = front ++ ['\n']) ∧
    (text' = front ++ '\n' :: line ∨ text' = front ++ '\n' :: line ++ ['\n'])

theorem Appended.entries_eq (h : Appended line text text') (hline : '\n' ∉ line)
    (hne : trim line ≠ []) : entries text' = entries text ++ [trim line] := by
  have hend : ∀ cs, entries (cs ++ ['\n']) = entries cs := by
    intro cs
    rw [entries_append]
    exact List.append_nil _
  obtain ⟨front, htext, htext'⟩ := h
  have hfront : entries text = entries front := by
    rcases htext with rfl | rfl
    · rfl
    · exact hend front
  have hbehind : entries text' = entries (front ++ '\n' :: line) := by
    rcases htext' with rfl | rfl
    · rfl
    · exact hend _
  rw [hfront, hbehind, entries_append, entries_of_notMem hline hne]

end Shipboard.Text
