import Mathlib.Data.Prod.Lex
import Mathlib.Tactic
import Shipboard.Image.Stack
import Shipboard.Proofs.Outcome

/-!
# Digits and their coordinates

Every layer of a stack has the size of the stack, however the stack was made.  Hence the digits of
the stack, which are listed one after the other, can be found by their coordinates.

* `getElem?_flatten_of_length`: the place of a column of a row in a list of rows of one length;
* `Layer.Fills l width height`, `LayerStack.Filled s`: rows and layers are of the right size;
* `LayerStack.Obtained s`: a stack was cut from a stream or made of layers, each with rows of one
  length; `LayerStack.Obtained.filled` is the main result;
* `LayerStack.digit? s k x y` is the digit in a column of a row of a layer, and
  `LayerStack.Filled.getElem?_digits` its place among all digits.
-/

namespace Shipboard

/-! ### Rows of one length -/

variable {α : Type} {w h x y x' y' : ℕ}

/-- Whatever the columns, an earlier row comes first. -/
theorem rowMajor_lt (hx : x < w) (hy : y < y') : y * w + x < y' * w + x' := by
  calc y * w + x < y * w + w := Nat.add_lt_add_left hx _
    _ = (y + 1) * w := (Nat.succ_mul y w).symm
    _ ≤ y' * w := Nat.mul_le_mul_right w hy
    _ ≤ y' * w + x' := Nat.le_add_right _ _

/-- Every place of a rectangle is that of a column of a row. -/
theorem exists_rowMajor_eq {i : ℕ} (hi : i < h * w) : ∃ x < w, ∃ y < h, y * w + x = i := by
  have hw : 0 < w := Nat.pos_of_lt_mul_left hi
  refine ⟨i % w, Nat.mod_lt _ hw, i / w, ?_, Nat.div_add_mod' i w⟩
  exact Nat.div_lt_of_lt_mul (Nat.mul_comm h w ▸ hi)

/-- Layers come in order, the rows of a layer in order, and the columns of a row in order. -/
theorem place_lt {k k' : ℕ} (hx : x < w) (hy : y < h)
    (hlt : toLex (k, toLex (y, x)) < toLex (k', toLex (y', x'))) :
    k * (h * w) + (y * w + x) < k' * (h * w) + (y' * w + x') := by
  have hplace : y * w + x < h * w := @rowMajor_lt _ _ _ 0 _ hx hy
  simp only [Prod.Lex.toLex_lt_toLex] at hlt
  rcases hlt with hk | ⟨rfl, hy' | ⟨rfl, hx'⟩⟩
  · exact rowMajor_lt hplace hk
  · exact Nat.add_lt_add_left (rowMajor_lt hx hy') _
  · omega

theorem getElem?_flatten_of_length {rows : List (List α)} (hrows : ∀ row ∈ rows, row.length = w)
    (hx : x < w) : rows.flatten[y * w + x]? = rows[y]?.bind (·[x]?) := by
  induction rows generalizing y with
  | nil => simp
  | cons row rows ih =>
    obtain ⟨hrow, hrows⟩ := List.forall_mem_cons.1 hrows
    rw [List.flatten_cons]
    cases y with
    | zero => rw [Nat.zero_mul, Nat.zero_add, List.getElem?_append_left (by omega)]; rfl
    | succ y =>
      have hplace : (y + 1) * w + x = row.length + (y * w + x) := by rw [hrow]; ring
      rw [hplace, List.getElem?_append_right (Nat.le_add_right _ _), Nat.add_sub_cancel_left,
        ih hrows]
      rfl

theorem length_flatten_of_length {rows : List (List α)} (hrows : ∀ row ∈ rows, row.length = w) :
    rows.flatten.length = rows.length * w := by
  induction rows with
  | nil => simp
  | cons row rows ih =>
    obtain ⟨hrow, hrows⟩ := List.forall_mem_cons.1 hrows
    rw [List.flatten_cons, List.length_append, hrow, ih hrows, List.length_cons]
    ring

namespace Layer

/-- The digit in a column of a row, if the layer has one there. -/
def digit? (l : Layer) (x y : ℕ) : Option ℕ :=
  l.rows[y]?.bind (·[x]?)

theorem digit_eq_ok_iff {l : Layer} {d : ℕ} : l.digit x y = .ok d ↔ l.digit? x y = some d := by
  unfold digit digit?
  split <;> simp [*]

/-- A layer has so many rows, and every row so many digits. -/
structure Fills (l : Layer) (width height : ℕ) : Prop where
  length_rows : l.rows.length = height
  length_row : ∀ row ∈ l.rows, row.length = width

instance (l : Layer) (width height : ℕ) : Decidable (l.Fills width height) :=
  decidable_of_iff (l.rows.length = height ∧ ∀ row ∈ l.rows, row.length = width)
    ⟨fun ⟨hrows, hrow⟩ => ⟨hrows, hrow⟩, fun ⟨hrows, hrow⟩ => ⟨hrows, hrow⟩⟩

namespace Fills

variable {l : Layer}

theorem exists_digit? (hl : l.Fills w h) (hx : x < w) (hy : y < h) :
    ∃ d, l.digit? x y = some d := by
  have hy' : y < l.rows.length := hl.length_rows.symm ▸ hy
  have hx' : x < l.rows[y].length := hl.length_row _ (List.getElem_mem hy') ▸ hx
  exact ⟨l.rows[y][x], by simp [digit?, hy', hx']⟩

theorem lt_of_digit? {d : ℕ} (hl : l.Fills w h) (hd : l.digit? x y = some d) : x < w ∧ y < h := by
  obtain ⟨row, hrow, hd⟩ := Option.bind_eq_some_iff.1 hd
  obtain ⟨hy, -⟩ := List.getElem?_eq_some_iff.1 hrow
  obtain ⟨hx, -⟩ := List.getElem?_eq_some_iff.1 hd
  exact ⟨hl.length_row row (List.mem_of_getElem? hrow) ▸ hx, hl.length_rows ▸ hy⟩

theorem height_eq (hl : l.Fills w h) : l.height = h :=
  hl.length_rows

/-- The width is that of the first row, so there has to be one. -/
theorem width_eq (hl : l.Fills w h) (hh : 0 < h) : l.width = w := by
  obtain ⟨row, rows, hrows⟩ := List.exists_cons_of_length_pos (hl.length_rows.symm ▸ hh)
  rw [width, hrows]
  exact hl.length_row row (by simp [hrows])

theorem length_digits (hl : l.Fills w h) : l.digits.length = h * w := by
  rw [digits, length_flatten_of_length hl.length_row, hl.length_rows]

theorem getElem?_digits (hl : l.Fills w h) (hx : x < w) : l.digits[y * w + x]? = l.digit? x y :=
  getElem?_flatten_of_length hl.length_row hx

end Fills

end Layer

namespace LayerStack

variable {s : LayerStack}

/-! ### Layers of the right size -/

/-- The width and the height are not zero, and all layers have them. -/
structure Filled (s : LayerStack) : Prop where
  width_pos : 0 < s.width
  height_pos : 0 < s.height
  fills : ∀ l ∈ s.layers, l.Fills s.width s.height

/-- A stack was cut from a stream, or made of layers each of which has rows of one length. -/
def Obtained (s : LayerStack) : Prop :=
  (∃ stream width height, split stream width height = .ok s) ∨
    ∃ width height layers, (∀ l ∈ layers, ∃ n, ∀ row ∈ l.rows, row.length = n) ∧
      ofLayers width height layers = .ok s

theorem length_pieces {size n : ℕ} {xs : List α} : (pieces size n xs).length = n := by
  induction n generalizing xs with
  | zero => rfl
  | succ n ih => simp [pieces, ih]

/-- Pieces of a list that is long enough are of full size. -/
theorem length_of_mem_pieces {size n : ℕ} {xs piece : List α} (hxs : n * size ≤ xs.length)
    (hpiece : piece ∈ pieces size n xs) : piece.length = size := by
  induction n generalizing xs with
  | zero => cases hpiece
  | succ n ih =>
    rw [Nat.succ_mul] at hxs
    rcases List.mem_cons.1 hpiece with rfl | hpiece
    · rw [List.length_take]
      omega
    · exact ih (by rw [List.length_drop]; omega) hpiece

/-- Pieces put together again are what they were cut from, up to where the last one ends. -/
theorem flatten_pieces {size n : ℕ} {xs : List α} :
    (pieces size n xs).flatten = xs.take (n * size) := by
  induction n generalizing xs with
  | zero => simp [pieces]
  | succ n ih =>
    rw [pieces, List.flatten_cons, ih, Nat.succ_mul, Nat.add_comm, List.take_add]

theorem checkSize_eq_ok_iff : checkSize w h = .ok () ↔ 0 < w ∧ 0 < h := by
  rw [checkSize]
  split_ifs with hzero
  · simp only [false_iff]
    omega
  · simp only [true_iff]
    omega

theorem length_readDigits {stream : List Char} {digits : List ℕ}
    (hread : readDigits stream = .ok digits) : digits.length = stream.length := by
  rw [readDigits, mapM_eq_ok_iff] at hread
  simpa using hread.length_eq.symm

theorem filled_of_split {stream : List Char} (hs : split stream w h = .ok s) : s.Filled := by
  obtain ⟨_, hsize, hs⟩ := bind_eq_ok.1 hs
  obtain ⟨digits, hread, hs⟩ := bind_eq_ok.1 hs
  obtain ⟨hw, hh⟩ := checkSize_eq_ok_iff.1 hsize
  cases hs
  have hdigits : stream.length / (w * h) * (w * h) ≤ digits.length := by
    rw [length_readDigits hread, List.length_take]
    exact le_min le_rfl (Nat.div_mul_le_self _ _)
  refine ⟨hw, hh, fun l hl => ?_⟩
  obtain ⟨piece, hpiece, rfl⟩ := List.mem_map.1 hl
  have hlength : h * w ≤ piece.length :=
    (length_of_mem_pieces hdigits hpiece).symm ▸ (Nat.mul_comm h w).le
  exact ⟨length_pieces, fun row hrow => length_of_mem_pieces hlength hrow⟩

theorem ofLayers_of_fills {layers : List Layer} (hw : 0 < w) (hh : 0 < h)
    (hfills : ∀ l ∈ layers, l.Fills w h) : ofLayers w h layers = .ok ⟨w, h, layers⟩ := by
  rw [ofLayers, checkSize_eq_ok_iff.2 ⟨hw, hh⟩]
  dsimp only [bind, Except.bind]
  split
  · next l k hfind =>
    have hmem := List.mem_zipIdx_iff_getElem?.1 (List.mem_of_find?_eq_some hfind)
    have hl := hfills l (List.mem_of_getElem? hmem)
    have hmisfit := List.find?_some hfind
    simp [hl.width_eq hh, hl.height_eq] at hmisfit
  · rfl

theorem filled_of_ofLayers {layers : List Layer} (hs : ofLayers w h layers = .ok s)
    (hrows : ∀ l ∈ layers, ∃ n, ∀ row ∈ l.rows, row.length = n) : s.Filled := by
  obtain ⟨_, hsize, hs⟩ := bind_eq_ok.1 hs
  obtain ⟨hw, hh⟩ := checkSize_eq_ok_iff.1 hsize
  split at hs
  · cases hs
  next hall =>
  cases hs
  refine ⟨hw, hh, fun l hl => ?_⟩
  obtain ⟨k, hk, rfl⟩ := List.getElem_of_mem hl
  have hfit := List.find?_eq_none.1 hall (layers[k], k)
    (List.mem_zipIdx_iff_getElem?.2 (List.getElem?_eq_getElem hk))
  simp only [ne_eq, decide_eq_true_eq, not_or, not_not] at hfit
  obtain ⟨n, hn⟩ := hrows _ hl
  refine ⟨hfit.2, fun row hrow => ?_⟩
  -- the width is the length of the first row, which is that of every row
  obtain ⟨first, rest, hfirst⟩ := List.exists_cons_of_ne_nil (List.ne_nil_of_mem hrow)
  have hwidth := hfit.1
  simp only [Layer.width, hfirst] at hwidth
  rw [hn row hrow, ← hn first (by simp [hfirst])]
  exact hwidth

/-- **All layers have the size of the stack.** -/
theorem Obtained.filled (hs : s.Obtained) : s.Filled := by
  rcases hs with ⟨stream, w, h, hs⟩ | ⟨w, h, layers, hrows, hs⟩
  · exact filled_of_split hs
  · exact filled_of_ofLayers hs hrows

/-! ### All digits -/

/-- The digit in a column of a row of a layer, if the stack has one there. -/
def digit? (s : LayerStack) (k x y : ℕ) : Option ℕ :=
  s.layers[k]?.bind (·.digit? x y)

namespace Filled

variable {k d : ℕ}

theorem exists_digit? (hs : s.Filled) (hk : k < s.layers.length) (hx : x < s.width)
    (hy : y < s.height) : ∃ d, s.digit? k x y = some d := by
  obtain ⟨d, hd⟩ := (hs.fills _ (List.getElem_mem hk)).exists_digit? hx hy
  exact ⟨d, by rw [digit?, List.getElem?_eq_getElem hk, Option.bind_some, hd]⟩

theorem lt_of_digit? (hs : s.Filled) (hd : s.digit? k x y = some d) :
    k < s.layers.length ∧ x < s.width ∧ y < s.height := by
  obtain ⟨l, hl, hd⟩ := Option.bind_eq_some_iff.1 hd
  exact ⟨(List.getElem?_eq_some_iff.1 hl).1,
    (hs.fills l (List.mem_of_getElem? hl)).lt_of_digit? hd⟩

/-- The place of a coordinate among all digits. -/
theorem getElem?_digits (hs : s.Filled) (hx : x < s.width) (hy : y < s.height) :
    s.digits[k * (s.height * s.width) + (y * s.width + x)]? = s.digit? k x y := by
  have hlength : ∀ digits ∈ s.layers.map Layer.digits, digits.length = s.height * s.width := by
    simp only [List.forall_mem_map]
    exact fun l hl => (hs.fills l hl).length_digits
  have hplace : y * s.width + x < s.height * s.width := @rowMajor_lt _ _ _ 0 _ hx hy
  rw [digits, List.flatMap, getElem?_flatten_of_length hlength hplace, List.getElem?_map, digit?]
  cases hl : s.layers[k]? with
  | none => rfl
  | some l => exact (hs.fills l (List.mem_of_getElem? hl)).getElem?_digits hx

/-- Every digit has a coordinate. -/
theorem exists_digit?_of_getElem?_digits {i : ℕ} (hs : s.Filled) (hd : s.digits[i]? = some d) :
    ∃ k x y, s.digit? k x y = some d ∧ k * (s.height * s.width) + (y * s.width + x) = i := by
  have hplace : i % (s.height * s.width) < s.height * s.width :=
    Nat.mod_lt _ (Nat.mul_pos hs.height_pos hs.width_pos)
  obtain ⟨x, hx, y, hy, hxy⟩ := exists_rowMajor_eq hplace
  have hi : i / (s.height * s.width) * (s.height * s.width) + (y * s.width + x) = i := by
    rw [hxy, Nat.div_add_mod']
  exact ⟨_, x, y, by rw [← hs.getElem?_digits hx hy, hi, hd], hi⟩

theorem mem_digits_iff (hs : s.Filled) : d ∈ s.digits ↔ ∃ k x y, s.digit? k x y = some d := by
  constructor
  · intro hd
    obtain ⟨i, hi⟩ := List.mem_iff_getElem?.1 hd
    obtain ⟨k, x, y, hdigit, -⟩ := hs.exists_digit?_of_getElem?_digits hi
    exact ⟨k, x, y, hdigit⟩
  · rintro ⟨k, x, y, hdigit⟩
    obtain ⟨-, hx, hy⟩ := hs.lt_of_digit? hdigit
    rw [← hs.getElem?_digits hx hy] at hdigit
    exact List.mem_of_getElem? hdigit

end Filled

end LayerStack

end Shipboard
