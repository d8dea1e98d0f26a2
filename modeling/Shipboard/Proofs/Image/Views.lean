import Mathlib.Tactic
import Shipboard.Proofs.Image.Overlay
import Shipboard.Proofs.Image.Stream
import Shipboard.Proofs.Text.Lines

/-!
# The views of a picture

A picture is looked at pixel by pixel, as rows, as lines of characters, as a buffer of colours and
as a string of digits.  All of these show the same, and the picture is found again from each of
them.

* `Picture.Fits.getElem?_rows`: rows and coordinates;
* `Picture.lines p` are the lines of a drawing, and `Picture.toList_drawing` joins them;
* `Picture.Stores fill`: what is given for a coordinate is stored at its place in a buffer;
  `Picture.Fits.buffer_eq_bytes` says what is stored of a picture, whoever fills the buffer;
* `Picture.numerals p` are the digits of a picture, and `Picture.Fits.split_numerals` cuts them into
  one layer, which shows the picture;
* `Picture.views_of_flatten`: all of this for the picture of a stack.
-/

namespace Shipboard

variable {α β : Type} {w h x y : ℕ}

namespace LayerStack

theorem pieces_map (f : α → β) (size n : ℕ) (xs : List α) :
    pieces size n (xs.map f) = (pieces size n xs).map (List.map f) := by
  induction n generalizing xs with
  | zero => rfl
  | succ n ih => rw [pieces, pieces, ← List.map_take, ← List.map_drop, ih, List.map_cons]

/-- A picture of a stack has the size of the stack, and a pixel for every coordinate. -/
theorem fits_of_flatten {s : LayerStack} {p : Picture} (hp : s.flatten = .ok p) :
    p.Fits s.width s.height := by
  have hsize := size_of_flatten hp
  cases hlayers : s.layers.getLast? with
  | none =>
    rw [flatten, hlayers] at hp
    cases hp
  | some back =>
    rw [flatten_eq hlayers] at hp
    obtain ⟨-, -, hp⟩ := bind_eq_ok.1 hp
    obtain ⟨pixels, -, hp⟩ := bind_eq_ok.1 hp
    cases hp
    exact ⟨rfl, rfl, hsize⟩

end LayerStack

/-! ### Pixels as characters and as colours -/

namespace Pixel

/-- The digit that stands for a colour, as a character. -/
def numeral (p : Pixel) : Char :=
  Nat.digitChar p.digit

theorem symbol_injective : Function.Injective symbol := by
  intro p q h
  cases p <;> cases q <;> simp_all [symbol]

theorem symbol_ne_newline (p : Pixel) : p.symbol ≠ '\n' := by
  cases p <;> decide

theorem rgba_injective : Function.Injective rgba := by
  intro p q h
  cases p <;> cases q <;> simp_all [rgba]

@[simp] theorem length_rgba (p : Pixel) : p.rgba.length = 4 := by
  cases p <;> rfl

theorem isDigit_numeral (p : Pixel) : p.numeral.isDigit = true := by
  cases p <;> decide

@[simp] theorem digitValue_numeral (p : Pixel) : Text.digitValue p.numeral = p.digit := by
  cases p <;> rfl

theorem numeral_injective : Function.Injective numeral := by
  intro p q h
  have hdigit := congrArg Text.digitValue h
  rw [digitValue_numeral, digitValue_numeral] at hdigit
  exact digit_injective hdigit

end Pixel

namespace Picture

variable {p q : Picture} {fallback : Pixel} {fill : ℕ → ℕ → (ℕ → ℕ → List UInt8) → List UInt8}

/-! ### Rows -/

/-- The digits of all pixels, row by row, as characters. -/
def numerals (p : Picture) : List Char :=
  p.pixels.toList.map Pixel.numeral

/-- The lines of a drawing. -/
def lines (p : Picture) : List (List Char) :=
  p.rows.map (List.map Pixel.symbol)

/-- A drawing is its lines with a line feed between any two. -/
theorem toList_drawing (p : Picture) : p.drawing.toList = ['\n'].intercalate p.lines := by
  have hlines : (p.rows.map fun row => String.ofList (row.map Pixel.symbol)).map String.toList =
      p.lines := by
    simp [lines]
  rw [drawing, String.toList_intercalate, hlines]
  rfl

namespace Fits

/-- A coordinate has a pixel exactly if it is inside the picture. -/
theorem exists_pixel?_iff (hp : p.Fits w h) :
    (∃ pixel, p.pixel? x y = some pixel) ↔ x < w ∧ y < h := by
  rw [pixel?, hp.width_eq, hp.height_eq]
  split_ifs with hinside
  · refine iff_of_true ?_ hinside
    have hplace : y * w + x < h * w := @rowMajor_lt _ _ _ 0 _ hinside.1 hinside.2
    exact ⟨_, Array.getElem?_eq_getElem (hp.size_eq.symm ▸ hplace)⟩
  · exact iff_of_false (by simp) hinside

theorem getElem?_pixels (hp : p.Fits w h) (hx : x < w) (hy : y < h) :
    p.pixels.toList[y * w + x]? = p.pixel? x y := by
  rw [pixel?, hp.width_eq, hp.height_eq, if_pos ⟨hx, hy⟩, Array.getElem?_toList]

theorem length_pixels (hp : p.Fits w h) : p.pixels.toList.length = h * w := by
  rw [Array.length_toList, hp.size_eq]

theorem length_rows (hp : p.Fits w h) (hw : 0 < w) : p.rows.length = h := by
  rw [hp.rows_eq hw, LayerStack.length_pieces]

theorem length_of_mem_rows (hp : p.Fits w h) (hw : 0 < w) : ∀ row ∈ p.rows, row.length = w := by
  rw [hp.rows_eq hw]
  exact fun row => LayerStack.length_of_mem_pieces hp.length_pixels.ge

theorem flatten_rows (hp : p.Fits w h) (hw : 0 < w) : p.rows.flatten = p.pixels.toList := by
  rw [hp.rows_eq hw, LayerStack.flatten_pieces, List.take_of_length_le hp.length_pixels.le]

/-- In a column of a row stands the pixel of the coordinate. -/
theorem getElem?_rows (hp : p.Fits w h) (hx : x < w) (hy : y < h) :
    p.rows[y]?.bind (·[x]?) = p.pixel? x y := by
  have hw : 0 < w := Nat.zero_lt_of_lt hx
  rw [← getElem?_flatten_of_length (hp.length_of_mem_rows hw) hx, hp.flatten_rows hw,
    hp.getElem?_pixels hx hy]

/-- Pictures with the same pixels in rows of the same length are the same. -/
theorem eq_of_pixels {w' h' : ℕ} (hp : p.Fits w h) (hq : q.Fits w' h') (hw : 0 < w)
    (hpixels : p.pixels = q.pixels) (hwidth : p.width = q.width) : p = q := by
  obtain ⟨_, _, pixels⟩ := p
  obtain ⟨_, _, pixels'⟩ := q
  obtain ⟨rfl, rfl, hsize⟩ := hp
  obtain ⟨rfl, rfl, hsize'⟩ := hq
  cases hpixels
  cases hwidth
  cases Nat.eq_of_mul_eq_mul_right hw (hsize.symm.trans hsize')
  rfl

/-! ### Drawings -/

theorem length_lines (hp : p.Fits w h) (hw : 0 < w) : p.lines.length = h := by
  rw [lines, List.length_map, hp.length_rows hw]

theorem of_mem_lines (hp : p.Fits w h) (hw : 0 < w) :
    ∀ line ∈ p.lines, line.length = w ∧ '\n' ∉ line := by
  intro line hline
  obtain ⟨row, hrow, rfl⟩ := List.mem_map.1 hline
  refine ⟨by rw [List.length_map, hp.length_of_mem_rows hw row hrow], fun hmem => ?_⟩
  obtain ⟨pixel, -, hpixel⟩ := List.mem_map.1 hmem
  exact pixel.symbol_ne_newline hpixel

/-- In a column of a line stands the character for the pixel of the coordinate. -/
theorem getElem?_lines (hp : p.Fits w h) (hx : x < w) (hy : y < h) :
    p.lines[y]?.bind (·[x]?) = (p.pixel? x y).map Pixel.symbol := by
  rw [← hp.getElem?_rows hx hy, lines, List.getElem?_map]
  cases p.rows[y]? with
  | none => rfl
  | some row => simp

/-- The lines of a drawing are what is between its line feeds. -/
theorem splitOn_drawing (hp : p.Fits w h) (hw : 0 < w) (hh : 0 < h) :
    Text.splitOn '\n' p.drawing.toList = p.lines := by
  refine Text.splitOn_eq_iff.2 ⟨List.ne_nil_of_length_pos ?_,
    fun line hline => (hp.of_mem_lines hw line hline).2, p.toList_drawing⟩
  rwa [hp.length_lines hw]

/-- Pictures with the same drawing are the same, and have the same size too. -/
theorem eq_of_drawing {w' h' : ℕ} (hp : p.Fits w h) (hq : q.Fits w' h') (hw : 0 < w) (hh : 0 < h)
    (hw' : 0 < w') (hh' : 0 < h') (hdrawing : p.drawing = q.drawing) : p = q := by
  have hlines : p.lines = q.lines := by
    rw [← hp.splitOn_drawing hw hh, ← hq.splitOn_drawing hw' hh', hdrawing]
  have hrows : p.rows = q.rows :=
    List.map_injective_iff.2 (List.map_injective_iff.2 Pixel.symbol_injective) hlines
  have hpixels : p.pixels.toList = q.pixels.toList := by
    rw [← hp.flatten_rows hw, ← hq.flatten_rows hw', hrows]
  obtain ⟨row, hrow⟩ := List.exists_mem_of_length_pos (hp.length_rows hw ▸ hh)
  refine hp.eq_of_pixels hq hw (Array.ext' hpixels) ?_
  rw [hp.width_eq, hq.width_eq, ← hp.length_of_mem_rows hw row hrow,
    hq.length_of_mem_rows hw' row (hrows ▸ hrow)]

end Fits

/-! ### Buffers -/

/-- What is given for the coordinates of a rectangle, row by row. -/
def rowByRow (width height : ℕ) (given : ℕ → ℕ → List UInt8) : List UInt8 :=
  (List.range height).flatMap fun y => (List.range width).flatMap fun x => given x y

/-- A buffer for so many columns and rows is filled with the four bytes that are given for each
coordinate, at the place of the coordinate. -/
structure Stores (fill : ℕ → ℕ → (ℕ → ℕ → List UInt8) → List UInt8) : Prop where
  length_eq : ∀ w h given, (∀ x y, (given x y).length = 4) →
    (fill w h given).length = 4 * (h * w)
  getElem?_eq : ∀ w h given, (∀ x y, (given x y).length = 4) →
    ∀ x < w, ∀ y < h, ∀ j < 4, (fill w h given)[4 * (y * w + x) + j]? = (given x y)[j]?

/-- The colours of a picture as they are filled into a buffer.  A coordinate without a pixel would
have the colour of the fallback. -/
def buffer (fill : ℕ → ℕ → (ℕ → ℕ → List UInt8) → List UInt8) (fallback : Pixel) (p : Picture) :
    List UInt8 :=
  fill p.width p.height fun x y => ((p.pixel? x y).getD fallback).rgba

section

variable {part : ℕ → List α} {size n j : ℕ}

theorem length_flatMap_range (hpart : ∀ i, (part i).length = size) :
    ((List.range n).flatMap part).length = n * size := by
  have hparts : ∀ row ∈ (List.range n).map part, row.length = size := by simp [hpart]
  rw [List.flatMap, length_flatten_of_length hparts, List.length_map, List.length_range]

/-- Parts of one length stand at multiples of it. -/
theorem getElem?_flatMap_range (hpart : ∀ i, (part i).length = size) (hx : x < n) (hj : j < size) :
    ((List.range n).flatMap part)[x * size + j]? = (part x)[j]? := by
  have hparts : ∀ row ∈ (List.range n).map part, row.length = size := by simp [hpart]
  rw [List.flatMap, getElem?_flatten_of_length hparts hj, List.getElem?_map, List.getElem?_range hx,
    Option.map_some, Option.bind_some]

end

theorem stores_rowByRow : Stores rowByRow := by
  constructor
  · intro w h given hgiven
    rw [rowByRow, length_flatMap_range fun y => length_flatMap_range (hgiven · y)]
    ring
  · intro w h given hgiven x hx y hy j hj
    have hplace : 4 * (y * w + x) + j = y * (w * 4) + (x * 4 + j) := by ring
    have hcolumn : x * 4 + j < w * 4 := by omega
    rw [hplace, rowByRow,
      getElem?_flatMap_range (fun y => length_flatMap_range (hgiven · y)) hy hcolumn,
      getElem?_flatMap_range (hgiven · y) hx hj]

/-- Buffers that agree at every coordinate are the same. -/
theorem eq_of_getElem? {bs cs : List UInt8} (hbs : bs.length = 4 * (h * w))
    (hcs : cs.length = 4 * (h * w))
    (heq : ∀ x < w, ∀ y < h, ∀ j < 4, bs[4 * (y * w + x) + j]? = cs[4 * (y * w + x) + j]?) :
    bs = cs := by
  refine List.ext_getElem? fun i => ?_
  by_cases hi : i < 4 * (h * w)
  · obtain ⟨x, hx, y, hy, hxy⟩ := exists_rowMajor_eq (by omega : i / 4 < h * w)
    have hplace : 4 * (y * w + x) + i % 4 = i := by omega
    rw [← hplace]
    exact heq x hx y hy (i % 4) (Nat.mod_lt i (by decide))
  · rw [List.getElem?_eq_none (by omega), List.getElem?_eq_none (by omega)]

namespace Fits

/-- Whoever fills the buffer, it holds the colours of the pixels in turn, and the fallback is not
used. -/
theorem buffer_eq (hp : p.Fits w h) (hfill : Stores fill) :
    p.buffer fill fallback = p.pixels.toList.flatMap Pixel.rgba := by
  have hgiven : ∀ x y, ((p.pixel? x y).getD fallback).rgba.length = 4 := by simp
  have hblock : ∀ block ∈ p.pixels.toList.map Pixel.rgba, block.length = 4 := by simp
  rw [buffer, hp.width_eq, hp.height_eq]
  refine eq_of_getElem? (hfill.length_eq w h _ hgiven) ?_ fun x hx y hy j hj => ?_
  · rw [List.flatMap, length_flatten_of_length hblock, List.length_map, hp.length_pixels,
      Nat.mul_comm]
  · obtain ⟨pixel, hpixel⟩ := hp.exists_pixel?_iff.2 ⟨hx, hy⟩
    rw [hfill.getElem?_eq w h _ hgiven x hx y hy j hj, hpixel, Option.getD_some, Nat.mul_comm 4,
      List.flatMap, getElem?_flatten_of_length hblock hj, List.getElem?_map,
      hp.getElem?_pixels hx hy, hpixel, Option.map_some, Option.bind_some]

/-- The bytes of a picture are the colours of its pixels in turn. -/
theorem bytes_eq (hp : p.Fits w h) : p.bytes = p.pixels.toList.flatMap Pixel.rgba :=
  hp.buffer_eq stores_rowByRow

/-- What is stored of a picture are its bytes, whoever fills the buffer. -/
theorem buffer_eq_bytes (hp : p.Fits w h) (hfill : Stores fill) :
    p.buffer fill fallback = p.bytes :=
  (hp.buffer_eq hfill).trans hp.bytes_eq.symm

theorem length_bytes (hp : p.Fits w h) : p.bytes.length = 4 * (h * w) := by
  rw [← hp.width_eq, ← hp.height_eq]
  exact stores_rowByRow.length_eq p.width p.height _ (by simp)

/-- At the place of a coordinate stands the colour of its pixel. -/
theorem getElem?_bytes {j : ℕ} {pixel : Pixel} (hp : p.Fits w h)
    (hpixel : p.pixel? x y = some pixel) (hj : j < 4) :
    p.bytes[4 * (y * w + x) + j]? = pixel.rgba[j]? := by
  obtain ⟨hx, hy⟩ := hp.exists_pixel?_iff.1 ⟨pixel, hpixel⟩
  obtain ⟨rfl, rfl, -⟩ := hp
  have hplace := stores_rowByRow.getElem?_eq p.width p.height
    (fun x y => ((p.pixel? x y).getD .transparent).rgba) (by simp) x hx y hy j hj
  rwa [hpixel, Option.getD_some] at hplace

end Fits

/-- Codes of one length that stand one after the other can be told apart. -/
theorem flatMap_rgba_injective : Function.Injective (List.flatMap Pixel.rgba) := by
  intro ps qs h
  induction ps generalizing qs with
  | nil =>
    cases qs with
    | nil => rfl
    | cons q qs => cases q <;> cases h
  | cons p ps ih =>
    cases qs with
    | nil => cases p <;> cases h
    | cons q qs =>
      obtain ⟨hfirst, hrest⟩ := List.append_inj h (by simp)
      rw [Pixel.rgba_injective hfirst, ih hrest]

/-- Pictures with the same bytes have the same pixels. -/
theorem Fits.pixels_eq_of_bytes {w' h' : ℕ} (hp : p.Fits w h) (hq : q.Fits w' h')
    (hbytes : p.bytes = q.bytes) : p.pixels = q.pixels := by
  rw [hp.bytes_eq, hq.bytes_eq] at hbytes
  exact Array.ext' (flatMap_rgba_injective hbytes)

/-! ### Digits -/

theorem pixels_eq_of_numerals (hnumerals : p.numerals = q.numerals) : p.pixels = q.pixels :=
  Array.ext' (List.map_injective_iff.2 Pixel.numeral_injective hnumerals)

namespace Fits

/-- The digits of a picture are cut into the layer of the picture, and nothing is left over. -/
theorem split_numerals (hp : p.Fits w h) (hw : 0 < w) (hh : 0 < h) :
    LayerStack.split p.numerals w h = .ok ⟨w, h, [p.layer]⟩ := by
  have hlength : p.numerals.length = w * h := by
    rw [numerals, List.length_map, hp.length_pixels, Nat.mul_comm]
  have hone : 1 = p.numerals.length / (w * h) := by
    rw [hlength, Nat.div_self (Nat.mul_pos hw hh)]
  have hall : ∀ c ∈ p.numerals.take (1 * (w * h)), c.isDigit = true := by
    intro c hc
    obtain ⟨pixel, -, rfl⟩ := List.mem_map.1 (List.mem_of_mem_take hc)
    exact pixel.isDigit_numeral
  have hdigits : (p.numerals.take (1 * (w * h))).map Text.digitValue =
      p.pixels.toList.map Pixel.digit := by
    rw [List.take_of_length_le (by omega), numerals, List.map_map]
    exact List.map_congr_left fun pixel _ => pixel.digitValue_numeral
  have hlayer : (p.pixels.toList.map Pixel.digit).take (w * h) = p.pixels.toList.map Pixel.digit :=
    List.take_of_length_le (by rw [List.length_map, hp.length_pixels, Nat.mul_comm])
  rw [LayerStack.split_eq_ok hw hh hone hall, hdigits, LayerStack.cut, LayerStack.pieces,
    LayerStack.pieces, hlayer, layer, hp.rows_eq hw, List.map_singleton, LayerStack.pieces_map]

/-- The layer of a picture shows the picture. -/
theorem flatten_layer (hp : p.Fits w h) (hw : 0 < w) (hh : 0 < h) :
    LayerStack.flatten ⟨w, h, [p.layer]⟩ = .ok p := by
  have hfills : ∀ l ∈ [p.layer], l.Fills w h := List.forall_mem_singleton.2 (hp.fills_layer hw)
  rw [← LayerStack.pictureOf_eq_flatten hw hh hfills, LayerStack.pictureOf_eq_ok_iff hfills]
  refine ⟨hw, hh, by simp, ?_, hp, fun x hx y hy => ?_⟩
  · rw [List.flatMap_singleton, hp.digits_layer hw, List.forall_mem_map]
    exact fun pixel _ => pixel.digit_le
  · obtain ⟨pixel, hpixel⟩ := hp.exists_pixel?_iff.2 ⟨hx, hy⟩
    refine ⟨pixel, hpixel, .single ?_⟩
    rw [hp.digit?_layer hx hy, hpixel, Option.map_some]

end Fits

/-- **All views of a picture show the same, and each of them determines it**, the bytes and the
digits if the width is known. -/
theorem views_of_flatten {s : LayerStack} {p : Picture}
    {fill : ℕ → ℕ → (ℕ → ℕ → List UInt8) → List UInt8} (hs : s.Obtained)
    (hp : s.flatten = .ok p) (hfill : Stores fill) :
    p.width = s.width ∧ p.height = s.height ∧
    (∀ x y, (∃ pixel, p.pixel? x y = some pixel) ↔ x < p.width ∧ y < p.height) ∧
    (p.rows.length = p.height ∧ (∀ row ∈ p.rows, row.length = p.width) ∧
      ∀ x < p.width, ∀ y < p.height, p.rows[y]?.bind (·[x]?) = p.pixel? x y) ∧
    (∃ lines : List (List Char), p.drawing.toList = ['\n'].intercalate lines ∧
      lines.length = p.height ∧ (∀ line ∈ lines, line.length = p.width ∧ '\n' ∉ line) ∧
      ∀ x y pixel, p.pixel? x y = some pixel →
        lines[y]?.bind (·[x]?) = some (match pixel with
          | .white => '#'
          | .black => ' '
          | .transparent => '.')) ∧
    ((∀ fallback, p.buffer fill fallback = p.bytes) ∧
      p.bytes.length = 4 * (p.height * p.width) ∧
      ∀ x y pixel, p.pixel? x y = some pixel → ∀ j < 4,
        p.bytes[4 * (y * p.width + x) + j]? = pixel.rgba[j]?) ∧
    (∀ (t : LayerStack) (q : Picture), t.Obtained → t.flatten = .ok q →
      (p.drawing = q.drawing → p = q) ∧
      (p.bytes = q.bytes → p.pixels = q.pixels) ∧
      (p.numerals = q.numerals → p.pixels = q.pixels) ∧
      (p.pixels = q.pixels → p.width = q.width → p = q)) ∧
    ∃ l, LayerStack.split p.numerals p.width p.height = .ok ⟨p.width, p.height, [l]⟩ ∧
      LayerStack.flatten ⟨p.width, p.height, [l]⟩ = .ok p := by
  have hfits := LayerStack.fits_of_flatten hp
  obtain ⟨hw, hh, -⟩ := hs.filled
  rw [hfits.width_eq, hfits.height_eq]
  refine ⟨rfl, rfl, fun x y => hfits.exists_pixel?_iff,
    ⟨hfits.length_rows hw, hfits.length_of_mem_rows hw, fun x hx y hy => hfits.getElem?_rows hx hy⟩,
    ⟨p.lines, p.toList_drawing, hfits.length_lines hw, hfits.of_mem_lines hw,
      fun x y pixel hpixel => ?_⟩,
    ⟨fun fallback => hfits.buffer_eq_bytes hfill, hfits.length_bytes,
      fun x y pixel hpixel j hj => hfits.getElem?_bytes hpixel hj⟩,
    fun t q ht hq => ?_,
    ⟨p.layer, hfits.split_numerals hw hh, hfits.flatten_layer hw hh⟩⟩
  · obtain ⟨hx, hy⟩ := hfits.exists_pixel?_iff.1 ⟨pixel, hpixel⟩
    rw [hfits.getElem?_lines hx hy, hpixel, Option.map_some]
    cases pixel <;> rfl
  · have hfits' := LayerStack.fits_of_flatten hq
    obtain ⟨hw', hh', -⟩ := ht.filled
    refine ⟨hfits.eq_of_drawing hfits' hw hh hw' hh',
      hfits.pixels_eq_of_bytes hfits', pixels_eq_of_numerals,
      fun hpixels hwidth => hfits.eq_of_pixels hfits' hw hpixels ?_⟩
    rw [hfits.width_eq, hwidth]

/-- A picture in which one sees through the whole right half of the upper row.  Whatever a buffer
has for coordinates without a pixel, it is stored as it is shown. -/
theorem views_of_flatten_patchy :
    ∃ s p, LayerStack.split "022212222120".toList 3 2 = .ok s ∧ s.flatten = .ok p ∧
      p.drawing = " ..\n## " ∧ p.pixel? 2 0 = some .transparent ∧
      (∀ x y, (∃ pixel, p.pixel? x y = some pixel) ↔ x < 3 ∧ y < 2) ∧
      p.buffer rowByRow .white = p.bytes ∧ p.bytes[4 * (1 * 3 + 1)]? = some 255 ∧
      ∃ l, LayerStack.split p.numerals 3 2 = .ok ⟨3, 2, [l]⟩ ∧
        LayerStack.flatten ⟨3, 2, [l]⟩ = .ok p := by
  have hsplit : LayerStack.split "022212222120".toList 3 2 =
      .ok ⟨3, 2, [⟨[[0, 2, 2], [2, 1, 2]]⟩, ⟨[[2, 2, 2], [1, 2, 0]]⟩]⟩ := by
    decide +kernel
  have hflatten : LayerStack.flatten
      ⟨3, 2, [⟨[[0, 2, 2], [2, 1, 2]]⟩, ⟨[[2, 2, 2], [1, 2, 0]]⟩]⟩ =
      .ok ⟨3, 2, #[.black, .transparent, .transparent, .white, .white, .black]⟩ := by
    decide +kernel
  obtain ⟨-, -, hinside, -, -, ⟨hbuffer, -, hbytes⟩, -, hagain⟩ :=
    views_of_flatten (.inl ⟨_, _, _, hsplit⟩) hflatten stores_rowByRow
  exact ⟨_, _, hsplit, hflatten, by decide +kernel, rfl, hinside, hbuffer .white,
    hbytes 1 1 .white rfl 0 (by decide), hagain⟩

end Picture

end Shipboard
