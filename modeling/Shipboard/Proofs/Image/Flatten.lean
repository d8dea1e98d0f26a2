import Mathlib.Data.Prod.Lex
import Mathlib.Tactic
import Shipboard.Image.Picture
import Shipboard.Proofs.Image.Shape

/-!
# What is seen of a stack

A stack is flattened in two passes: all digits are looked at in the order of the stream, and then
every coordinate from the front.  Here the results of both are found by coordinates.

* `LayerStack.FirstColourless s d`: the first digit that stands for no colour is `d`;
* `LayerStack.Seen x y layers pixel`: what is seen at a coordinate of some layers;
* `LayerStack.Filled.exists_flatten_eq_error` and `LayerStack.Filled.exists_flatten_eq_ok`: what the
  two passes give;
* `LayerStack.flatten_of_obtained`: the picture, or what is reported instead.
-/

namespace Shipboard

/-! ### Colours -/

namespace Pixel

theorem exists_eq_digit {d : ℕ} (h : d ≤ 2) : ∃ pixel : Pixel, d = pixel.digit := by
  match d, h with
  | 0, _ => exact ⟨black, rfl⟩
  | 1, _ => exact ⟨white, rfl⟩
  | 2, _ => exact ⟨transparent, rfl⟩

theorem digit_eq_two_iff {pixel : Pixel} : pixel.digit = 2 ↔ pixel = transparent := by
  cases pixel <;> simp [digit]

theorem ofDigit_of_lt {d : ℕ} (h : 2 < d) : ofDigit d = .error (.notAPixel d) := by
  obtain ⟨n, rfl⟩ := Nat.exists_eq_add_of_le' h
  rfl

end Pixel

namespace LayerStack

variable {s : LayerStack} {x y k d : ℕ} {layers : List Layer} {pixel : Pixel}

/-! ### The first pass -/

/-- The first digit that stands for no colour, layer by layer, row by row and column by column. -/
def FirstColourless (s : LayerStack) (d : ℕ) : Prop :=
  ∃ k x y, s.digit? k x y = some d ∧ 2 < d ∧
    ∀ k' x' y' d', s.digit? k' x' y' = some d' → 2 < d' →
      toLex (k, toLex (y, x)) ≤ toLex (k', toLex (y', x'))

/-- The first digit that stands for no colour, as it is found among all digits. -/
theorem Filled.firstColourless {front behind : List ℕ} (hs : s.Filled)
    (hdigits : s.digits = front ++ d :: behind) (hfront : ∀ e ∈ front, e ≤ 2) (hd : 2 < d) :
    s.FirstColourless d := by
  have hplace : s.digits[front.length]? = some d := by simp [hdigits]
  obtain ⟨k, x, y, hdigit, hindex⟩ := hs.exists_digit?_of_getElem?_digits hplace
  refine ⟨k, x, y, hdigit, hd, fun k' x' y' d' hdigit' hd' => ?_⟩
  obtain ⟨-, hx', hy'⟩ := hs.lt_of_digit? hdigit'
  by_contra hbefore
  have hlt := place_lt hx' hy' (not_le.1 hbefore)
  rw [hindex] at hlt
  -- a digit at an earlier place stands for a colour
  rw [← hs.getElem?_digits hx' hy', hdigits, List.getElem?_append_left hlt] at hdigit'
  exact absurd (hfront d' (List.mem_of_getElem? hdigit')) (not_le.2 hd')

/-- One digit is looked at. -/
def look (digit : ℕ) : Except Failure Unit :=
  (liftM (Pixel.ofDigit digit) : Except Failure Pixel).map fun _ => ()

theorem look_eq (d : ℕ) :
    look d = if d ≤ 2 then .ok () else .error (.fault (.notAPixel d)) := by
  split_ifs with hd
  · obtain ⟨pixel, rfl⟩ := Pixel.exists_eq_digit hd
    rw [look, Pixel.ofDigit_digit]
    rfl
  · rw [look, Pixel.ofDigit_of_lt (not_le.1 hd)]
    rfl

theorem look_eq_ok_iff {u : Unit} : look d = .ok u ↔ d ≤ 2 := by
  rw [look_eq]
  split_ifs with hd <;> simp [hd]

theorem look_eq_error_iff {why : Failure} :
    look d = .error why ↔ 2 < d ∧ why = .fault (.notAPixel d) := by
  rw [look_eq]
  split_ifs with hd
  · simp [not_lt.2 hd]
  · simp [not_le.1 hd, eq_comm]

theorem forM_look_eq_ok_iff {digits : List ℕ} {u : Unit} :
    digits.forM look = .ok u ↔ ∀ d ∈ digits, d ≤ 2 := by
  rw [forM_eq_map_mapM, map_eq_ok]
  constructor
  · rintro ⟨us, hus, -⟩ d hd
    obtain ⟨v, -, hv⟩ := exists_ok_of_mapM hus hd
    exact look_eq_ok_iff.1 hv
  · intro h
    obtain ⟨us, hus⟩ := exists_mapM_eq_ok fun d hd => ⟨(), look_eq_ok_iff.2 (h d hd)⟩
    exact ⟨us, hus, rfl⟩

/-- The first digit that stands for no colour is reported. -/
theorem exists_of_forM_look_eq_error {digits : List ℕ} {why : Failure}
    (h : digits.forM look = .error why) :
    ∃ front d behind, digits = front ++ d :: behind ∧ (∀ e ∈ front, e ≤ 2) ∧ 2 < d ∧
      why = .fault (.notAPixel d) := by
  rw [forM_eq_map_mapM, map_eq_error] at h
  obtain ⟨front, d, behind, hdigits, hfront, hd⟩ := mapM_eq_error_iff.1 h
  obtain ⟨hlt, rfl⟩ := look_eq_error_iff.1 hd
  refine ⟨front, d, behind, hdigits, fun e he => ?_, hlt, rfl⟩
  obtain ⟨u, hu⟩ := hfront e he
  exact look_eq_ok_iff.1 hu

/-! ### The second pass -/

/-- What is seen at a coordinate of some layers. -/
inductive Seen (x y : ℕ) : List Layer → Pixel → Prop
  /-- There is no layer. -/
  | nothing : Seen x y [] .transparent
  /-- The first layer is seen through. -/
  | through {layer : Layer} {behind : List Layer} {pixel : Pixel}
    (h : layer.digit? x y = some 2) (hs : Seen x y behind pixel) : Seen x y (layer :: behind) pixel
  /-- The first layer covers the others. -/
  | covered {layer : Layer} {behind : List Layer} {pixel : Pixel}
    (h : layer.digit? x y = some pixel.digit) (hpixel : pixel ≠ .transparent) :
    Seen x y (layer :: behind) pixel

namespace Seen

/-- The first digit that is not seen through has the colour that is seen. -/
theorem eq_digit (h : Seen x y layers pixel) (hd : layers[k]?.bind (·.digit? x y) = some d)
    (hne : d ≠ 2) (hfront : ∀ j < k, layers[j]?.bind (·.digit? x y) = some 2) :
    d = pixel.digit := by
  induction h generalizing k with
  | nothing => simp at hd
  | @through layer behind pixel h hs ih =>
    cases k with
    | zero =>
      simp only [List.getElem?_cons_zero, Option.bind_some, h, Option.some.injEq] at hd
      exact absurd hd.symm hne
    | succ k =>
      exact ih (by simpa using hd) fun j hj => by simpa using hfront (j + 1) (by omega)
  | @covered layer behind pixel h hpixel =>
    cases k with
    | zero =>
      simp only [List.getElem?_cons_zero, Option.bind_some, h, Option.some.injEq] at hd
      exact hd.symm
    | succ k =>
      have hfirst := hfront 0 (by omega)
      simp only [List.getElem?_cons_zero, Option.bind_some, h, Option.some.injEq] at hfirst
      exact absurd (Pixel.digit_eq_two_iff.1 hfirst) hpixel

theorem eq_transparent_iff (h : Seen x y layers pixel) :
    pixel = .transparent ↔ ∀ layer ∈ layers, layer.digit? x y = some 2 := by
  induction h with
  | nothing => simp
  | through h hs ih => rw [ih, List.forall_mem_cons, and_iff_right h]
  | covered h hpixel =>
    refine iff_of_false hpixel fun hall => hpixel ?_
    have hfirst := hall _ List.mem_cons_self
    rw [h] at hfirst
    exact Pixel.digit_eq_two_iff.1 (Option.some.inj hfirst)

end Seen

/-- Where all digits stand for colours, what is seen is found.  If all layers are seen through, it
is taken from the hindmost. -/
theorem exists_resolve {back : Layer} (hcolours : ∀ l ∈ layers, ∃ d ≤ 2, l.digit? x y = some d)
    (hback : (∀ l ∈ layers, l.digit? x y = some 2) → back.digit? x y = some 2) :
    ∃ pixel, resolve back x y layers = .ok pixel ∧ Seen x y layers pixel := by
  induction layers with
  | nil =>
    refine ⟨.transparent, ?_, .nothing⟩
    rw [resolve, Layer.digit_eq_ok_iff.2 (hback (by simp))]
    rfl
  | cons layer behind ih =>
    obtain ⟨⟨d, hd, hdigit⟩, hcolours⟩ := List.forall_mem_cons.1 hcolours
    obtain ⟨pixel, rfl⟩ := Pixel.exists_eq_digit hd
    by_cases hpixel : pixel = .transparent
    · subst hpixel
      obtain ⟨pixel, hresolve, hseen⟩ :=
        ih hcolours fun hall => hback (List.forall_mem_cons.2 ⟨hdigit, hall⟩)
      refine ⟨pixel, ?_, .through hdigit hseen⟩
      rw [resolve, Layer.digit_eq_ok_iff.2 hdigit]
      exact hresolve
    · refine ⟨pixel, ?_, .covered hdigit hpixel⟩
      rw [resolve, Layer.digit_eq_ok_iff.2 hdigit]
      cases pixel with
      | black => rfl
      | white => rfl
      | transparent => exact absurd rfl hpixel

/-- The coordinates are listed row by row. -/
theorem getElem?_coordinates {width height : ℕ} (hx : x < width) (hy : y < height) :
    (coordinates width height)[y * width + x]? = some (x, y) := by
  have hlength : ∀ row ∈ (List.range height).map fun y => (List.range width).map fun x => (x, y),
      row.length = width := by
    simp
  rw [coordinates, List.flatMap, getElem?_flatten_of_length hlength hx]
  simp [hx, hy]

/-- Where all digits stand for colours, every coordinate has a pixel. -/
theorem Filled.exists_pixels {back : Layer} (hs : s.Filled) (hback : back ∈ s.layers)
    (hcolours : ∀ k x y d, s.digit? k x y = some d → d ≤ 2) :
    ∃ pixels, ((coordinates s.width s.height).mapM fun (x, y) => resolve back x y s.layers) =
        .ok pixels ∧
      ∀ x < s.width, ∀ y < s.height, ∃ pixel, pixels[y * s.width + x]? = some pixel ∧
        Seen x y s.layers pixel := by
  have hresolve : ∀ x < s.width, ∀ y < s.height,
      ∃ pixel, resolve back x y s.layers = .ok pixel ∧ Seen x y s.layers pixel := by
    intro x hx y hy
    refine exists_resolve (fun l hl => ?_) fun hall => hall back hback
    obtain ⟨k, hk, rfl⟩ := List.getElem_of_mem hl
    obtain ⟨d, hd⟩ := hs.exists_digit? hk hx hy
    refine ⟨d, hcolours k x y d hd, ?_⟩
    rwa [digit?, List.getElem?_eq_getElem hk] at hd
  have hmap : ∃ pixels, ((coordinates s.width s.height).mapM fun (x, y) =>
      resolve back x y s.layers) = .ok pixels := by
    refine exists_mapM_eq_ok fun place hmem => ?_
    obtain ⟨x, y⟩ := place
    simp only [coordinates, List.mem_flatMap, List.mem_map, List.mem_range, Prod.mk.injEq] at hmem
    obtain ⟨y, hy, x, hx, rfl, rfl⟩ := hmem
    obtain ⟨pixel, hpixel, -⟩ := hresolve x hx y hy
    exact ⟨pixel, hpixel⟩
  obtain ⟨pixels, hpixels⟩ := hmap
  refine ⟨pixels, hpixels, fun x hx y hy => ?_⟩
  obtain ⟨pixel, hplace, hpixel⟩ := exists_getElem?_of_mapM hpixels (getElem?_coordinates hx hy)
  obtain ⟨pixel', hpixel', hseen⟩ := hresolve x hx y hy
  cases hpixel.symm.trans hpixel'
  exact ⟨pixel, hplace, hseen⟩

/-! ### Both passes -/

theorem flatten_eq {back : Layer} (hback : s.layers.getLast? = some back) :
    s.flatten = s.digits.forM look >>= fun _ =>
      ((coordinates s.width s.height).mapM fun (x, y) => resolve back x y s.layers) >>=
        fun pixels => .ok ⟨s.width, s.height, pixels.toArray⟩ := by
  rw [flatten, hback]
  rfl

theorem flatten_eq_noLayers (h : s.layers = []) : s.flatten = Failure.because .noLayers := by
  rw [flatten, h]
  rfl

/-- If a digit stands for no colour, the first of them is reported. -/
theorem Filled.exists_flatten_eq_error (hs : s.Filled) {d : ℕ} (hdigit : s.digit? k x y = some d)
    (hd : 2 < d) :
    ∃ d, s.FirstColourless d ∧ s.flatten = Failure.because (.notAPixel d) := by
  have hlayers := List.ne_nil_of_length_pos (Nat.zero_lt_of_lt (hs.lt_of_digit? hdigit).1)
  cases hlook : s.digits.forM look with
  | ok u =>
    have hmem : d ∈ s.digits := hs.mem_digits_iff.2 ⟨k, x, y, hdigit⟩
    exact absurd (forM_look_eq_ok_iff.1 hlook d hmem) (not_le.2 hd)
  | error why =>
    obtain ⟨front, d, behind, hdigits, hfront, hd, rfl⟩ := exists_of_forM_look_eq_error hlook
    refine ⟨d, hs.firstColourless hdigits hfront hd, ?_⟩
    rw [flatten_eq (List.getLast?_eq_some_getLast hlayers), hlook]
    rfl

/-- If there is a layer and all digits stand for colours, there is a picture of what is seen. -/
theorem Filled.exists_flatten_eq_ok (hs : s.Filled) (hlayers : s.layers ≠ [])
    (hcolours : ∀ k x y d, s.digit? k x y = some d → d ≤ 2) :
    ∃ p, s.flatten = .ok p ∧ p.width = s.width ∧ p.height = s.height ∧
      ∀ x < s.width, ∀ y < s.height, ∃ pixel, p.pixel? x y = some pixel ∧
        Seen x y s.layers pixel := by
  obtain ⟨pixels, hpixels, hseen⟩ := hs.exists_pixels (List.getLast_mem hlayers) hcolours
  have hlook : s.digits.forM look = .ok () := by
    refine forM_look_eq_ok_iff.2 fun d hd => ?_
    obtain ⟨k, x, y, hdigit⟩ := hs.mem_digits_iff.1 hd
    exact hcolours k x y d hdigit
  refine ⟨⟨s.width, s.height, pixels.toArray⟩, ?_, rfl, rfl, fun x hx y hy => ?_⟩
  · rw [flatten_eq (List.getLast?_eq_some_getLast hlayers), hlook, hpixels]
    rfl
  · obtain ⟨pixel, hplace, hpixel⟩ := hseen x hx y hy
    refine ⟨pixel, ?_, hpixel⟩
    rw [Picture.pixel?, if_pos ⟨hx, hy⟩, List.getElem?_toArray, hplace]

/-- **A stack is refused exactly if it has no picture**: it has no layers, or some digit stands for
no colour, even one that cannot be seen. -/
theorem flatten_of_obtained (hs : s.Obtained) :
    (s.flatten = Failure.because .noLayers ↔ s.layers = []) ∧
    (s.layers ≠ [] →
      ((∃ d, s.flatten = Failure.because (.notAPixel d)) ↔
        ∃ k x y d, s.digit? k x y = some d ∧ 2 < d) ∧
      (∀ d, s.flatten = Failure.because (.notAPixel d) → s.FirstColourless d) ∧
      ((¬ ∃ k x y d, s.digit? k x y = some d ∧ 2 < d) →
        ∃ p, s.flatten = .ok p ∧ p.width = s.width ∧ p.height = s.height ∧
          ∀ x < s.width, ∀ y < s.height, ∃ pixel, p.pixel? x y = some pixel ∧
            (∀ k d, s.digit? k x y = some d → d ≠ 2 → (∀ j < k, s.digit? j x y = some 2) →
              Pixel.ofDigit d = .ok pixel) ∧
            (pixel = .transparent ↔ ∀ k < s.layers.length, s.digit? k x y = some 2))) ∧
    s.flatten ≠ .error .outOfRange := by
  have hfilled := hs.filled
  by_cases hlayers : s.layers = []
  · have hflatten := flatten_eq_noLayers hlayers
    refine ⟨iff_of_true hflatten hlayers, fun hne => absurd hlayers hne, ?_⟩
    rw [hflatten]
    exact fun h => by cases h
  by_cases hbad : ∃ k x y d, s.digit? k x y = some d ∧ 2 < d
  · obtain ⟨k, x, y, d, hdigit, hd⟩ := hbad
    obtain ⟨d', hfirst, hflatten⟩ := hfilled.exists_flatten_eq_error hdigit hd
    rw [hflatten]
    refine ⟨iff_of_false ?_ hlayers, fun _ => ⟨iff_of_true ⟨d', rfl⟩ ⟨k, x, y, d, hdigit, hd⟩,
      ?_, fun hnone => absurd ⟨k, x, y, d, hdigit, hd⟩ hnone⟩, ?_⟩
    · exact fun h => by cases h
    · intro e he
      cases he
      exact hfirst
    · exact fun h => by cases h
  · have hcolours : ∀ k x y d, s.digit? k x y = some d → d ≤ 2 :=
      fun k x y d hdigit => not_lt.1 fun hd => hbad ⟨k, x, y, d, hdigit, hd⟩
    obtain ⟨p, hflatten, hwidth, hheight, hseen⟩ :=
      hfilled.exists_flatten_eq_ok hlayers hcolours
    rw [hflatten]
    refine ⟨iff_of_false (fun h => by cases h) hlayers, fun _ => ⟨iff_of_false ?_ hbad, ?_,
      fun _ => ⟨p, rfl, hwidth, hheight, fun x hx y hy => ?_⟩⟩, fun h => by cases h⟩
    · rintro ⟨d, hd⟩
      cases hd
    · intro d hd
      cases hd
    · obtain ⟨pixel, hpixel, hseen⟩ := hseen x hx y hy
      refine ⟨pixel, hpixel, fun k d hd hne hfront => ?_, ?_⟩
      · rw [hseen.eq_digit hd hne hfront, Pixel.ofDigit_digit]
      · rw [hseen.eq_transparent_iff, List.forall_mem_iff_getElem]
        refine forall₂_congr fun k hk => ?_
        rw [digit?, List.getElem?_eq_getElem hk, Option.bind_some]

/-- Through the first of four layers the second is seen, and a digit that stands for no colour is
reported though it is covered. -/
theorem flatten_of_obtained_covered :
    (∃ s p, split "0222112222120000".toList 2 2 = .ok s ∧ s.flatten = .ok p ∧
      p.pixel? 1 0 = some .white) ∧
    ∃ s d, split "03".toList 1 1 = .ok s ∧ s.flatten = Failure.because (.notAPixel d) ∧
      s.FirstColourless d := by
  constructor
  · have hsplit : split "0222112222120000".toList 2 2 = .ok ⟨2, 2, [⟨[[0, 2], [2, 2]]⟩,
        ⟨[[1, 1], [2, 2]]⟩, ⟨[[2, 2], [1, 2]]⟩, ⟨[[0, 0], [0, 0]]⟩]⟩ := by
      decide +kernel
    have hs : Obtained _ := .inl ⟨_, _, _, hsplit⟩
    obtain ⟨-, -, hpicture⟩ := (flatten_of_obtained hs).2.1 (List.cons_ne_nil _ _)
    have hcolours : ∀ d ∈ [0, 2, 2, 2, 1, 1, 2, 2, 2, 2, 1, 2, 0, 0, 0, 0], ¬ 2 < d := by decide
    obtain ⟨p, hp, -, -, hpixels⟩ := hpicture fun ⟨k, x, y, d, hdigit, hd⟩ =>
      hcolours d (hs.filled.mem_digits_iff.2 ⟨k, x, y, hdigit⟩) hd
    obtain ⟨pixel, hpixel, hseen, -⟩ := hpixels 1 (by decide) 0 (by decide)
    cases hseen 1 1 rfl (by decide) (by decide)
    exact ⟨_, p, hsplit, hp, hpixel⟩
  · have hsplit : split "03".toList 1 1 = .ok ⟨1, 1, [⟨[[0]]⟩, ⟨[[3]]⟩]⟩ := by decide +kernel
    obtain ⟨hcolourless, hfirst, -⟩ :=
      (flatten_of_obtained (.inl ⟨_, _, _, hsplit⟩)).2.1 (List.cons_ne_nil _ _)
    obtain ⟨d, hd⟩ := hcolourless.2 ⟨1, 0, 0, 3, rfl, by decide⟩
    exact ⟨_, d, hsplit, hd, hfirst d hd⟩

end LayerStack

end Shipboard
