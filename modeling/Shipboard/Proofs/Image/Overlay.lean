import Mathlib.Tactic
import Shipboard.Proofs.Image.Flatten

/-!
# Layers over layers

A stack can be flattened in two parts: it shows what its front part shows and, where that is seen
through, what the part behind it shows.

* `Pixel.overlay` is what is seen of two pixels, and `LayerStack.Seen.append` what is seen of two
  parts of a stack;
* `Picture.Fits p width height`: the picture `p` has the given size, with a pixel for every
  coordinate, and `Picture.layer` are its digits;
* `LayerStack.pictureOf width height layers` is the picture of layers of one size;
* `LayerStack.Depicts width height layers p`: the picture `p` shows what is seen of the layers.
  There is one such picture at most (`LayerStack.Depicts.unique`), and `pictureOf_eq_ok_iff` says
  when it is found;
* `LayerStack.pictureOf_append` is the main result.
-/

namespace Shipboard

variable {w h x y : ℕ}

/-! ### Pixels over pixels -/

namespace Pixel

/-- What is seen of two pixels, the first of which is in front. -/
def overlay (front behind : Pixel) : Pixel :=
  if front = transparent then behind else front

@[simp] theorem transparent_overlay (p : Pixel) : transparent.overlay p = p := rfl

@[simp] theorem overlay_self (p : Pixel) : p.overlay p = p := by
  cases p <;> rfl

theorem overlay_of_ne {p : Pixel} (hp : p ≠ transparent) (q : Pixel) : p.overlay q = p :=
  if_neg hp

theorem digit_injective : Function.Injective digit := by
  intro p q h
  have hp := ofDigit_digit p
  rw [h, ofDigit_digit] at hp
  exact (Except.ok.inj hp).symm

theorem digit_le (p : Pixel) : p.digit ≤ 2 := by
  cases p <;> decide

end Pixel

/-! ### Pictures by their pixels -/

namespace Picture

variable {p q : Picture}

/-- A picture of the given size, with a pixel for every coordinate. -/
structure Fits (p : Picture) (width height : ℕ) : Prop where
  width_eq : p.width = width
  height_eq : p.height = height
  size_eq : p.pixels.size = height * width

/-- The digits of a picture as a layer. -/
def layer (p : Picture) : Layer :=
  ⟨p.rows.map (List.map Pixel.digit)⟩

namespace Fits

/-- Pictures of one size that agree at every coordinate are the same. -/
theorem eq_of_pixel? (hp : p.Fits w h) (hq : q.Fits w h)
    (heq : ∀ x < w, ∀ y < h, p.pixel? x y = q.pixel? x y) : p = q := by
  obtain ⟨_, _, pixels⟩ := p
  obtain ⟨_, _, pixels'⟩ := q
  obtain ⟨rfl, rfl, hsize⟩ := hp
  obtain ⟨hwidth, hheight, hsize'⟩ := hq
  cases hwidth
  cases hheight
  simp only [pixel?] at hsize hsize' heq
  suffices hpixels : pixels = pixels' by rw [hpixels]
  refine Array.ext (hsize.trans hsize'.symm) fun i hi hi' => ?_
  obtain ⟨x, hx, y, hy, rfl⟩ := exists_rowMajor_eq (hsize ▸ hi)
  have hpixel := heq x hx y hy
  rw [if_pos ⟨hx, hy⟩, if_pos ⟨hx, hy⟩] at hpixel
  rwa [Array.getElem?_eq_getElem hi, Array.getElem?_eq_getElem hi', Option.some.injEq] at hpixel

theorem rows_eq (hp : p.Fits w h) (hw : 0 < w) :
    p.rows = LayerStack.pieces w h p.pixels.toList := by
  rw [rows, hp.width_eq, hp.size_eq, Nat.mul_div_cancel _ hw]

theorem fills_layer (hp : p.Fits w h) (hw : 0 < w) : p.layer.Fills w h := by
  have henough : h * w ≤ p.pixels.toList.length := by rw [Array.length_toList, hp.size_eq]
  constructor
  · rw [layer, List.length_map, hp.rows_eq hw, LayerStack.length_pieces]
  · intro row hrow
    obtain ⟨pixels, hpixels, rfl⟩ := List.mem_map.1 hrow
    rw [hp.rows_eq hw] at hpixels
    rw [List.length_map, LayerStack.length_of_mem_pieces henough hpixels]

theorem digits_layer (hp : p.Fits w h) (hw : 0 < w) :
    p.layer.digits = p.pixels.toList.map Pixel.digit := by
  have hall : p.pixels.toList.length ≤ h * w := by rw [Array.length_toList, hp.size_eq]
  rw [Layer.digits, layer, ← List.map_flatten, hp.rows_eq hw, LayerStack.flatten_pieces,
    List.take_of_length_le hall]

/-- The digit at a coordinate stands for the pixel there. -/
theorem digit?_layer (hp : p.Fits w h) (hx : x < w) (hy : y < h) :
    p.layer.digit? x y = (p.pixel? x y).map Pixel.digit := by
  have hw : 0 < w := Nat.zero_lt_of_lt hx
  rw [← (hp.fills_layer hw).getElem?_digits hx, hp.digits_layer hw, List.getElem?_map, pixel?,
    hp.width_eq, hp.height_eq, if_pos ⟨hx, hy⟩, Array.getElem?_toList]

end Fits

end Picture

namespace LayerStack

variable {layers front behind : List Layer} {clear own : Layer} {p : Picture} {a b : Pixel}
  {why : Failure}

/-! ### What is seen of layers over layers -/

namespace Seen

theorem unique (ha : Seen x y layers a) (hb : Seen x y layers b) : a = b := by
  induction ha with
  | nothing => cases hb; rfl
  | through hdigit hs ih =>
    cases hb with
    | through _ hb => exact ih hb
    | covered hdigit' hne =>
      rw [hdigit, Option.some.injEq] at hdigit'
      exact absurd (Pixel.digit_eq_two_iff.1 hdigit'.symm) hne
  | covered hdigit hne =>
    cases hb with
    | through hdigit' _ =>
      rw [hdigit, Option.some.injEq] at hdigit'
      exact absurd (Pixel.digit_eq_two_iff.1 hdigit') hne
    | covered hdigit' _ =>
      rw [hdigit, Option.some.injEq] at hdigit'
      exact Pixel.digit_injective hdigit'

/-- Of two parts of a stack one sees the first over the second. -/
theorem append (ha : Seen x y front a) (hb : Seen x y behind b) :
    Seen x y (front ++ behind) (a.overlay b) := by
  induction ha with
  | nothing => exact hb
  | through hdigit hs ih => exact .through hdigit ih
  | covered hdigit hne =>
    rw [Pixel.overlay_of_ne hne]
    exact .covered hdigit hne

/-- Nothing is changed by a layer that is seen through. -/
theorem insert (hclear : clear.digit? x y = some 2) (ha : Seen x y (front ++ behind) a) :
    Seen x y (front ++ clear :: behind) a := by
  induction front with
  | nil => exact .through hclear ha
  | cons layer front ih =>
    cases ha with
    | through hdigit hs => exact .through hdigit (ih hs)
    | covered hdigit hne => exact .covered hdigit hne

theorem single (hown : own.digit? x y = some a.digit) : Seen x y [own] a := by
  by_cases ha : a = .transparent
  · subst ha
    exact .through hown .nothing
  · exact .covered hown ha

end Seen

/-! ### Pictures of layers -/

/-- A picture of the given size that has at every coordinate what is seen of the layers. -/
structure Depicts (width height : ℕ) (layers : List Layer) (p : Picture) : Prop
    extends p.Fits width height where
  seen : ∀ x < width, ∀ y < height, ∃ pixel, p.pixel? x y = some pixel ∧ Seen x y layers pixel

theorem Depicts.unique {q : Picture} (hp : Depicts w h layers p) (hq : Depicts w h layers q) :
    p = q := by
  refine hp.toFits.eq_of_pixel? hq.toFits fun x hx y hy => ?_
  obtain ⟨a, hpixel, ha⟩ := hp.seen x hx y hy
  obtain ⟨b, hpixel', hb⟩ := hq.seen x hx y hy
  rw [hpixel, hpixel', ha.unique hb]

/-- The picture of layers that are to have the given size. -/
def pictureOf (width height : ℕ) (layers : List Layer) : Except Failure Picture := do
  let s ← ofLayers width height layers
  s.flatten

theorem pictureOf_of_zero (hzero : w = 0 ∨ h = 0) (layers : List Layer) :
    pictureOf w h layers = Failure.because (.zeroDimensions w h) := by
  rw [pictureOf, ofLayers, checkSize, if_pos hzero]
  rfl

theorem pictureOf_eq_flatten (hw : 0 < w) (hh : 0 < h) (hfills : ∀ l ∈ layers, l.Fills w h) :
    pictureOf w h layers = flatten ⟨w, h, layers⟩ := by
  rw [pictureOf, ofLayers_of_fills hw hh hfills]
  rfl

theorem size_of_flatten {s : LayerStack} (hp : s.flatten = .ok p) :
    p.pixels.size = s.height * s.width := by
  cases hlayers : s.layers.getLast? with
  | none =>
    rw [flatten, hlayers] at hp
    cases hp
  | some back =>
    rw [flatten_eq hlayers] at hp
    obtain ⟨-, -, hp⟩ := bind_eq_ok.1 hp
    obtain ⟨pixels, hpixels, hp⟩ := bind_eq_ok.1 hp
    cases hp
    have hlength := (mapM_eq_ok_iff.1 hpixels).length_eq
    simpa [coordinates] using hlength.symm

/-- Where all digits stand for colours, there is a picture of what is seen. -/
theorem exists_pictureOf_eq_ok (hw : 0 < w) (hh : 0 < h) (hfills : ∀ l ∈ layers, l.Fills w h)
    (hlayers : layers ≠ []) (hcolours : ∀ d ∈ layers.flatMap Layer.digits, d ≤ 2) :
    ∃ p, pictureOf w h layers = .ok p ∧ Depicts w h layers p := by
  have hfilled : Filled ⟨w, h, layers⟩ := ⟨hw, hh, hfills⟩
  obtain ⟨p, hp, hwidth, hheight, hseen⟩ := hfilled.exists_flatten_eq_ok hlayers
    fun k x y d hd => hcolours d (hfilled.mem_digits_iff.2 ⟨k, x, y, hd⟩)
  exact ⟨p, (pictureOf_eq_flatten hw hh hfills).trans hp,
    ⟨hwidth, hheight, size_of_flatten hp⟩, hseen⟩

/-- The picture of layers of one size is found if there is a layer and all digits stand for
colours. -/
theorem pictureOf_eq_ok_iff (hfills : ∀ l ∈ layers, l.Fills w h) :
    pictureOf w h layers = .ok p ↔ 0 < w ∧ 0 < h ∧ layers ≠ [] ∧
      (∀ d ∈ layers.flatMap Layer.digits, d ≤ 2) ∧ Depicts w h layers p := by
  constructor
  · intro hp
    by_cases hzero : w = 0 ∨ h = 0
    · rw [pictureOf_of_zero hzero] at hp
      cases hp
    have hw : 0 < w := by omega
    have hh : 0 < h := by omega
    have hflatten := (pictureOf_eq_flatten hw hh hfills).symm.trans hp
    have hlayers : layers ≠ [] := by
      rintro rfl
      rw [flatten_eq_noLayers rfl] at hflatten
      cases hflatten
    have hcolours : ∀ d ∈ layers.flatMap Layer.digits, d ≤ 2 := by
      rw [flatten_eq (List.getLast?_eq_some_getLast hlayers)] at hflatten
      obtain ⟨_, hlook, -⟩ := bind_eq_ok.1 hflatten
      exact forM_look_eq_ok_iff.1 hlook
    obtain ⟨q, hq, hdepicts⟩ := exists_pictureOf_eq_ok hw hh hfills hlayers hcolours
    cases hp.symm.trans hq
    exact ⟨hw, hh, hlayers, hcolours, hdepicts⟩
  · rintro ⟨hw, hh, hlayers, hcolours, hdepicts⟩
    obtain ⟨q, hq, hdepicts'⟩ := exists_pictureOf_eq_ok hw hh hfills hlayers hcolours
    rw [hq, hdepicts.unique hdepicts']

/-- What is reported of layers of one size is what is found while all digits are looked at. -/
theorem pictureOf_eq_error_iff (hw : 0 < w) (hh : 0 < h) (hfills : ∀ l ∈ layers, l.Fills w h)
    (hlayers : layers ≠ []) :
    pictureOf w h layers = .error why ↔
      (layers.flatMap Layer.digits).forM look = .error why := by
  cases hlook : (layers.flatMap Layer.digits).forM look with
  | ok u =>
    obtain ⟨p, hp, -⟩ :=
      exists_pictureOf_eq_ok hw hh hfills hlayers (forM_look_eq_ok_iff.1 hlook)
    simp [hp]
  | error e =>
    rw [pictureOf_eq_flatten hw hh hfills, flatten_eq (List.getLast?_eq_some_getLast hlayers),
      digits, hlook]
    simp [bind, Except.bind]

/-! ### Layers over layers -/

/-- The digits of both parts are looked at in turn. -/
theorem forM_look_append (front behind : List Layer) :
    ((front ++ behind).flatMap Layer.digits).forM look =
      (front.flatMap Layer.digits).forM look >>= fun _ =>
        (behind.flatMap Layer.digits).forM look := by
  rw [List.flatMap_append]
  exact List.forM_append

section Parts

variable (hfront : ∀ l ∈ front, l.Fills w h) (hbehind : ∀ l ∈ behind, l.Fills w h)

include hfront hbehind

theorem fills_append : ∀ l ∈ front ++ behind, l.Fills w h :=
  List.forall_mem_append.2 ⟨hfront, hbehind⟩

theorem exists_pictureOf_append {q : Picture} (hp : pictureOf w h front = .ok p)
    (hq : pictureOf w h behind = .ok q) :
    ∃ r, pictureOf w h (front ++ behind) = .ok r ∧ r.width = w ∧ r.height = h ∧
      ∀ x < w, ∀ y < h, ∃ a b, p.pixel? x y = some a ∧ q.pixel? x y = some b ∧
        r.pixel? x y = some (a.overlay b) := by
  obtain ⟨hw, hh, hlayers, hcolours, hdepicts⟩ := (pictureOf_eq_ok_iff hfront).1 hp
  obtain ⟨-, -, -, hcolours', hdepicts'⟩ := (pictureOf_eq_ok_iff hbehind).1 hq
  have hboth : ∀ d ∈ (front ++ behind).flatMap Layer.digits, d ≤ 2 := by
    rw [List.flatMap_append]
    exact List.forall_mem_append.2 ⟨hcolours, hcolours'⟩
  obtain ⟨r, hr, hdepicts''⟩ := exists_pictureOf_eq_ok hw hh (fills_append hfront hbehind)
    (List.append_ne_nil_of_left_ne_nil hlayers _) hboth
  refine ⟨r, hr, hdepicts''.width_eq, hdepicts''.height_eq, fun x hx y hy => ?_⟩
  obtain ⟨a, hpixel, ha⟩ := hdepicts.seen x hx y hy
  obtain ⟨b, hpixel', hb⟩ := hdepicts'.seen x hx y hy
  obtain ⟨c, hpixel'', hc⟩ := hdepicts''.seen x hx y hy
  exact ⟨a, b, hpixel, hpixel', by rw [hpixel'', hc.unique (ha.append hb)]⟩

/-- What is reported of the front part is reported of both. -/
theorem pictureOf_append_of_front (hne : front ≠ []) (hwhy : pictureOf w h front = .error why) :
    pictureOf w h (front ++ behind) = .error why := by
  by_cases hzero : w = 0 ∨ h = 0
  · rw [pictureOf_of_zero hzero] at hwhy ⊢
    exact hwhy
  have hw : 0 < w := by omega
  have hh : 0 < h := by omega
  rw [pictureOf_eq_error_iff hw hh hfront hne] at hwhy
  rw [pictureOf_eq_error_iff hw hh (fills_append hfront hbehind)
    (List.append_ne_nil_of_left_ne_nil hne _), forM_look_append, hwhy]
  rfl

/-- What is reported of the part behind is reported of both, unless something is reported of the
front part. -/
theorem pictureOf_append_of_behind (hne : behind ≠ []) (hp : pictureOf w h front = .ok p)
    (hwhy : pictureOf w h behind = .error why) :
    pictureOf w h (front ++ behind) = .error why := by
  obtain ⟨hw, hh, -, hcolours, -⟩ := (pictureOf_eq_ok_iff hfront).1 hp
  have hlook : (front.flatMap Layer.digits).forM look = .ok () := forM_look_eq_ok_iff.2 hcolours
  rw [pictureOf_eq_error_iff hw hh hbehind hne] at hwhy
  rw [pictureOf_eq_error_iff hw hh (fills_append hfront hbehind)
    (List.append_ne_nil_of_right_ne_nil _ hne), forM_look_append, hlook]
  exact hwhy

end Parts

/-- A layer that is seen through can be put in anywhere. -/
theorem pictureOf_insert (hfills : ∀ l ∈ front ++ clear :: behind, l.Fills w h)
    (hclear : ∀ d ∈ clear.digits, d = 2) (hp : pictureOf w h (front ++ behind) = .ok p) :
    pictureOf w h (front ++ clear :: behind) = .ok p := by
  obtain ⟨hfront, hrest⟩ := List.forall_mem_append.1 hfills
  obtain ⟨hown, hbehind⟩ := List.forall_mem_cons.1 hrest
  obtain ⟨hw, hh, -, hcolours, hdepicts⟩ :=
    (pictureOf_eq_ok_iff (fills_append hfront hbehind)).1 hp
  refine (pictureOf_eq_ok_iff hfills).2 ⟨hw, hh, by simp, ?_, hdepicts.toFits,
    fun x hx y hy => ?_⟩
  · simp only [List.flatMap_append, List.flatMap_cons, List.forall_mem_append] at hcolours ⊢
    exact ⟨hcolours.1, fun d hd => (hclear d hd).le, hcolours.2⟩
  · obtain ⟨a, hpixel, ha⟩ := hdepicts.seen x hx y hy
    obtain ⟨d, hdigit⟩ := hown.exists_digit? hx hy
    have hmem : d ∈ clear.digits := List.mem_of_getElem? ((hown.getElem?_digits hx).trans hdigit)
    rw [hclear d hmem] at hdigit
    exact ⟨a, hpixel, ha.insert hdigit⟩

/-- A layer with the digits of a picture of other layers shows the same in front of them and behind
them as they do. -/
theorem pictureOf_own (hfills : ∀ l ∈ layers, l.Fills w h) (hp : pictureOf w h layers = .ok p) :
    pictureOf w h (p.layer :: layers) = .ok p ∧ pictureOf w h (layers ++ [p.layer]) = .ok p := by
  obtain ⟨hw, hh, -, hcolours, hdepicts⟩ := (pictureOf_eq_ok_iff hfills).1 hp
  obtain ⟨hfits, hseen⟩ := hdepicts
  have hown : p.layer.Fills w h := hfits.fills_layer hw
  have hdigits : ∀ d ∈ p.layer.digits, d ≤ 2 := by
    rw [hfits.digits_layer hw, List.forall_mem_map]
    exact fun a _ => a.digit_le
  have hboth : ∀ x < w, ∀ y < h, ∃ a, p.pixel? x y = some a ∧ Seen x y layers a ∧
      Seen x y [p.layer] a := by
    intro x hx y hy
    obtain ⟨a, hpixel, ha⟩ := hseen x hx y hy
    refine ⟨a, hpixel, ha, .single ?_⟩
    rw [hfits.digit?_layer hx hy, hpixel, Option.map_some]
  constructor
  · refine (pictureOf_eq_ok_iff (List.forall_mem_cons.2 ⟨hown, hfills⟩)).2 ⟨hw, hh,
      List.cons_ne_nil _ _, ?_, hfits, fun x hx y hy => ?_⟩
    · rw [List.flatMap_cons]
      exact List.forall_mem_append.2 ⟨hdigits, hcolours⟩
    · obtain ⟨a, hpixel, ha, ha'⟩ := hboth x hx y hy
      exact ⟨a, hpixel, a.overlay_self ▸ ha'.append ha⟩
  · refine (pictureOf_eq_ok_iff (fills_append hfills (List.forall_mem_singleton.2 hown))).2
      ⟨hw, hh, by simp, ?_, hfits, fun x hx y hy => ?_⟩
    · rw [List.flatMap_append, List.flatMap_singleton]
      exact List.forall_mem_append.2 ⟨hcolours, hdigits⟩
    · obtain ⟨a, hpixel, ha, ha'⟩ := hboth x hx y hy
      exact ⟨a, hpixel, a.overlay_self ▸ ha.append ha'⟩

/-- **What a stack shows is what its front part shows over what the rest shows**, and what is
reported of it is what is reported of the front part, or else of the rest. -/
theorem pictureOf_append (w h : ℕ) :
    (∀ front behind : List Layer, front ≠ [] → behind ≠ [] →
      (∀ l ∈ front ++ behind, l.Fills w h) →
      (∀ p q, pictureOf w h front = .ok p → pictureOf w h behind = .ok q →
        ∃ r, pictureOf w h (front ++ behind) = .ok r ∧ r.width = w ∧ r.height = h ∧
          ∀ x < w, ∀ y < h, ∃ a b, p.pixel? x y = some a ∧ q.pixel? x y = some b ∧
            r.pixel? x y = some (if a = .transparent then b else a)) ∧
      (∀ why, pictureOf w h front = .error why →
        pictureOf w h (front ++ behind) = .error why) ∧
      (∀ p why, pictureOf w h front = .ok p → pictureOf w h behind = .error why →
        pictureOf w h (front ++ behind) = .error why)) ∧
    (∀ (front behind : List Layer) (clear : Layer) (p : Picture),
      (∀ l ∈ front ++ clear :: behind, l.Fills w h) → (∀ d ∈ clear.digits, d = 2) →
      pictureOf w h (front ++ behind) = .ok p →
      pictureOf w h (front ++ clear :: behind) = .ok p) ∧
    (∀ (layers : List Layer) (p : Picture), (∀ l ∈ layers, l.Fills w h) →
      pictureOf w h layers = .ok p →
      pictureOf w h (p.layer :: layers) = .ok p ∧ pictureOf w h (layers ++ [p.layer]) = .ok p) := by
  refine ⟨fun front behind hne hne' hfills => ?_,
    fun front behind clear p hfills hclear hp => pictureOf_insert hfills hclear hp,
    fun layers p hfills hp => pictureOf_own hfills hp⟩
  obtain ⟨hfront, hbehind⟩ := List.forall_mem_append.1 hfills
  refine ⟨fun p q hp hq => exists_pictureOf_append hfront hbehind hp hq,
    fun why hwhy => pictureOf_append_of_front hfront hbehind hne hwhy,
    fun p why hp hwhy => pictureOf_append_of_behind hfront hbehind hne' hp hwhy⟩

/-- Through a front part that is transparent on its right one sees the rest, and a digit that stands
for no colour is reported wherever it is. -/
theorem pictureOf_append_half :
    (∃ r, pictureOf 2 1 ([⟨[[0, 2]]⟩] ++ [⟨[[2, 2]]⟩, ⟨[[1, 1]]⟩]) = .ok r ∧
      r.pixel? 0 0 = some .black ∧ r.pixel? 1 0 = some .white ∧
      pictureOf 2 1 [⟨[[0, 2]]⟩, ⟨[[2, 2]]⟩, ⟨[[2, 2]]⟩, ⟨[[1, 1]]⟩] = .ok r ∧
      pictureOf 2 1 [r.layer, ⟨[[0, 2]]⟩, ⟨[[2, 2]]⟩, ⟨[[1, 1]]⟩] = .ok r) ∧
    pictureOf 2 1 ([⟨[[0, 2]]⟩] ++ [⟨[[3, 9]]⟩]) = Failure.because (.notAPixel 3) := by
  obtain ⟨hparts, hclear, hown⟩ := pictureOf_append 2 1
  have hfront : pictureOf 2 1 [⟨[[0, 2]]⟩] = .ok ⟨2, 1, #[.black, .transparent]⟩ := by decide
  have hrest : pictureOf 2 1 [⟨[[2, 2]]⟩, ⟨[[1, 1]]⟩] = .ok ⟨2, 1, #[.white, .white]⟩ := by decide
  have hbad : pictureOf 2 1 [⟨[[3, 9]]⟩] = Failure.because (.notAPixel 3) := by decide
  constructor
  · obtain ⟨hpictures, -, -⟩ := hparts [⟨[[0, 2]]⟩] [⟨[[2, 2]]⟩, ⟨[[1, 1]]⟩] (by decide) (by decide)
      (by decide)
    obtain ⟨r, hr, -, -, hpixels⟩ := hpictures _ _ hfront hrest
    obtain ⟨a, b, ha, -, hleft⟩ := hpixels 0 (by decide) 0 (by decide)
    obtain ⟨a', b', ha', hb', hright⟩ := hpixels 1 (by decide) 0 (by decide)
    cases ha
    cases ha'
    cases hb'
    refine ⟨r, hr, hleft, hright, ?_, (hown _ r (by decide) hr).1⟩
    exact hclear [⟨[[0, 2]]⟩] [⟨[[2, 2]]⟩, ⟨[[1, 1]]⟩] ⟨[[2, 2]]⟩ r (by decide) (by decide) hr
  · obtain ⟨-, -, hbehind⟩ := hparts [⟨[[0, 2]]⟩] [⟨[[3, 9]]⟩] (by decide) (by decide) (by decide)
    exact hbehind _ _ hfront hbad

end LayerStack

end Shipboard
