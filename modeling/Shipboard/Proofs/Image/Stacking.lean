import Mathlib.Tactic
import Shipboard.Image.Picture
import Shipboard.Proofs.Image.Shape

/-!
# Stacks of layers that exist already

A stack is made of layers that were cut from streams before, of which each may have a size of its
own.  Only the number of rows and the length of the first row of a layer are looked at.  This is
enough, since the rows of a layer that was cut from a stream have one length.

* `Layer.Cut l`: the layer is one of those that some stream was cut into; `Layer.Cut.fills_iff` says
  that its width and its height tell its shape;
* `LayerStack.FirstMisfit width height layers k l`: the first layer of another size;
  `LayerStack.ofLayers_cases` says that it is reported, and that there is a stack if there is none;
* `LayerStack.Stacked s`: a stack was cut from a stream or made of layers that were;
* `LayerStack.ofLayers_of_cut`: both ways to make a stack agree.
-/

namespace Shipboard

variable {w h k : ℕ} {l : Layer} {layers : List Layer}

/-- The first member of a list with a property, with its place. -/
theorem find?_zipIdx_eq_some_iff {α : Type} {p : α → Bool} {xs : List α} {x : α} :
    xs.zipIdx.find? (fun entry => p entry.1) = some (x, k) ↔
      xs[k]? = some x ∧ p x = true ∧ ∀ j < k, ∀ y, xs[j]? = some y → p y = false := by
  rw [List.find?_eq_some_iff_getElem]
  constructor
  · rintro ⟨hx, i, hi, hentry, hfront⟩
    rw [List.getElem_zipIdx, Prod.mk.injEq, Nat.zero_add] at hentry
    obtain ⟨rfl, rfl⟩ := hentry
    rw [List.length_zipIdx] at hi
    refine ⟨List.getElem?_eq_getElem hi, hx, fun j hj y hy => ?_⟩
    obtain ⟨hlt, rfl⟩ := List.getElem?_eq_some_iff.1 hy
    simpa using hfront j hj
  · rintro ⟨hplace, hx, hfront⟩
    obtain ⟨hlt, rfl⟩ := List.getElem?_eq_some_iff.1 hplace
    refine ⟨hx, k, by simpa using hlt, by simp, fun j hj => ?_⟩
    have hfree := hfront j hj xs[j] (List.getElem?_eq_getElem (hj.trans hlt))
    simpa using hfree

namespace Layer

/-- The layer is one of those that some stream was cut into. -/
def Cut (l : Layer) : Prop :=
  ∃ stream width height s, LayerStack.split stream width height = .ok s ∧ l ∈ s.layers

theorem Cut.exists_fills (hl : l.Cut) : ∃ w h, 0 < h ∧ l.Fills w h := by
  obtain ⟨stream, w, h, s, hs, hmem⟩ := hl
  have hfilled := LayerStack.filled_of_split hs
  exact ⟨s.width, s.height, hfilled.height_pos, hfilled.fills l hmem⟩

/-- The length of the first row and the number of rows tell the shape of a layer. -/
theorem Cut.fills_iff (hl : l.Cut) : l.Fills w h ↔ l.width = w ∧ l.height = h := by
  obtain ⟨w', h', hpos, hfills⟩ := hl.exists_fills
  constructor
  · intro hfills'
    have hh : h = h' := hfills'.length_rows.symm.trans hfills.length_rows
    exact ⟨hfills'.width_eq (hh ▸ hpos), hfills'.height_eq⟩
  · rintro ⟨rfl, rfl⟩
    rwa [hfills.width_eq hpos, hfills.height_eq]

end Layer

namespace LayerStack

variable {s : LayerStack}

/-! ### Layers of another size -/

/-- The first layer with a width or a height that is not the given one, and its place. -/
structure FirstMisfit (width height : ℕ) (layers : List Layer) (k : ℕ) (l : Layer) : Prop where
  getElem?_eq : layers[k]? = some l
  ne_or_ne : l.width ≠ width ∨ l.height ≠ height
  eq_of_lt : ∀ j < k, ∀ m, layers[j]? = some m → m.width = width ∧ m.height = height

theorem ofLayers_of_zero (hzero : w = 0 ∨ h = 0) (layers : List Layer) :
    ofLayers w h layers = .error (.zeroDimensions w h) := by
  rw [ofLayers, checkSize, if_pos hzero]
  rfl

/-- The first layer of another size is reported.  If there is none, there is a stack. -/
theorem ofLayers_cases (hw : 0 < w) (hh : 0 < h) (layers : List Layer) :
    (∃ k l, FirstMisfit w h layers k l ∧
      ofLayers w h layers = .error (.layerSize k l.width l.height)) ∨
    ((∀ l ∈ layers, l.width = w ∧ l.height = h) ∧
      ofLayers w h layers = .ok ⟨w, h, layers⟩) := by
  rw [ofLayers, checkSize_eq_ok_iff.2 ⟨hw, hh⟩]
  dsimp only [bind, Except.bind]
  split
  · next l k hfind =>
    obtain ⟨hplace, hmisfit, hfront⟩ :=
      (find?_zipIdx_eq_some_iff (p := fun m : Layer => decide (m.width ≠ w ∨ m.height ≠ h))).1 hfind
    refine .inl ⟨k, l, ⟨hplace, by simpa using hmisfit, fun j hj m hm => ?_⟩, rfl⟩
    simpa using hfront j hj m hm
  · next hfind =>
    refine .inr ⟨fun l hl => ?_, rfl⟩
    obtain ⟨k, hk⟩ := List.mem_iff_getElem?.1 hl
    simpa using List.find?_eq_none.1 hfind _ (List.mem_zipIdx_iff_getElem?.2 hk : (l, k) ∈ _)

theorem ofLayers_eq_zeroDimensions_iff {a b : ℕ} :
    ofLayers w h layers = .error (.zeroDimensions a b) ↔ (w = 0 ∨ h = 0) ∧ a = w ∧ b = h := by
  by_cases hzero : w = 0 ∨ h = 0
  · simp [ofLayers_of_zero hzero, hzero, eq_comm]
  · obtain ⟨k, l, -, hreport⟩ | ⟨-, hmade⟩ :=
      ofLayers_cases (w := w) (h := h) (by omega) (by omega) layers
    · simp [hreport, hzero]
    · simp [hmade, hzero]

theorem ofLayers_eq_layerSize {a b : ℕ}
    (hreport : ofLayers w h layers = .error (.layerSize k a b)) :
    0 < w ∧ 0 < h ∧ ∃ l, FirstMisfit w h layers k l ∧ a = l.width ∧ b = l.height := by
  by_cases hzero : w = 0 ∨ h = 0
  · rw [ofLayers_of_zero hzero] at hreport
    cases hreport
  have hw : 0 < w := by omega
  have hh : 0 < h := by omega
  obtain ⟨j, l, hfirst, hreport'⟩ | ⟨-, hmade⟩ := ofLayers_cases hw hh layers
  · cases hreport.symm.trans hreport'
    exact ⟨hw, hh, l, hfirst, rfl, rfl⟩
  · rw [hmade] at hreport
    cases hreport

theorem ofLayers_eq_ok_iff :
    ofLayers w h layers = .ok s ↔
      0 < w ∧ 0 < h ∧ (∀ l ∈ layers, l.width = w ∧ l.height = h) ∧ s = ⟨w, h, layers⟩ := by
  by_cases hzero : w = 0 ∨ h = 0
  · rw [ofLayers_of_zero hzero]
    simp only [reduceCtorEq, false_iff]
    omega
  have hw : 0 < w := by omega
  have hh : 0 < h := by omega
  obtain ⟨k, l, hfirst, hreport⟩ | ⟨hall, hmade⟩ := ofLayers_cases hw hh layers
  · rw [hreport]
    simp only [reduceCtorEq, false_iff]
    rintro ⟨-, -, hall, -⟩
    obtain ⟨hwidth, hheight⟩ := hall l (List.mem_of_getElem? hfirst.getElem?_eq)
    exact hfirst.ne_or_ne.elim (fun hne => hne hwidth) fun hne => hne hheight
  · rw [hmade, Except.ok.injEq]
    exact ⟨fun heq => ⟨hw, hh, hall, heq.symm⟩, fun ⟨_, _, _, heq⟩ => heq.symm⟩

/-- A layer of another size is reported exactly if there is one. -/
theorem exists_ofLayers_eq_layerSize_iff :
    (∃ k a b, ofLayers w h layers = .error (.layerSize k a b)) ↔
      0 < w ∧ 0 < h ∧ ∃ l ∈ layers, l.width ≠ w ∨ l.height ≠ h := by
  constructor
  · rintro ⟨k, a, b, hreport⟩
    obtain ⟨hw, hh, l, hfirst, -, -⟩ := ofLayers_eq_layerSize hreport
    exact ⟨hw, hh, l, List.mem_of_getElem? hfirst.getElem?_eq, hfirst.ne_or_ne⟩
  · rintro ⟨hw, hh, l, hl, hmisfit⟩
    obtain ⟨k, m, -, hreport⟩ | ⟨hall, -⟩ := ofLayers_cases hw hh layers
    · exact ⟨k, _, _, hreport⟩
    · obtain ⟨hwidth, hheight⟩ := hall l hl
      exact (hmisfit.elim (fun hne => hne hwidth) fun hne => hne hheight).elim

/-! ### Stacks of cut layers -/

/-- A stack was cut from a stream, or made of layers that were cut from any streams. -/
def Stacked (s : LayerStack) : Prop :=
  (∃ stream width height, split stream width height = .ok s) ∨
    ∃ width height layers, (∀ l ∈ layers, Layer.Cut l) ∧ ofLayers width height layers = .ok s

theorem Stacked.obtained (hs : s.Stacked) : s.Obtained := by
  refine hs.imp_right ?_
  rintro ⟨w, h, layers, hcut, hs⟩
  refine ⟨w, h, layers, fun l hl => ?_, hs⟩
  obtain ⟨w', h', -, hfills⟩ := (hcut l hl).exists_fills
  exact ⟨w', hfills.length_row⟩

theorem Filled.length_digits (hs : s.Filled) :
    s.digits.length = s.layers.length * s.width * s.height := by
  have hlength : ∀ digits ∈ s.layers.map Layer.digits, digits.length = s.height * s.width := by
    simp only [List.forall_mem_map]
    exact fun l hl => (hs.fills l hl).length_digits
  rw [digits, List.flatMap, length_flatten_of_length hlength, List.length_map]
  ring

/-- A stack that was cut from a stream can be made of its layers. -/
theorem ofLayers_layers {stream : List Char} (hs : split stream w h = .ok s) :
    ofLayers w h s.layers = .ok s := by
  have hfilled := filled_of_split hs
  obtain ⟨_, hsize, hs⟩ := bind_eq_ok.1 hs
  obtain ⟨digits, -, hs⟩ := bind_eq_ok.1 hs
  cases hs
  exact ofLayers_of_fills hfilled.width_pos hfilled.height_pos hfilled.fills

/-- **Both ways to make a stack agree**, and no stack has a layer in which a digit is missing. -/
theorem ofLayers_of_cut (w h : ℕ) :
    (∀ layers : List Layer,
      (∀ a b, ofLayers w h layers = .error (.zeroDimensions a b) ↔
        (w = 0 ∨ h = 0) ∧ a = w ∧ b = h) ∧
      ((∃ k a b, ofLayers w h layers = .error (.layerSize k a b)) ↔
        0 < w ∧ 0 < h ∧ ∃ l ∈ layers, l.width ≠ w ∨ l.height ≠ h) ∧
      (∀ k a b, ofLayers w h layers = .error (.layerSize k a b) →
        ∃ l, FirstMisfit w h layers k l ∧ a = l.width ∧ b = l.height) ∧
      (∀ s, ofLayers w h layers = .ok s ↔
        0 < w ∧ 0 < h ∧ (∀ l ∈ layers, l.width = w ∧ l.height = h) ∧ s = ⟨w, h, layers⟩)) ∧
    (∀ l : Layer, l.Cut → (l.Fills w h ↔ l.width = w ∧ l.height = h)) ∧
    (∀ s : LayerStack, s.Stacked →
      (∀ l ∈ s.layers, l.Fills s.width s.height) ∧
      (∀ l ∈ s.layers, ∀ x < s.width, ∀ y < s.height, ∃ d, l.digit x y = .ok d) ∧
      s.digits.length = s.layers.length * s.width * s.height) ∧
    (∀ stream s, split stream w h = .ok s →
      ∃ t, ofLayers w h s.layers = .ok t ∧ t = s ∧ t.digits = s.digits ∧
        t.fewestZeros? = s.fewestZeros? ∧ t.checksum = s.checksum ∧ t.flatten = s.flatten) := by
  refine ⟨fun layers => ⟨fun a b => ofLayers_eq_zeroDimensions_iff,
    exists_ofLayers_eq_layerSize_iff, fun k a b hreport => (ofLayers_eq_layerSize hreport).2.2,
    fun s => ofLayers_eq_ok_iff⟩,
    fun l hl => hl.fills_iff, fun s hs => ?_,
    fun stream s hs => ⟨s, ofLayers_layers hs, rfl, rfl, rfl, rfl, rfl⟩⟩
  have hfilled := hs.obtained.filled
  refine ⟨hfilled.fills, fun l hl x hx y hy => ?_, hfilled.length_digits⟩
  obtain ⟨d, hd⟩ := (hfilled.fills l hl).exists_digit? hx hy
  exact ⟨d, Layer.digit_eq_ok_iff.2 hd⟩

/-- Of three layers of other sizes the second is reported.  The layers of a stream that does not
fill its last layer, one of them put in twice, are a stack with a digit at every place. -/
theorem ofLayers_of_cut_mixed :
    (∃ l, FirstMisfit 2 1 [⟨[[0, 1]]⟩, ⟨[[0, 1, 2]]⟩, ⟨[[0], [1]]⟩] 1 l ∧ 3 = l.width ∧
      1 = l.height) ∧
    (∃ s, ofLayers 2 1 [⟨[[2, 3]]⟩, ⟨[[0, 1]]⟩, ⟨[[2, 3]]⟩] = .ok s ∧ s.digits.length = 3 * 2 * 1) ∧
    ∃ s t, split "01234".toList 2 1 = .ok s ∧ ofLayers 2 1 s.layers = .ok t ∧
      t.flatten = s.flatten := by
  obtain ⟨hmake, -, hshape, hagree⟩ := ofLayers_of_cut 2 1
  have hsplit : split "01234".toList 2 1 = .ok ⟨2, 1, [⟨[[0, 1]]⟩, ⟨[[2, 3]]⟩]⟩ := by
    decide +kernel
  refine ⟨?_, ?_, ?_⟩
  · obtain ⟨-, -, hfirst, -⟩ := hmake [⟨[[0, 1]]⟩, ⟨[[0, 1, 2]]⟩, ⟨[[0], [1]]⟩]
    exact hfirst 1 3 1 (by decide +kernel)
  · have hcut : ∀ l ∈ [⟨[[2, 3]]⟩, ⟨[[0, 1]]⟩, ⟨[[2, 3]]⟩], Layer.Cut l := by
      intro l hl
      exact ⟨_, _, _, _, hsplit, by revert l; decide⟩
    have hmade := ((hmake [⟨[[2, 3]]⟩, ⟨[[0, 1]]⟩, ⟨[[2, 3]]⟩]).2.2.2 _).2
      ⟨by decide, by decide, by decide, rfl⟩
    exact ⟨_, hmade, (hshape _ (.inr ⟨2, 1, _, hcut, hmade⟩)).2.2⟩
  · obtain ⟨t, hmade, -, -, -, -, hflatten⟩ := hagree _ _ hsplit
    exact ⟨_, t, hsplit, hmade, hflatten⟩

end LayerStack

end Shipboard
