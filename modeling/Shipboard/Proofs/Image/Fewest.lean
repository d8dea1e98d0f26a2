import Mathlib.Data.Set.Card
import Mathlib.Tactic
import Shipboard.Proofs.Image.Stream

/-!
# The layer with the fewest zeros

The layers of a stack are gone through once and the best so far is kept.  What is found can be told
from all layers together, and for two stacks one on the other from what is found in each.

* `Layer.places l d` are the coordinates at which a layer has a digit; `Layer.ncard_places` says
  that they are counted row by row;
* `LayerStack.FirstFewest layers i l`: no layer has fewer zeros, and all in front have more;
  `LayerStack.FirstFewest.append_front` and `LayerStack.FirstFewest.append_behind` say which layer
  this is where layers are put behind one another;
* `LayerStack.fewestZeros?_eq_some_iff`: this is the layer that is found;
* `LayerStack.fewestZeros_of_layers`: the layer, its checksum, and stacks on one another.
-/

namespace Shipboard

/-! ### Digits and their places -/

/-- A list has as many places for a member as the member occurs in it. -/
theorem encard_getElem?_eq {α : Type} [DecidableEq α] (xs : List α) (x : α) :
    {i : ℕ | xs[i]? = some x}.encard = xs.count x := by
  induction xs with
  | nil => simp
  | cons y ys ih =>
    have hplaces : {i | (y :: ys)[i]? = some x} =
        {i | i = 0 ∧ y = x} ∪ Nat.succ '' {i | ys[i]? = some x} := by
      ext i
      cases i <;> simp
    have hdisjoint : Disjoint {i | i = 0 ∧ y = x} (Nat.succ '' {i | ys[i]? = some x}) := by
      rw [Set.disjoint_left]
      rintro i ⟨rfl, -⟩
      simp
    rw [hplaces, Set.encard_union_eq hdisjoint, Nat.succ_injective.encard_image, ih,
      List.count_cons]
    by_cases h : y = x
    · simp [h, add_comm]
    · simp [h]

/-- Rows have as many places for a member as it occurs in all of them together. -/
theorem encard_bind_getElem?_eq {α : Type} [DecidableEq α] (rows : List (List α)) (x : α) :
    {p : ℕ × ℕ | rows[p.2]?.bind (·[p.1]?) = some x}.encard = rows.flatten.count x := by
  induction rows with
  | nil => simp
  | cons row rows ih =>
    let first : ℕ → ℕ × ℕ := fun i => (i, 0)
    let later : ℕ × ℕ → ℕ × ℕ := Prod.map id Nat.succ
    have hfirst : first.Injective := fun i j h => (Prod.mk.inj h).1
    have hlater : later.Injective := Function.injective_id.prodMap Nat.succ_injective
    have hplaces : {p : ℕ × ℕ | (row :: rows)[p.2]?.bind (·[p.1]?) = some x} =
        first '' {i | row[i]? = some x} ∪
          later '' {p : ℕ × ℕ | rows[p.2]?.bind (·[p.1]?) = some x} := by
      ext ⟨i, j⟩
      cases j <;> simp [first, later]
    have hdisjoint : Disjoint (first '' {i | row[i]? = some x})
        (later '' {p : ℕ × ℕ | rows[p.2]?.bind (·[p.1]?) = some x}) := by
      rw [Set.disjoint_left]
      rintro _ ⟨i, -, rfl⟩
      simp [first, later]
    rw [hplaces, Set.encard_union_eq hdisjoint, hfirst.encard_image, hlater.encard_image, ih,
      encard_getElem?_eq, List.flatten_cons, List.count_append, Nat.cast_add]

namespace Layer

/-- The coordinates at which a layer has a digit. -/
def places (l : Layer) (d : ℕ) : Set (ℕ × ℕ) :=
  {p | l.digit p.1 p.2 = .ok d}

/-- A digit occurs at as many coordinates as are counted. -/
theorem ncard_places (l : Layer) (d : ℕ) : (l.places d).ncard = l.count d := by
  have hplaces : l.places d = {p : ℕ × ℕ | l.rows[p.2]?.bind (·[p.1]?) = some d} :=
    Set.ext fun p => digit_eq_ok_iff
  rw [hplaces, Set.ncard, encard_bind_getElem?_eq]
  rfl

end Layer

namespace LayerStack

variable {layers front behind : List Layer} {l m : Layer} {i j : ℕ} {s t : LayerStack}

/-! ### The first layer with the fewest zeros -/

/-- No layer has fewer zeros than the one at a place, and those in front of it have more. -/
structure FirstFewest (layers : List Layer) (i : ℕ) (l : Layer) : Prop where
  getElem?_eq : layers[i]? = some l
  le : ∀ m ∈ layers, l.count 0 ≤ m.count 0
  lt : ∀ j < i, ∀ m, layers[j]? = some m → l.count 0 < m.count 0

namespace FirstFewest

theorem singleton (l : Layer) : FirstFewest [l] 0 l :=
  ⟨rfl, by simp, fun j hj => by omega⟩

theorem unique (h : FirstFewest layers i l) (h' : FirstFewest layers j m) : l = m ∧ i = j := by
  have hle := h.le m (List.mem_of_getElem? h'.getElem?_eq)
  have hle' := h'.le l (List.mem_of_getElem? h.getElem?_eq)
  rcases Nat.lt_trichotomy i j with hlt | rfl | hgt
  · have hlt' := h'.lt i hlt l h.getElem?_eq
    omega
  · exact ⟨Option.some.inj (h.getElem?_eq.symm.trans h'.getElem?_eq), rfl⟩
  · have hlt' := h.lt j hgt m h'.getElem?_eq
    omega

/-- Layers behind do not count unless one of them has fewer zeros than all in front. -/
theorem append_front (h : FirstFewest front i l) (h' : FirstFewest behind j m)
    (hle : l.count 0 ≤ m.count 0) : FirstFewest (front ++ behind) i l := by
  obtain ⟨hi, -⟩ := List.getElem?_eq_some_iff.1 h.getElem?_eq
  refine ⟨?_, fun k hk => ?_, fun k hk n hn => ?_⟩
  · rw [List.getElem?_append_left hi, h.getElem?_eq]
  · rcases List.mem_append.1 hk with hk | hk
    · exact h.le k hk
    · exact hle.trans (h'.le k hk)
  · rw [List.getElem?_append_left (hk.trans hi)] at hn
    exact h.lt k hk n hn

/-- If one of them has fewer, the first of these with the fewest is the first of all. -/
theorem append_behind (h : FirstFewest front i l) (h' : FirstFewest behind j m)
    (hlt : m.count 0 < l.count 0) : FirstFewest (front ++ behind) (front.length + j) m := by
  have hfront : ∀ n ∈ front, m.count 0 < n.count 0 := fun n hn => hlt.trans_le (h.le n hn)
  refine ⟨?_, fun n hn => ?_, fun k hk n hn => ?_⟩
  · rw [List.getElem?_append_right (Nat.le_add_right _ _), Nat.add_sub_cancel_left, h'.getElem?_eq]
  · rcases List.mem_append.1 hn with hn | hn
    · exact (hfront n hn).le
    · exact h'.le n hn
  · by_cases hplace : k < front.length
    · rw [List.getElem?_append_left hplace] at hn
      exact hfront n (List.mem_of_getElem? hn)
    · rw [List.getElem?_append_right (by omega)] at hn
      exact h'.lt (k - front.length) (by omega) n hn

end FirstFewest

/-! ### The layer that is found -/

/-- A layer that is put behind the others is compared with the best of them. -/
theorem foldl_fewer_concat (layers : List Layer) (m : Layer) :
    (layers ++ [m]).zipIdx.foldl fewer none =
      fewer (layers.zipIdx.foldl fewer none) (m, layers.length) := by
  rw [List.zipIdx_append, List.foldl_append, Nat.zero_add]
  rfl

/-- Where there are layers, the first of those with the fewest zeros is found. -/
theorem exists_firstFewest (hne : layers ≠ []) :
    ∃ i l, layers.zipIdx.foldl fewer none = some (l, i) ∧ FirstFewest layers i l := by
  induction layers using List.reverseRecOn with
  | nil => exact (hne rfl).elim
  | append_singleton layers m ih =>
    -- the last layer is compared with the best of those in front of it
    rw [foldl_fewer_concat]
    by_cases hempty : layers = []
    · subst hempty
      exact ⟨0, m, rfl, .singleton m⟩
    · obtain ⟨i, l, hfound, hfirst⟩ := ih hempty
      rw [hfound, fewer]
      by_cases hlt : m.count 0 < l.count 0
      · exact ⟨_, m, if_pos hlt, hfirst.append_behind (.singleton m) hlt⟩
      · exact ⟨i, l, if_neg hlt, hfirst.append_front (.singleton m) (Nat.le_of_not_lt hlt)⟩

theorem fewestZeros?_eq_none_iff : s.fewestZeros? = none ↔ s.layers = [] := by
  constructor
  · intro hnone
    by_contra hne
    obtain ⟨i, l, hfound, -⟩ := exists_firstFewest hne
    rw [fewestZeros?, hfound] at hnone
    cases hnone
  · intro hempty
    rw [fewestZeros?, hempty]
    rfl

/-- **What is found is the first layer with the fewest zeros.** -/
theorem fewestZeros?_eq_some_iff :
    s.fewestZeros? = some (l, i) ↔ FirstFewest s.layers i l := by
  constructor
  · intro h
    have hne : s.layers ≠ [] := by
      intro hempty
      rw [fewestZeros?_eq_none_iff.2 hempty] at h
      cases h
    obtain ⟨j, m, hfound, hfirst⟩ := exists_firstFewest hne
    rw [fewestZeros?, hfound] at h
    cases h
    exact hfirst
  · intro hfirst
    have hne : s.layers ≠ [] := List.ne_nil_of_mem (List.mem_of_getElem? hfirst.getElem?_eq)
    obtain ⟨j, m, hfound, hfirst'⟩ := exists_firstFewest hne
    obtain ⟨rfl, rfl⟩ := hfirst.unique hfirst'
    exact hfound

/-- The product of the two counts is a word, or the checksum is out of range. -/
theorem checksum_eq (h : s.fewestZeros? = some (l, i)) :
    s.checksum = if (l.places 1).ncard * (l.places 2).ncard < 2 ^ 64 then
      .ok ((l.places 1).ncard * (l.places 2).ncard) else .error .outOfRange := by
  rw [checksum, h, Layer.ncard_places, Layer.ncard_places]
  rfl

theorem checksum_eq_noLayers_iff :
    s.checksum = Failure.because .noLayers ↔ s.layers = [] := by
  rw [← fewestZeros?_eq_none_iff]
  cases hfound : s.fewestZeros? with
  | none => simp [checksum, hfound]
  | some found =>
    obtain ⟨l, i⟩ := found
    rw [checksum_eq hfound]
    split_ifs <;> simp [Failure.because]

theorem count_add_count_le {xs : List ℕ} {x y : ℕ} (hne : x ≠ y) :
    xs.count x + xs.count y ≤ xs.length := by
  induction xs with
  | nil => simp
  | cons z zs ih =>
    simp only [List.count_cons, List.length_cons, beq_iff_eq]
    split_ifs <;> omega

/-- A layer with fewer than `2 ^ 33` digits has a checksum. -/
theorem ncard_mul_ncard_lt (hlength : l.digits.length < 2 ^ 33) :
    (l.places 1).ncard * (l.places 2).ncard < 2 ^ 64 := by
  rw [l.ncard_places, l.ncard_places]
  have hsum : l.count 1 + l.count 2 ≤ l.digits.length := count_add_count_le (by decide)
  -- the product is the greatest when both counts are the same
  nlinarith [sq_nonneg ((l.count 1 : ℤ) - l.count 2)]

/-- Stacks of one size can be put on one another. -/
theorem Obtained.ofLayers_append (hs : s.Obtained) (ht : t.Obtained) (hw : s.width = t.width)
    (hh : s.height = t.height) :
    ofLayers s.width s.height (s.layers ++ t.layers) =
      .ok ⟨s.width, s.height, s.layers ++ t.layers⟩ := by
  have hfilled := hs.filled
  have hfilled' := ht.filled
  refine ofLayers_of_fills hfilled.width_pos hfilled.height_pos fun l hl => ?_
  rcases List.mem_append.1 hl with hl | hl
  · exact hfilled.fills l hl
  · rw [hw, hh]
    exact hfilled'.fills l hl

/-- Of two stacks on one another, the lower one counts only if it has a layer with fewer zeros. -/
theorem fewestZeros?_append {w h : ℕ} (hs : s.fewestZeros? = some (l, i))
    (ht : t.fewestZeros? = some (m, j)) :
    fewestZeros? ⟨w, h, s.layers ++ t.layers⟩ =
      if l.count 0 ≤ m.count 0 then some (l, i) else some (m, s.layers.length + j) := by
  have hfirst := fewestZeros?_eq_some_iff.1 hs
  have hfirst' := fewestZeros?_eq_some_iff.1 ht
  split_ifs with hle
  · exact fewestZeros?_eq_some_iff.2 (hfirst.append_front hfirst' hle)
  · exact fewestZeros?_eq_some_iff.2 (hfirst.append_behind hfirst' (Nat.lt_of_not_le hle))

/-- **The checksum is that of the first layer with the fewest zeros.**  It is the number of its ones
times the number of its twos, if this product is a word. -/
theorem fewestZeros_of_layers (s : LayerStack) :
    (∀ (l : Layer) (d : ℕ), l.count d = (l.places d).ncard) ∧
    (s.fewestZeros? = none ↔ s.layers = []) ∧
    (s.checksum = Failure.because .noLayers ↔ s.layers = []) ∧
    (s.layers ≠ [] → ∃ i l, s.fewestZeros? = some (l, i) ∧
      s.checksum = if (l.places 1).ncard * (l.places 2).ncard < 2 ^ 64 then
        .ok ((l.places 1).ncard * (l.places 2).ncard) else .error .outOfRange) ∧
    (∀ l ∈ s.layers, l.digits.length < 2 ^ 33 →
      (l.places 1).ncard * (l.places 2).ncard < 2 ^ 64) ∧
    (∀ i l, s.fewestZeros? = some (l, i) ↔ FirstFewest s.layers i l) ∧
    ∀ t : LayerStack, s.Obtained → t.Obtained → s.width = t.width → s.height = t.height →
      s.layers ≠ [] → t.layers ≠ [] →
      ∃ u l i m j, ofLayers s.width s.height (s.layers ++ t.layers) = .ok u ∧
        s.fewestZeros? = some (l, i) ∧ t.fewestZeros? = some (m, j) ∧
        u.fewestZeros? =
          if l.count 0 ≤ m.count 0 then some (l, i) else some (m, s.layers.length + j) := by
  refine ⟨fun l d => (l.ncard_places d).symm, fewestZeros?_eq_none_iff, checksum_eq_noLayers_iff,
    fun hne => ?_, fun l _ => ncard_mul_ncard_lt, fun i l => fewestZeros?_eq_some_iff,
    fun t hs ht hw hh hne hne' => ?_⟩
  · obtain ⟨i, l, hfound, -⟩ := exists_firstFewest hne
    exact ⟨i, l, hfound, checksum_eq hfound⟩
  · obtain ⟨i, l, hfound, -⟩ := exists_firstFewest hne
    obtain ⟨j, m, hfound', -⟩ := exists_firstFewest hne'
    exact ⟨_, l, i, m, j, hs.ofLayers_append ht hw hh, hfound, hfound',
      fewestZeros?_append hfound hfound'⟩

/-- A layer of zeros in front of two layers with one zero each. -/
def tied : LayerStack := ⟨2, 2, [⟨[[0, 0], [0, 0]]⟩, ⟨[[1, 2], [1, 0]]⟩, ⟨[[1, 1], [2, 0]]⟩]⟩

/-- A layer with one zero in front of a layer without. -/
def spotless : LayerStack := ⟨2, 2, [⟨[[2, 2], [0, 2]]⟩, ⟨[[1, 1], [1, 1]]⟩]⟩

/-- Of two layers with one zero each the first is found.  A stack of layers with as many zeros makes
no difference under it, and a layer without zeros does. -/
theorem fewestZeros_of_layers_tie :
    tied.fewestZeros? = some (⟨[[1, 2], [1, 0]]⟩, 1) ∧ tied.checksum = .ok 2 ∧
      (∃ u, ofLayers 2 2 (tied.layers ++ tied.layers) = .ok u ∧
        u.fewestZeros? = tied.fewestZeros?) ∧
      ∃ u, ofLayers 2 2 (tied.layers ++ spotless.layers) = .ok u ∧
        u.fewestZeros? = some (⟨[[1, 1], [1, 1]]⟩, 4) := by
  obtain ⟨hcount, -, -, hsome, -, -, happend⟩ := fewestZeros_of_layers tied
  have htied : tied.Obtained := .inl ⟨"000012101120".toList, 2, 2, by decide +kernel⟩
  have hspotless : spotless.Obtained := .inl ⟨"22021111".toList, 2, 2, by decide +kernel⟩
  have hfound : tied.fewestZeros? = some (⟨[[1, 2], [1, 0]]⟩, 1) := by decide
  have hfound' : spotless.fewestZeros? = some (⟨[[1, 1], [1, 1]]⟩, 1) := by decide
  refine ⟨hfound, ?_, ?_, ?_⟩
  · obtain ⟨i, l, hl, hchecksum⟩ := hsome (by decide)
    cases hfound.symm.trans hl
    rw [hchecksum, ← hcount, ← hcount]
    decide
  · obtain ⟨u, l, i, m, j, hu, hl, hm, hfewest⟩ :=
      happend tied htied htied rfl rfl (by decide) (by decide)
    cases hfound.symm.trans hl
    cases hfound.symm.trans hm
    exact ⟨u, hu, hfewest.trans hfound.symm⟩
  · obtain ⟨u, l, i, m, j, hu, hl, hm, hfewest⟩ :=
      happend spotless htied hspotless rfl rfl (by decide) (by decide)
    cases hfound.symm.trans hl
    cases hfound'.symm.trans hm
    exact ⟨u, hu, hfewest⟩

/-- A stream of as many ones as twos. -/
def halves (n : ℕ) : List Char :=
  List.replicate n '1' ++ List.replicate n '2'

/-- If these fill one layer, it has as many ones as twos. -/
theorem exists_split_halves {w h n : ℕ} (hw : 0 < w) (hh : 0 < h) (hn : w * h = n + n) :
    ∃ l, split (halves n) w h = .ok ⟨w, h, [l]⟩ ∧ l.count 1 = n ∧ l.count 2 = n := by
  have hpos : 0 < w * h := Nat.mul_pos hw hh
  have hlength : (halves n).length = 1 * (w * h) := by simp [halves, hn]
  have hone : 1 = (halves n).length / (w * h) := by
    rw [hlength, Nat.mul_div_cancel _ hpos]
  have hall : ∀ c ∈ (halves n).take (1 * (w * h)), c.isDigit = true := by
    intro c hc
    rcases List.mem_append.1 (List.mem_of_mem_take hc) with hc | hc <;>
      rw [List.eq_of_mem_replicate hc] <;> rfl
  have hsplit := split_eq_ok hw hh hone hall
  rw [List.take_of_length_le hlength.le] at hsplit
  have hdigits : (cut w h 1 ((halves n).map Text.digitValue)).digits =
      (halves n).map Text.digitValue := digits_cut (by rw [List.length_map, hlength])
  have hvalues : (halves n).map Text.digitValue = List.replicate n 1 ++ List.replicate n 2 := by
    simp [halves, Text.digitValue]
  obtain ⟨l, hl⟩ : ∃ l, cut w h 1 ((halves n).map Text.digitValue) = ⟨w, h, [l]⟩ := ⟨_, rfl⟩
  rw [hl] at hsplit hdigits
  have hlayer : l.digits = List.replicate n 1 ++ List.replicate n 2 := by
    rw [← hvalues, ← hdigits, LayerStack.digits, List.flatMap_singleton]
  refine ⟨l, hsplit, ?_, ?_⟩ <;> simp [Layer.count, hlayer, List.count_replicate]

/-- Of a layer with `2 ^ 32` ones and `2 ^ 32` twos the checksum would be `2 ^ 64`. -/
theorem checksum_of_halves :
    ∃ s l, split (halves (2 ^ 32)) 131072 65536 = .ok s ∧ s.fewestZeros? = some (l, 0) ∧
      l.count 1 * l.count 2 = 2 ^ 64 ∧ s.checksum = .error .outOfRange := by
  obtain ⟨l, hsplit, hones, htwos⟩ :=
    exists_split_halves (w := 131072) (h := 65536) (n := 2 ^ 32) (by decide) (by decide) (by decide)
  have hproduct : l.count 1 * l.count 2 = 2 ^ 64 := by
    rw [hones, htwos]
    rfl
  have hfound : fewestZeros? ⟨131072, 65536, [l]⟩ = some (l, 0) := rfl
  refine ⟨_, l, hsplit, hfound, hproduct, ?_⟩
  rw [checksum_eq hfound, l.ncard_places, l.ncard_places, hproduct, if_neg (lt_irrefl _)]

end LayerStack

end Shipboard
