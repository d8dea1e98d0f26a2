import Mathlib.Tactic
import Shipboard.Proofs.Image.Shape
import Shipboard.Proofs.Text.Numeral

/-!
# Streams and their layers

Cutting a stream undoes putting the digits of the layers one after the other, up to the characters
that do not fill a layer, at which nobody looks.

* `LayerStack.readDigits_eq_ok` and `LayerStack.exists_of_readDigits_eq_error`: what comes of a list
  of characters;
* `LayerStack.cut width height count digits` are the layers that are made of digits, and
  `LayerStack.digits_cut` gives the digits back;
* `LayerStack.split_eq_of_lt`: what cutting a stream comes to.
-/

namespace Shipboard

namespace LayerStack

variable {w h n : ℕ} {stream : List Char} {ds : List ℕ}

/-! ### Characters as digits -/

/-- The first character that is no digit stands at a place. -/
structure FirstNonDigit (stream : List Char) (i : ℕ) (c : Char) : Prop where
  getElem?_eq : stream[i]? = some c
  not_isDigit : c.isDigit = false
  isDigit_of_lt : ∀ j < i, ∀ d, stream[j]? = some d → d.isDigit = true

/-- What is first in a part is first in the whole. -/
theorem FirstNonDigit.of_take {m i : ℕ} {c : Char} (h : FirstNonDigit (stream.take m) i c) :
    i < m ∧ FirstNonDigit stream i c := by
  have hi : i < m := by
    have hlt := (List.getElem?_eq_some_iff.1 h.getElem?_eq).1
    rw [List.length_take] at hlt
    omega
  refine ⟨hi, ?_, h.not_isDigit, fun j hj d hd => h.isDigit_of_lt j hj d ?_⟩
  · rw [← List.getElem?_take_of_lt hi]
    exact h.getElem?_eq
  · rw [List.getElem?_take_of_lt (hj.trans hi)]
    exact hd

theorem readDigits_eq (stream : List Char) :
    readDigits stream = stream.zipIdx.mapM fun (c, i) =>
      if c.isDigit then .ok (Text.digitValue c) else .error (.notADigit i c) := by
  unfold readDigits
  congr
  funext ⟨c, i⟩
  dsimp only
  rw [Text.digit?_eq_ite]
  split_ifs <;> rfl

theorem readDigits_eq_ok (h : ∀ c ∈ stream, c.isDigit = true) :
    readDigits stream = .ok (stream.map Text.digitValue) := by
  have hmap : stream.map Text.digitValue = stream.zipIdx.map fun p => Text.digitValue p.1 := by
    conv_lhs => rw [← List.zipIdx_map_fst 0 stream, List.map_map]
    rfl
  rw [readDigits_eq, mapM_eq_ok_iff, hmap, List.forall₂_map_right_iff, List.forall₂_same]
  exact fun (c, i) hmem => if_pos (h c (List.fst_mem_of_mem_zipIdx hmem))

theorem isDigit_of_readDigits (h : readDigits stream = .ok ds) :
    ∀ c ∈ stream, c.isDigit = true := by
  intro c hc
  rw [readDigits_eq] at h
  obtain ⟨i, hi⟩ := List.mem_iff_getElem?.1 hc
  obtain ⟨d, -, hd⟩ := exists_ok_of_mapM h (List.mem_zipIdx_iff_getElem?.2 hi : (c, i) ∈ _)
  dsimp only at hd
  split_ifs at hd with hdigit
  exact hdigit

/-- The first character that is no digit is reported. -/
theorem exists_of_readDigits_eq_error {why : Fault} (h : readDigits stream = .error why) :
    ∃ i c, FirstNonDigit stream i c ∧ why = .notADigit i c := by
  rw [readDigits_eq] at h
  obtain ⟨front, ⟨c, i⟩, behind, hsplit, hfront, hc⟩ := mapM_eq_error_iff.1 h
  have hplace : stream.zipIdx[front.length]? = some (c, i) := by simp [hsplit]
  rw [List.getElem?_zipIdx, Option.map_eq_some_iff] at hplace
  obtain ⟨_, hchar, hindex⟩ := hplace
  obtain ⟨rfl, rfl⟩ := Prod.mk.inj hindex
  dsimp only at hc
  split_ifs at hc with hdigit
  cases hc
  refine ⟨_, _, ⟨?_, by simpa using hdigit, fun j hj d hd => ?_⟩, rfl⟩
  · rwa [Nat.zero_add]
  · -- a character at an earlier place has been read
    rw [Nat.zero_add] at hj
    have hread : front[j]? = some (d, 0 + j) := by
      rw [← List.getElem?_append_left hj, ← hsplit, List.getElem?_zipIdx, hd, Option.map_some]
    obtain ⟨b, hb⟩ := hfront _ (List.mem_of_getElem? hread)
    dsimp only at hb
    split_ifs at hb with hdigit'
    exact hdigit'

/-! ### Digits as layers -/

/-- The layers that are made of digits, one after the other. -/
def cut (width height count : ℕ) (digits : List ℕ) : LayerStack where
  width := width
  height := height
  layers := (pieces (width * height) count digits).map fun layer => ⟨pieces width height layer⟩

theorem length_layers_cut : (cut w h n ds).layers.length = n := by
  rw [cut, List.length_map, length_pieces]

theorem split_eq (hw : 0 < w) (hh : 0 < h) (stream : List Char) :
    split stream w h =
      (readDigits (stream.take (stream.length / (w * h) * (w * h)))).map
        (cut w h (stream.length / (w * h))) := by
  rw [split, checkSize_eq_ok_iff.2 ⟨hw, hh⟩]
  dsimp only [bind, Except.bind]
  cases readDigits (stream.take (stream.length / (w * h) * (w * h))) <;> rfl

/-- The layers put one after the other are the digits that they are made of. -/
theorem digits_cut (hds : ds.length = n * (w * h)) : (cut w h n ds).digits = ds := by
  have hlayer : ∀ layer ∈ pieces (w * h) n ds, (pieces w h layer).flatten = layer := by
    intro layer hmem
    have hlength : layer.length = w * h := length_of_mem_pieces hds.ge hmem
    rw [flatten_pieces, List.take_of_length_le (by rw [hlength, Nat.mul_comm])]
  calc (cut w h n ds).digits
      = (pieces (w * h) n ds).flatMap fun layer => (pieces w h layer).flatten := List.flatMap_map ..
    _ = (pieces (w * h) n ds).flatMap id := List.flatMap_congr hlayer
    _ = (pieces (w * h) n ds).flatten := List.flatMap_id
    _ = ds.take (n * (w * h)) := flatten_pieces
    _ = ds := List.take_of_length_le hds.le

/-! ### Streams as layers -/

/-- The first character that is no digit is reported if there is one in front of the place where the
last layer ends. -/
theorem exists_split_eq_error (hw : 0 < w) (hh : 0 < h) (hn : n = stream.length / (w * h))
    (hbad : ∃ c ∈ stream.take (n * (w * h)), c.isDigit = false) :
    ∃ i < n * (w * h), ∃ c, FirstNonDigit stream i c ∧
      split stream w h = .error (.notADigit i c) := by
  subst hn
  cases hread : readDigits (stream.take (stream.length / (w * h) * (w * h))) with
  | ok ds =>
    obtain ⟨c, hc, hnot⟩ := hbad
    have hdigit := isDigit_of_readDigits hread c hc
    rw [hnot] at hdigit
    cases hdigit
  | error why =>
    obtain ⟨i, c, hfirst, rfl⟩ := exists_of_readDigits_eq_error hread
    obtain ⟨hi, hfirst⟩ := hfirst.of_take
    exact ⟨i, hi, c, hfirst, by rw [split_eq hw hh, hread]; rfl⟩

theorem split_eq_ok (hw : 0 < w) (hh : 0 < h) (hn : n = stream.length / (w * h))
    (hall : ∀ c ∈ stream.take (n * (w * h)), c.isDigit = true) :
    split stream w h = .ok (cut w h n ((stream.take (n * (w * h))).map Text.digitValue)) := by
  subst hn
  rw [split_eq hw hh, readDigits_eq_ok hall]
  rfl

/-- A digit of a layer is the value of the character at its place in the stream. -/
theorem exists_digit_of_digits {s : LayerStack} {m k x y : ℕ} (hs : s.Filled)
    (hdigits : s.digits = (stream.take m).map Text.digitValue) (hk : k < s.layers.length)
    (hx : x < s.width) (hy : y < s.height) :
    ∃ l c, s.layers[k]? = some l ∧ stream[k * s.width * s.height + y * s.width + x]? = some c ∧
      l.digit x y = .ok (Text.digitValue c) := by
  have hplace : k * (s.height * s.width) + (y * s.width + x) =
      k * s.width * s.height + y * s.width + x := by ring
  obtain ⟨d, hd⟩ := hs.exists_digit? hk hx hy
  obtain ⟨l, hl, hdigit⟩ := Option.bind_eq_some_iff.1 hd
  rw [← hs.getElem?_digits hx hy, hplace, hdigits, List.getElem?_map, Option.map_eq_some_iff] at hd
  obtain ⟨c, hc, rfl⟩ := hd
  rw [List.getElem?_take] at hc
  split_ifs at hc with hlt
  exact ⟨l, c, hl, hc, Layer.digit_eq_ok_iff.2 hdigit⟩

/-- **Cutting a stream undoes putting layers one after the other**, and what comes after the last
layer never matters. -/
theorem split_eq_of_lt (stream : List Char) (w h : ℕ) (hw : w < 2 ^ 32) (hh : h < 2 ^ 32) :
    (w = 0 ∨ h = 0 → split stream w h = .error (.zeroDimensions w h)) ∧
    (0 < w → 0 < h → ∀ n, n = stream.length / (w * h) →
      w * h < 2 ^ 64 ∧ n * (w * h) ≤ stream.length ∧
      ((∃ c ∈ stream.take (n * (w * h)), c.isDigit = false) →
        ∃ i < n * (w * h), ∃ c, FirstNonDigit stream i c ∧
          split stream w h = .error (.notADigit i c)) ∧
      ((∀ c ∈ stream.take (n * (w * h)), c.isDigit = true) →
        ∃ s, split stream w h = .ok s ∧ s.width = w ∧ s.height = h ∧ s.layers.length = n ∧
          (∀ l ∈ s.layers, l.Fills w h) ∧
          (∀ k < n, ∀ x < w, ∀ y < h, ∃ l c, s.layers[k]? = some l ∧
            stream[k * w * h + y * w + x]? = some c ∧ l.digit x y = .ok (Text.digitValue c)) ∧
          s.digits = (stream.take (n * (w * h))).map Text.digitValue) ∧
      (∀ other : List Char, other.length = stream.length →
        other.take (n * (w * h)) = stream.take (n * (w * h)) →
        split other w h = split stream w h)) := by
  refine ⟨fun hzero => by rw [split, checkSize, if_pos hzero]; rfl, fun hw' hh' n hn => ?_⟩
  have hle : n * (w * h) ≤ stream.length := hn ▸ Nat.div_mul_le_self _ _
  have hsize : w * h < 2 ^ 64 := by
    calc w * h < 2 ^ 32 * 2 ^ 32 := Nat.mul_lt_mul'' hw hh
      _ = 2 ^ 64 := by norm_num
  refine ⟨hsize, hle, exists_split_eq_error hw' hh' hn, fun hall => ?_,
    fun other hlength htake => ?_⟩
  · have hsplit := split_eq_ok hw' hh' hn hall
    have hfilled := filled_of_split hsplit
    have hlength : ((stream.take (n * (w * h))).map Text.digitValue).length = n * (w * h) := by
      simpa using hle
    have hdigits := digits_cut hlength
    exact ⟨_, hsplit, rfl, rfl, length_layers_cut, hfilled.fills, fun k hk x hx y hy =>
      exists_digit_of_digits hfilled hdigits (length_layers_cut.symm ▸ hk) hx hy, hdigits⟩
  · rw [split_eq hw' hh', split_eq hw' hh', hlength, ← hn, htake]

/-- After the last layer there may be a character that is no digit, and in front of that place the
first of two is reported. -/
theorem split_eq_of_lt_tail :
    (∃ s, split "12345x7".toList 2 2 = .ok s ∧ s.layers.length = 1 ∧ s.digits = [1, 2, 3, 4]) ∧
    ∃ i < 4, ∃ c, FirstNonDigit "01xy2".toList i c ∧
      split "01xy2".toList 2 2 = .error (.notADigit i c) := by
  constructor
  · obtain ⟨-, hcut⟩ := split_eq_of_lt "12345x7".toList 2 2 (by decide) (by decide)
    obtain ⟨-, -, -, hall, -⟩ := hcut (by decide) (by decide) 1 (by decide)
    obtain ⟨s, hs, -, -, hlength, -, -, hdigits⟩ := hall (by simp)
    exact ⟨s, hs, hlength, hdigits.trans (by decide)⟩
  · obtain ⟨-, hcut⟩ := split_eq_of_lt "01xy2".toList 2 2 (by decide) (by decide)
    obtain ⟨-, -, hbad, -⟩ := hcut (by decide) (by decide) 1 (by decide)
    exact hbad (by simp)

end LayerStack

end Shipboard
