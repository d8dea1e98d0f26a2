import Shipboard.Image.Layer

/-!
# Stacks of layers

An image is sent as a stream of digits, which is cut into layers of one size. The first layer is in
front.

* `LayerStack.split` cuts a stream; digits that do not fill a layer are left over and not looked at;
* `LayerStack.ofLayers` makes a stack of layers that exist already;
* `LayerStack.fewestZeros?` finds the layer with the fewest zeros and `LayerStack.checksum` is the
  checksum of that layer.
-/

namespace Shipboard

/-- Layers of one size, the foremost first. -/
structure LayerStack where
  width : Nat
  height : Nat
  layers : List Layer
  deriving DecidableEq, Repr

namespace LayerStack

/-- The first so many pieces of a list, each of the given size. -/
def pieces {α : Type} (size : Nat) : Nat → List α → List (List α)
  | 0, _ => []
  | n + 1, xs => xs.take size :: pieces size n (xs.drop size)

/-- A width and a height that are both more than zero. -/
def checkSize (width height : Nat) : Except Fault Unit :=
  if width = 0 ∨ height = 0 then .error (.zeroDimensions width height) else .ok ()

/-- The digits that some characters stand for. The first that is no digit is reported with its
index. -/
def readDigits (stream : List Char) : Except Fault (List Nat) :=
  stream.zipIdx.mapM fun (found, index) =>
    match Text.digit? found with
    | some digit => .ok digit
    | none => .error (.notADigit index found)

/-- Cut a stream into layers of the given size. -/
def split (stream : List Char) (width height : Nat) : Except Fault LayerStack := do
  checkSize width height
  let size := width * height
  let count := stream.length / size
  let digits ← readDigits (stream.take (count * size))
  let layers := (pieces size count digits).map fun layer => ⟨pieces width height layer⟩
  return { width, height, layers }

/-- The number of characters of a stream that do not fill a layer. -/
def leftover (stream : List Char) (width height : Nat) : Nat :=
  stream.length % (width * height)

/-- A stack of layers, all of which must have the given size. -/
def ofLayers (width height : Nat) (layers : List Layer) : Except Fault LayerStack := do
  checkSize width height
  match layers.zipIdx.find? fun (layer, _) => layer.width ≠ width ∨ layer.height ≠ height with
  | some (layer, index) => throw (.layerSize index layer.width layer.height)
  | none => return { width, height, layers }

/-- All digits, layer by layer. -/
def digits (s : LayerStack) : List Nat :=
  s.layers.flatMap Layer.digits

/-- Of two layers the one with fewer zeros; the earlier one if they have the same number. -/
def fewer (best : Option (Layer × Nat)) (next : Layer × Nat) : Option (Layer × Nat) :=
  match best with
  | none => some next
  | some b => if next.1.count 0 < b.1.count 0 then some next else some b

/-- The first of the layers with the fewest zeros, with its index. -/
def fewestZeros? (s : LayerStack) : Option (Layer × Nat) :=
  s.layers.zipIdx.foldl fewer none

/-- The checksum of the first layer with the fewest zeros. -/
def checksum (s : LayerStack) : Except Failure Nat :=
  match s.fewestZeros? with
  | some (layer, _) => layer.checksum
  | none => Failure.because .noLayers

end LayerStack

end Shipboard
