import Shipboard.Image.Stack

/-!
# Pictures

The picture of a stack of layers is what can be seen from the front. A digit stands for black, for
white or for nothing, through which the layer behind is seen.

* `Pixel` is the colour of one cell;
* `Picture` holds one pixel for every coordinate, with its views: `Picture.rows`, `Picture.pixel?`,
  `Picture.drawing` for the terminal and `Picture.bytes` for a file;
* `LayerStack.flatten` makes the picture. Every digit of every layer must stand for a colour, also
  where it cannot be seen.
-/

namespace Shipboard

/-- The colour of a cell. -/
inductive Pixel
  | black
  | white
  | transparent
  deriving DecidableEq, Repr

namespace Pixel

/-- The digit that stands for a colour. -/
def digit : Pixel → Nat
  | black => 0
  | white => 1
  | transparent => 2

/-- The colour that a digit stands for. -/
def ofDigit : Nat → Except Fault Pixel
  | 0 => .ok black
  | 1 => .ok white
  | 2 => .ok transparent
  | digit => .error (.notAPixel digit)

@[simp] theorem ofDigit_digit (p : Pixel) : ofDigit p.digit = .ok p := by
  cases p <;> rfl

/-- A cell through which the layer behind is seen. -/
def isTransparent (p : Pixel) : Bool :=
  p == transparent

/-- The shares of red, green and blue, and the opacity. -/
def rgba : Pixel → List UInt8
  | black => [0, 0, 0, 255]
  | white => [255, 255, 255, 255]
  | transparent => [0, 0, 0, 0]

/-- The character that shows a colour on the terminal. -/
def symbol : Pixel → Char
  | black => ' '
  | white => '#'
  | transparent => '.'

/-- The name of a colour. -/
def name : Pixel → String
  | black => "Black"
  | white => "White"
  | transparent => "Transparent"

end Pixel

/-- One pixel for every coordinate, row by row. -/
structure Picture where
  width : Nat
  height : Nat
  pixels : Array Pixel
  deriving DecidableEq, Repr

namespace Picture

/-- The pixel in a column of a row, if the coordinate is inside the picture. -/
def pixel? (p : Picture) (x y : Nat) : Option Pixel :=
  if x < p.width ∧ y < p.height then p.pixels[y * p.width + x]? else none

/-- The rows of a picture, from top to bottom. -/
def rows (p : Picture) : List (List Pixel) :=
  LayerStack.pieces p.width (p.pixels.size / p.width) p.pixels.toList

/-- A picture as lines of characters. -/
def drawing (p : Picture) : String :=
  "\n".intercalate (p.rows.map fun row => String.ofList (row.map Pixel.symbol))

/-- A picture by its size. -/
def describe (p : Picture) : String :=
  s!"Composite({p.width}x{p.height})"

/-- The colours of a picture in bytes, row by row. A coordinate without a pixel would be seen
through. -/
def bytes (p : Picture) : List UInt8 :=
  (List.range p.height).flatMap fun y =>
    (List.range p.width).flatMap fun x => ((p.pixel? x y).getD .transparent).rgba

end Picture

namespace LayerStack

/-- The first pixel at a coordinate that is not transparent. Where there is none, it is the pixel of
the hindmost layer. -/
def resolve (back : Layer) (x y : Nat) : List Layer → Except Failure Pixel
  | [] => do Pixel.ofDigit (← back.digit x y)
  | layer :: behind => do
    let pixel ← Pixel.ofDigit (← layer.digit x y)
    if pixel.isTransparent then resolve back x y behind else return pixel

/-- The coordinates of a rectangle, row by row. -/
def coordinates (width height : Nat) : List (Nat × Nat) :=
  (List.range height).flatMap fun y => (List.range width).map fun x => (x, y)

/-- The picture that a stack of layers shows. -/
def flatten (s : LayerStack) : Except Failure Picture :=
  match s.layers.getLast? with
  | none => Failure.because .noLayers
  | some back => do
    s.digits.forM fun digit => (Pixel.ofDigit digit).map fun _ => ()
    let pixels ← (coordinates s.width s.height).mapM fun (x, y) => resolve back x y s.layers
    return { width := s.width, height := s.height, pixels := pixels.toArray }

end LayerStack

end Shipboard
