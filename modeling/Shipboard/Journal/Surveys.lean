import Shipboard.Fuel
import Shipboard.Image.Picture
import Shipboard.Journal.Basic
import Shipboard.Orbit.Transfer
import Shipboard.Passcode
import Shipboard.Wire.Crossing

/-!
# Journals of the tasks that survey their input

These tasks run no program. They note down how much they have read and what they pass over.
-/

namespace Shipboard.Noted

/-- The answers of the fuel task. -/
def fuel (detail : Level) (text : String) : Noted (Int × Int) := do
  let masses ← Fuel.parseMasses text
  note detail .debug s!"Read {masses.length} module masses"
  return (← Fuel.total (masses.map Fuel.forMass), ← Fuel.total (masses.map Fuel.inAll))

/-- The answers of the wire task. -/
def wires (detail : Level) (text : String) : Noted (Nat × Nat) := do
  let (a, b) ← Wire.parsePair text
  let crossings ← a.crossings b
  note detail .debug s!"Wires cross {crossings.length} times"
  return (← Wire.closest crossings, ← Wire.fewestSteps crossings)

/-- The answers of the passcode task. -/
def passcodes (detail : Level) (text : String) : Noted (Nat × Nat) := do
  let range ← Passcode.parseRange text
  note detail .debug s!"Checking passwords in {range.describe}"
  return (Passcode.count range Passcode.hasPair, Passcode.count range Passcode.hasExactPair)

/-! ### Charts -/

/-- A body whose orbit is on a chart already. -/
def isRepeated (chart : Chart) (orbit : Orbit) : Bool :=
  ((chart.place? orbit.body).bind chart.centre?).isSome

/-- Put the orbit of a line on a chart. -/
def record (detail : Level) (chart : Chart) (line : List Char × Nat) : Noted Chart := do
  let orbit ← Orbit.parseLine line.1 line.2
  noteIf (isRepeated chart orbit) detail .warn
    s!"Ignoring repeated orbit for {Text.quoted orbit.body}"
  return chart.record orbit

/-- Read a chart, line by line. -/
def chart (detail : Level) (text : String) : Noted Chart := do
  let chart ← (Text.numberedLines text.toList).foldlM (record detail) Chart.empty
  match chart.firstEndless? with
  | some body => (Failure.because (.orbitCycle body.name) : Except Failure Chart)
  | none =>
    note detail .debug s!"Parsed orbit map with {chart.size} bodies"
    return chart

/-! ### Layered images -/

/-- Cut a stream into layers of the given size. -/
def split (detail : Level) (stream : List Char) (width height : Nat) : Noted LayerStack := do
  LayerStack.checkSize width height
  let leftover := LayerStack.leftover stream width height
  noteIf (leftover != 0) detail .warn
    s!"Dropping {leftover} trailing digits which don't fill a {width}x{height} layer"
  let stack ← LayerStack.split stream width height
  note detail .debug s!"Split {stream.length} digits into {stack.layers.length} layers"
  return stack

/-- The picture that a stack of layers shows. -/
def flatten (detail : Level) (stack : LayerStack) : Noted Picture := do
  let picture ← stack.flatten
  note detail .debug (s!"Composited {stack.layers.length} layers into a " ++
    s!"{picture.width}x{picture.height} image")
  return picture

end Shipboard.Noted
