import Shipboard.Computer.Fault
import Shipboard.Image.Saving
import Shipboard.Text.Numeral
import Shipboard.Text.Quoted
import Shipboard.Text.Record

/-!
# Faults

Everything that can be wrong with a task's input, with the program that it holds or with the files
that it names. A fault is a cause with what belongs to it; the wording is in one place.

* `Misreading` is why a piece of an input cannot be read;
* `Shortfall` is why a task that could be read has no solution;
* `Fault` puts these beside the faults of the computer, of the file tree, of the layers of an image
  and of saving a picture;
* `message` is a fault's wording and `inFull` shows all its parts.
-/

namespace Shipboard

/-- Why a piece of an input cannot be read. -/
inductive Misreading
  | mass (line : String) (why : Text.NumeralFault)
  | cell (piece : String) (place : Nat) (why : Text.NumeralFault)
  | direction (move : String)
  | distance (move : String) (why : Text.NumeralFault)
  | negativeDistance (move : String)
  | offTheGrid (move : String)
  | wireTooLong
  | missingWire
  | range (line : String)
  | bound (piece : String) (why : Text.NumeralFault)
  | orbit (line : String)
  deriving DecidableEq, Repr

/-- The wording of a misreading. -/
def Misreading.message : Misreading → String
  | mass line why => s!"bad mass {Text.quoted line}: {why.message}"
  | cell piece place why => s!"bad value {Text.quoted piece} at position {place}: {why.message}"
  | direction move => s!"bad direction in {Text.quoted move}"
  | distance move why => s!"bad distance in {Text.quoted move}: {why.message}"
  | negativeDistance move => s!"negative distance in {Text.quoted move}"
  | offTheGrid move => s!"{Text.quoted move} runs off the edge of the grid"
  | wireTooLong => "wire is too long"
  | missingWire => "expected two wires"
  | range line => s!"expected `min-max`, found {Text.quoted line}"
  | bound piece why => s!"bad bound {Text.quoted piece}: {why.message}"
  | orbit line => s!"expected `A)B`, found {Text.quoted line}"

/-- Why a task has no solution. -/
inductive Shortfall
  | noNounAndVerb (wanted : Int)
  | noCrossing
  | silentSystem (system : Int)
  | silentAmplifier
  | noCommonOrbit (start goal : String)
  | tooFewPhases (first last : Int)
  | silentBoost (mode : Int)
  | faultyOperations (count : Nat) (mode : Int)
  deriving DecidableEq, Repr

/-- The wording of a shortfall. -/
def Shortfall.message : Shortfall → String
  | noNounAndVerb wanted => s!"no noun/verb produces {wanted}"
  | noCrossing => "the wires never cross"
  | silentSystem system => s!"system {system} produced no output"
  | silentAmplifier => "an amplifier produced no signal"
  | noCommonOrbit start goal =>
    s!"{Text.quoted start} and {Text.quoted goal} share no common orbit"
  | tooFewPhases first last => s!"not enough phase settings in {first}..{last}"
  | silentBoost mode => s!"BOOST gave no output in mode {mode}"
  | faultyOperations count mode => s!"BOOST found {count} faulty opcodes in mode {mode}"

/-- What can be wrong with a task. -/
inductive Fault
  /-- The input file cannot be read. -/
  | unreadable (path : String) (why : FileTree.Fault)
  /-- The picture cannot be saved. -/
  | unsaved (why : SavingFault)
  /-- A line of the input, counted from one, is not in the form that it should have. -/
  | misread (line : Nat) (why : Misreading)
  /-- A character of a layered image is no digit. -/
  | notADigit (index : Nat) (found : Char)
  /-- A digit of a layered image stands for no colour. -/
  | notAPixel (digit : Nat)
  /-- Layers without a width or without a height. -/
  | zeroDimensions (width height : Nat)
  /-- A layer that differs in size from the image that it is to be part of. -/
  | layerSize (layer width height : Nat)
  /-- A body that orbits itself, perhaps through others. -/
  | orbitCycle (body : String)
  /-- An image without a layer. -/
  | noLayers
  /-- A computer could not complete an instruction. -/
  | computer (why : Computer.Fault)
  /-- A body that is not on the chart. -/
  | unknownBody (name : String)
  /-- A task that could be read has no solution. -/
  | unsolvable (why : Shortfall)
  /-- A day that has no task. -/
  | unknownDay (day : Nat)
  deriving DecidableEq, Repr

namespace Fault

/-- The wording of a fault. -/
def message : Fault → String
  | unreadable path why => s!"Couldn't read {Text.quoted path}: {why.message}"
  | unsaved why => s!"Image error: {why.message}"
  | misread line why => s!"Parse error on line {line}: {why.message}"
  | notADigit index found => s!"Expected a digit at index {index}, found {Text.quotedChar found}"
  | notAPixel digit => s!"Digit {digit} is not a pixel code (expected 0, 1 or 2)"
  | zeroDimensions width height => s!"Layer dimensions must be non-zero (got {width}x{height})"
  | layerSize layer width height =>
    s!"Layer {layer} is {width}x{height}, which doesn't match the rest of the image"
  | orbitCycle body => s!"Orbit map contains a cycle through {Text.quoted body}"
  | noLayers => "No layers to analyse"
  | computer why => why.message
  | unknownBody name => s!"Unknown body {Text.quoted name}"
  | unsolvable why => s!"No solution: {why.message}"
  | unknownDay day => s!"No solution exists for day {day}"

/-- A fault with all its parts. -/
def inFull : Fault → String
  | unreadable path why =>
    Text.record "Io" [("path", Text.quoted path), ("source", why.inFull)]
  | unsaved why => Text.wrapped "Image" [why.inFull]
  | misread line why =>
    Text.record "Parse" [("line", toString line), ("message", Text.quoted why.message)]
  | notADigit index found =>
    Text.record "InvalidDigit" [("index", toString index), ("found", Text.quotedChar found)]
  | notAPixel digit => Text.record "InvalidPixel" [("digit", toString digit)]
  | zeroDimensions width height =>
    Text.record "ZeroDimensions" [("width", toString width), ("height", toString height)]
  | layerSize layer width height =>
    Text.record "LayerSize"
      [("layer", toString layer), ("width", toString width), ("height", toString height)]
  | orbitCycle body => Text.wrapped "OrbitCycle" [Text.quoted body]
  | noLayers => "NoLayers"
  | computer (.unknownOperation word position) =>
    Text.record "UnknownOpcode" [("opcode", toString word), ("pc", toString position)]
  | computer (.invalidMode digit position) =>
    Text.record "InvalidMode" [("mode", toString digit), ("pc", toString position)]
  | computer (.outOfBounds address) =>
    Text.record "OutOfBounds" [("address", toString address)]
  | computer (.overflow position) => Text.record "Overflow" [("pc", toString position)]
  | computer (.missingInput position) => Text.record "MissingInput" [("pc", toString position)]
  | unknownBody name => Text.wrapped "UnknownBody" [Text.quoted name]
  | unsolvable why => Text.wrapped "NoSolution" [Text.quoted why.message]
  | unknownDay day => Text.wrapped "UnknownDay" [toString day]

end Fault

end Shipboard
