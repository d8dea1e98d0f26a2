import Shipboard.Fault
import Shipboard.Text.Lines

/-!
# Charts of bodies and their orbits

A chart lists bodies in the order in which they were first named, each with the place of the body
that it orbits, if it orbits one.

* `Orbit.parseAll` reads an orbit from every line that is not blank: the name of the centre, a
  closing parenthesis, and the name of the body that goes round it;
* `Chart.record` puts one orbit on a chart; what a body orbits is settled by its first orbit, and
  `Chart.ofOrbits` makes a chart of a list of orbits;
* `Chart.ancestors` are the bodies that a body orbits, directly or through others;
* `Chart.parse` reads a chart and refuses one in which a body would orbit itself.
-/

namespace Shipboard

/-- One body goes round another. -/
structure Orbit where
  centre : String
  body : String
  deriving DecidableEq, Repr

namespace Orbit

/-- Read an orbit from a line of which the number is known. Neither name may be empty. -/
def parseLine (line : List Char) (number : Nat) : Except Fault Orbit :=
  let text := Text.trim line
  match Text.splitOnce ')' text with
  | some (centre@(_ :: _), body@(_ :: _)) => .ok ⟨String.ofList centre, String.ofList body⟩
  | _ => .error (.misread number (.orbit (String.ofList text)))

/-- Read an orbit from every line that is not blank. -/
def parseAll (text : String) : Except Fault (List Orbit) :=
  (Text.numberedLines text.toList).mapM fun (line, number) => parseLine line number

end Orbit

/-- A body on a chart. -/
structure Body where
  name : String
  /-- The place on the chart of the body that this one orbits. -/
  centre : Option Nat
  deriving DecidableEq, Repr

/-- Bodies in the order in which they were first named. -/
structure Chart where
  bodies : Array Body
  deriving DecidableEq, Repr

namespace Chart

/-- A chart without a body. -/
def empty : Chart := ⟨#[]⟩

/-- The number of bodies. -/
def size (c : Chart) : Nat := c.bodies.size

/-- The names of all bodies, in order. -/
def names (c : Chart) : List String :=
  c.bodies.toList.map Body.name

/-- The name of the body at a place. -/
def name? (c : Chart) (place : Nat) : Option String :=
  c.bodies[place]?.map Body.name

/-- The place of the body at the centre of another's orbit. -/
def centre? (c : Chart) (place : Nat) : Option Nat :=
  c.bodies[place]?.bind Body.centre

/-- The place of a name, if it is on the chart. -/
def place? (c : Chart) (name : String) : Option Nat :=
  c.bodies.findIdx? fun body => body.name == name

/-- The place of a name that should be on the chart. -/
def place (c : Chart) (name : String) : Except Fault Nat :=
  match c.place? name with
  | some place => .ok place
  | none => .error (.unknownBody name)

/-! ### Making a chart -/

/-- The place of a name, which is put behind the others if it is new. -/
def enter (c : Chart) (name : String) : Chart × Nat :=
  match c.place? name with
  | some place => (c, place)
  | none => (⟨c.bodies.push ⟨name, none⟩⟩, c.size)

/-- Let the body at a place orbit another, unless it is known already what it orbits. -/
def attach (c : Chart) (body centre : Nat) : Chart :=
  ⟨c.bodies.modify body fun b => { b with centre := b.centre <|> some centre }⟩

/-- Put an orbit on a chart. -/
def record (c : Chart) (orbit : Orbit) : Chart :=
  let (c, centre) := c.enter orbit.centre
  let (c, body) := c.enter orbit.body
  c.attach body centre

/-- The chart of some orbits, of which the first that names a body settles what it orbits. -/
def ofOrbits (orbits : List Orbit) : Chart :=
  orbits.foldl record empty

/-! ### Following orbits inwards -/

/-- The bodies that a body orbits, nearest first, as far as so many links lead. -/
def inwards (c : Chart) : Nat → Nat → List Nat
  | 0, _ => []
  | links + 1, place =>
    match c.centre? place with
    | none => []
    | some centre => centre :: inwards c links centre

/-- The bodies that a body orbits, directly or through others, nearest first. On a chart where no
body orbits itself there are fewer of them than bodies. -/
def ancestors (c : Chart) (place : Nat) : List Nat :=
  c.inwards c.size place

/-- The links from a body inwards go on for longer than there are bodies. -/
def isEndless (c : Chart) (place : Nat) : Bool :=
  (c.inwards (c.size + 1) place).length == c.size + 1

/-- The first body from which the links inwards never end. -/
def firstEndless? (c : Chart) : Option Body :=
  ((List.range c.size).find? c.isEndless).bind fun place => c.bodies[place]?

/-- Read a chart. -/
def parse (text : String) : Except Fault Chart := do
  let chart := ofOrbits (← Orbit.parseAll text)
  match chart.firstEndless? with
  | some body => throw (.orbitCycle body.name)
  | none => return chart

end Chart

end Shipboard
