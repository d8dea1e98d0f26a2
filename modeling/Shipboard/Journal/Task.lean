import Shipboard.Journal.Programs
import Shipboard.Journal.Surveys
import Shipboard.Solver

/-!
# The journal of a task

`Noted.solve` is the solver of a day, with what is noted down while a task works with it.
-/

namespace Shipboard.Noted

/-- A computation, with what is said in the end if it succeeds. -/
def concluded {α : Type} (detail : Level) (x : Noted α) (words : String) : Noted α := do
  let answer ← x
  note detail .info words
  return answer

/-- The answers of the orbit task. -/
def orbits (detail : Level) (path text : String) : Noted (Nat × Option Nat) := do
  let answer ← concluded detail (do (← chart detail text).summary) s!"Mapped orbits from {path}"
  noteIf answer.2.isNone detail .warn
    "Map doesn't contain both YOU and SAN; skipping transfers"
  return answer

/-- The best arrangements of a chain and of a feedback loop. -/
def arrangedAmplifiers (detail : Level) (budget : Nat) (path text : String) :
    Noted (Amplifier.Amplified × Amplifier.Amplified) := do
  let program ← concluded detail (liftM (Computer.parseProgram text))
    s!"Loaded amplifier program from {path}"
  let chain ← bestChain detail budget program
  let circle ← bestFeedback detail budget program
  return (chain, circle)

/-- The checksum and the picture of a layered image. -/
def image (detail : Level) (settings : Settings) (path text : String) : Noted (Nat × Picture) := do
  let stack ← split detail (Task.stream text) settings.width settings.height
  note detail .info (s!"Loaded {stack.layers.length} layers of " ++
    s!"{settings.width}x{settings.height} from {path}")
  let checksum ← stack.checksum
  let picture ← flatten detail stack
  return (checksum, picture)

/-- The solver of a day. -/
def solve (detail : Level) (budget : Nat) (settings : Settings) (text : String) :
    (day : Day) → Noted (Task.Answer day) :=
  let path := Text.quoted settings.input
  fun
  | .fuel => concluded detail (fuel detail text) s!"Solved fuel requirements for {path}"
  | .gravityAssist =>
    concluded detail (gravityAssist detail budget text) s!"Ran gravity assist program from {path}"
  | .wires => concluded detail (wires detail text) s!"Traced wires from {path}"
  | .passcodes => concluded detail (passcodes detail text) s!"Checked password range from {path}"
  | .diagnostics =>
    concluded detail (diagnostics detail budget text) s!"Ran diagnostics from {path}"
  | .orbits => orbits detail path text
  | .amplifiers => arrangedAmplifiers detail budget path text
  | .image => image detail settings path text
  | .boost => concluded detail (boost detail budget text) s!"Ran BOOST from {path}"

end Shipboard.Noted
