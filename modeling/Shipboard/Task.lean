import Shipboard.Journal.Task
import Shipboard.World

/-!
# Tasks

A day's task reads one file, prints its answers and, for the layered image, saves a picture.

* `Task.report` is what a day's task prints for a given input, with the picture that it makes;
* `Task.run` does a day's task in a world. A day without a task asks for nothing but a note, and
  nothing is printed before the answer is known;
* `Task.outcome` is what is left when the task is done with a file system.
-/

namespace Shipboard.Task

/-- What a task does with the text of its input. -/
structure Report where
  /-- The lines that are printed. -/
  printed : List String
  /-- The picture that has been made. -/
  picture : Option Picture := none
  /-- How the task ends once the lines are printed. -/
  result : Except Failure Unit := .ok ()

/-- A report of lines if there is an answer, and of nothing but the failure if there is none. -/
def Report.of {α : Type} (answer : Except Failure α) (lines : α → List String) : Report :=
  match answer with
  | .ok a => { printed := lines a }
  | .error failure => { printed := [], result := .error failure }

/-! ### The tasks -/

/-- The fuel for all modules. -/
def fuel (text : String) : Report :=
  .of (Fuel.solve text) fun (modules, everything) =>
    [s!"TOTAL FUEL NEEDED (MODULES)   : {modules}",
      s!"TOTAL FUEL NEEDED (WITH FUEL) : {everything}"]

/-- The output in the alarm state, and the pair for the wanted output. -/
def gravityAssist (budget : Nat) (text : String) : Report :=
  .of (GravityAssist.solve budget text) fun (alarm, pair) =>
    [s!"OUTPUT (1202) : {alarm}", s!"NOUN/VERB     : {pair}"]

/-- The closest crossing and the crossing that the fewest steps lead to. -/
def wires (text : String) : Report :=
  .of (Wire.solve text) fun (distance, steps) =>
    [s!"CLOSEST DIST  : {distance}", s!"SHORTEST DIST : {steps}"]

/-- The number of passcodes under either rule. -/
def passcodes (text : String) : Report :=
  .of (orFault (Passcode.solve text)) fun (loose, strict) =>
    [s!"TOTAL PASSWORDS (PART 1) : {loose}", s!"TOTAL PASSWORDS (PART 2) : {strict}"]

/-- The diagnostic codes of two systems. -/
def diagnostics (budget : Nat) (text : String) : Report :=
  .of (Diagnostics.solve budget text) fun (conditioner, radiator) =>
    [s!"AIR CONDITIONER  : {conditioner}", s!"THERMAL RADIATOR : {radiator}"]

/-- The number of orbits, and of transfers if both ends are on the chart. -/
def orbits (text : String) : Report :=
  .of (orFault (Chart.solve text)) fun (total, transfers) =>
    s!"TOTAL ORBIT LENGTH : {total}" ::
      transfers.toList.map fun steps => s!"TOTAL STEPS FROM ME TO SANTA : {steps}"

/-- Phase settings with blanks between them. -/
def phaseList (phases : List Int) : String :=
  " ".intercalate (phases.map toString)

/-- The best arrangement of a chain, which is printed before that of a feedback loop is looked
for. -/
def amplifiers (budget : Nat) (text : String) : Report :=
  match Computer.parseProgram text with
  | .error why => { printed := [], result := Failure.because why }
  | .ok program =>
    match Amplifier.bestChain budget program with
    | .error failure => { printed := [], result := .error failure }
    | .ok chain =>
      let chainLines :=
        [s!"MAX SETTING OUTPUT : {chain.signal}", s!"MAX SETTINGS       : {phaseList chain.phases}"]
      match Amplifier.bestFeedback budget program with
      | .error failure => { printed := chainLines, result := .error failure }
      | .ok circle =>
        { printed := chainLines ++
            [s!"MAX RELOOP OUTPUT  : {circle.signal}",
              s!"MAX RELOOP         : {phaseList circle.phases}"] }

/-- The checksum of a layered image and the picture that it shows. -/
def checkAndFlatten (settings : Settings) (text : String) : Except Failure (Nat × Picture) := do
  let stack ← layers settings text
  let checksum ← stack.checksum
  let picture ← stack.flatten
  return (checksum, picture)

/-- The checksum of a layered image, and its picture if it is to be shown. -/
def image (settings : Settings) (text : String) : Report :=
  match checkAndFlatten settings text with
  | .error failure => { printed := [], result := .error failure }
  | .ok (checksum, picture) =>
    { printed := toString checksum :: if settings.display then [picture.drawing] else []
      picture := some picture }

/-- The key code and the coordinates of the distress signal. -/
def boost (budget : Nat) (text : String) : Report :=
  .of (Boost.solve budget text) fun (code, coordinates) =>
    [s!"BOOST KEYCODE : {code}", s!"COORDINATES   : {coordinates}"]

/-- What a day's task does with the text of its input. -/
def report (budget : Nat) (settings : Settings) (text : String) : Day → Report
  | .fuel => fuel text
  | .gravityAssist => gravityAssist budget text
  | .wires => wires text
  | .passcodes => passcodes text
  | .diagnostics => diagnostics budget text
  | .orbits => orbits text
  | .amplifiers => amplifiers budget text
  | .image => image settings text
  | .boost => boost budget text

/-! ### Running a task -/

variable {m : Type → Type} [Monad m]

/-- The text of a task's input file. -/
def readInput (w : World m) (path : String) : m (Except Fault String) := do
  return (← w.read path).mapError (.unreadable path)

/-- The stream of digits in a file. -/
def readStream (w : World m) (path : String) : m (Except Fault (List Char)) := do
  return (← readInput w path).map stream

/-- Print a report and save its picture, if there is one and a file for it. -/
def deliver (w : World m) (settings : Settings) (r : Report) : m (Except Failure Unit) := do
  r.printed.forM w.print
  match r.picture, settings.output with
  | some picture, some path =>
    match ← w.save path picture with
    | .error why => return Failure.because (.unsaved why)
    | .ok () =>
      w.note fun detail =>
        Journal.note detail .info s!"Saved {picture.describe} to {Text.quoted path}"
      return .ok ()
  | _, _ => return r.result

/-- Do the task of the day with a number. -/
def run (w : World m) (budget number : Nat) (settings : Settings) : m (Except Failure Unit) := do
  w.note fun detail =>
    Journal.note detail .debug s!"Running day {number} with {settings.describe}"
  match Day.ofNumber? number with
  | none => return Failure.because (.unknownDay number)
  | some day =>
    match ← readInput w settings.input with
    | .error why => return Failure.because why
    | .ok text =>
      w.note fun detail => (Noted.solve detail budget settings text day).notes
      deliver w settings (report budget settings text day)

/-- What is left when a task is done. -/
structure Outcome (Files : Type) where
  printed : List String
  files : Files
  result : Except Failure Unit

/-- What is left of a scene and of the result of a task, without the notes. -/
def Outcome.of {Files : Type} (done : Except Failure Unit × Scene Files) : Outcome Files :=
  { printed := done.2.printed, files := done.2.files, result := done.1 }

/-- Do the task of the day with a number, and look at what is left. -/
def outcome {Files : Type} (system : FileSystem Files) (detail : Option Level)
    (budget number : Nat) (settings : Settings) (files : Files) : Outcome Files :=
  .of (run (system.world detail) budget number settings { files })

end Shipboard.Task
