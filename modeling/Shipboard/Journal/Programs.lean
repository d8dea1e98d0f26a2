import Shipboard.Amplifier
import Shipboard.Boost
import Shipboard.Diagnostics
import Shipboard.GravityAssist
import Shipboard.Journal.Basic

/-!
# Journals of the tasks that run programs

Each of these tasks starts computers, whose instructions are noted down in the order in which they
are come to, and adds some notes of its own.
-/

namespace Shipboard.Noted

open Shipboard.Computer (parseProgram load)

/-! ### Computers -/

/-- Run a computer until it halts. -/
def finish (detail : Level) (budget : Nat) (c : Computer) : Noted Computer :=
  ⟨Journal.ofRun detail budget c, c.finish budget⟩

/-- Run a computer until it halts or waits for an input; the flag tells whether it has halted. -/
def proceed (detail : Level) (budget : Nat) (c : Computer) : Noted (Computer × Bool) :=
  ⟨Journal.ofRun detail budget c, c.proceed budget⟩

/-- Everything that a program puts out until it halts, given its inputs. -/
def outputsOf (detail : Level) (budget : Nat) (program inputs : List Int) :
    Noted (List Int) := do
  let computer ← finish detail budget ((load program).feedAll inputs)
  return computer.outputs.toList

/-! ### Gravity assist -/

/-- Run a program until it halts and give its memory. -/
def execute (detail : Level) (budget : Nat) (program : List Int) : Noted (List Int) := do
  let computer ← finish detail budget (load program)
  return computer.memory.toList

/-- The output of a program that is given a noun and a verb. -/
def runWith (detail : Level) (budget : Nat) (program : List Int) (noun verb : Int) :
    Noted Int :=
  if program.length < 3 then liftM (GravityAssist.runWith budget program noun verb)
  else do
    let memory ← execute detail budget ((program.set 1 noun).set 2 verb)
    match memory[0]? with
    | some output => return output
    | none => (.error .outOfRange : Except Failure Int)

/-- The first of some pairs with which a program gives the wanted output. -/
def firstGiving (run : Int → Int → Noted Int) (wanted : Int) :
    List (Int × Int) → Noted (Option (Int × Int))
  | [] => pure none
  | (noun, verb) :: pairs =>
    let trial := run noun verb
    match trial.result with
    | .ok output =>
      if output = wanted then ⟨trial.notes, .ok (some (noun, verb))⟩
      else after trial.notes (firstGiving run wanted pairs)
    | .error (.fault _) => after trial.notes (firstGiving run wanted pairs)
    | .error failure => ⟨trial.notes, .error failure⟩

/-- The first noun and verb with which a program gives the wanted output. -/
def find (detail : Level) (budget : Nat) (program : List Int) (wanted : Int) :
    Noted (Int × Int) := do
  match ← firstGiving (runWith detail budget program) wanted GravityAssist.trials with
  | some pair => return pair
  | none => (Failure.because (.unsolvable (.noNounAndVerb wanted)) : Except Failure (Int × Int))

/-- The answers of the gravity assist task. -/
def gravityAssist (detail : Level) (budget : Nat) (text : String) : Noted (Int × Int) := do
  let program ← parseProgram text
  note detail .debug s!"Loaded program of {program.length} values"
  let alarm ← runWith detail budget program GravityAssist.alarmNoun GravityAssist.alarmVerb
  let (noun, verb) ← find detail budget program GravityAssist.wantedOutput
  note detail .debug s!"Noun {noun} and verb {verb} produce {GravityAssist.wantedOutput}"
  return (alarm, GravityAssist.answer (noun, verb))

/-! ### Diagnostics -/

/-- Run the diagnostic program for a system. -/
def diagnosticReport (detail : Level) (budget : Nat) (program : List Int) (system : Int) :
    Noted Diagnostics.Report := do
  let outputs ← outputsOf detail budget program [system]
  match outputs.getLast? with
  | some code => return { results := outputs.dropLast, code }
  | none =>
    (Failure.because (.unsolvable (.silentSystem system)) : Except Failure Diagnostics.Report)

/-- The code that the diagnostic program gives for a system. -/
def diagnosticCode (detail : Level) (budget : Nat) (program : List Int) (system : Int) :
    Noted Int := do
  let report ← diagnosticReport detail budget program system
  let tests := report.results.length
  let failures := report.failures
  noteIf (failures != 0) detail .warn
    s!"{failures} of {tests} diagnostic tests failed for system {system}"
  note detail .debug s!"System {system} passed {tests - failures} tests"
  return report.code

/-- The answers of the diagnostic task. -/
def diagnostics (detail : Level) (budget : Nat) (text : String) : Noted (Int × Int) := do
  let program ← parseProgram text
  return (← diagnosticCode detail budget program Diagnostics.airConditioner,
    ← diagnosticCode detail budget program Diagnostics.thermalRadiator)

/-! ### Boost -/

/-- The value that the boost program puts out in a mode. -/
def boostValue (detail : Level) (budget : Nat) (program : List Int) (mode : Int) :
    Noted Int := do
  let outputs ← outputsOf detail budget program [mode]
  noteIf (1 < outputs.length) detail .warn
    s!"BOOST reported faulty opcodes: {Text.row (outputs.map toString)}"
  Boost.single mode outputs

/-- The answers of the boost task. -/
def boost (detail : Level) (budget : Nat) (text : String) : Noted (Int × Int) := do
  let program ← parseProgram text
  return (← boostValue detail budget program Boost.testMode,
    ← boostValue detail budget program Boost.sensorBoost)

/-! ### Amplifiers -/

/-- Pass a signal through one amplifier until it halts; its first output goes on. -/
def amplify (detail : Level) (budget : Nat) (program : List Int) (incoming phase : Int) :
    Noted Int := do
  let amplifier ← finish detail budget (Amplifier.inChain program incoming phase)
  Amplifier.signal amplifier.outputs[0]?

/-- Pass the signal zero through a row of amplifiers with the given phase settings. -/
def chain (detail : Level) (budget : Nat) (program : List Int) (phases : List Int) : Noted Int :=
  phases.foldlM (amplify detail budget program) 0

/-- Pass a signal through the amplifiers of a feedback loop. -/
def round (detail : Level) (budget : Nat) :
    List Computer → Int → Bool → Noted Amplifier.Round
  | [], incoming, halted => pure ⟨[], incoming, halted⟩
  | amplifier :: others, incoming, _ => do
    let (amplifier, halted) ← proceed detail budget (amplifier.feed incoming)
    let outgoing ← Amplifier.signal amplifier.outputs.back?
    let rest ← round detail budget others outgoing halted
    return { rest with amplifiers := amplifier.takeOutputs :: rest.amplifiers }

/-- Go round until the last amplifier halts, as long as the rounds can be counted. -/
def loop (detail : Level) (budget : Nat) : (left : Nat) → (rounds : Nat) → List Computer → Int →
    Noted Amplifier.Settled
  | 0, _, amplifiers, incoming => do
    let _ ← round detail budget amplifiers incoming true
    (.error .outOfRange : Except Failure Amplifier.Settled)
  | left + 1, rounds, amplifiers, incoming => do
    let after ← round detail budget amplifiers incoming true
    if after.halted then return ⟨after.signal, rounds + 1⟩
    else loop detail budget left (rounds + 1) after.amplifiers after.signal

/-- What a feedback loop comes to. Only a trace has notes about its rounds. -/
def settle (detail : Level) (budget : Nat) (program : List Int) (phases : List Int) :
    Noted Amplifier.Settled :=
  if detail = .trace then
    loop detail budget Amplifier.roundLimit 0 (phases.map (Amplifier.inLoop program)) 0
  else liftM (Amplifier.settle budget program phases)

/-- The signal that a feedback loop comes to. -/
def feedback (detail : Level) (budget : Nat) (program : List Int) (phases : List Int) :
    Noted Int := do
  let settled ← settle detail budget program phases
  note detail .debug
    s!"Phases {Text.row (phases.map toString)} gave {settled.signal} after {settled.rounds} rounds"
  return settled.signal

/-- Keep the best of the arrangements so far or a new one, which has to be better. -/
def better (row : List Int → Noted Int) (best : Option Amplifier.Amplified)
    (phases : List Int) : Noted (Option Amplifier.Amplified) := do
  let signal ← row phases
  match best with
  | some b => return if b.signal < signal then some ⟨signal, phases⟩ else best
  | none => return some ⟨signal, phases⟩

/-- The arrangement of phase settings that gives a row of amplifiers the greatest signal. -/
def best (first stop : Int) (row : List Int → Noted Int) : Noted Amplifier.Amplified := do
  let all := arrangements Amplifier.rowSize (Amplifier.settings first stop)
  match ← all.foldlM (better row) none with
  | some amplified => return amplified
  | none =>
    (Failure.because (.unsolvable (.tooFewPhases first stop)) : Except Failure Amplifier.Amplified)

/-- The best arrangement for a chain. -/
def bestChain (detail : Level) (budget : Nat) (program : List Int) : Noted Amplifier.Amplified :=
  best 0 5 (chain detail budget program)

/-- The best arrangement for a feedback loop. -/
def bestFeedback (detail : Level) (budget : Nat) (program : List Int) :
    Noted Amplifier.Amplified :=
  best 5 10 (feedback detail budget program)

/-- The greatest signals of a chain and of a feedback loop. -/
def amplifiers (detail : Level) (budget : Nat) (text : String) : Noted (Int × Int) := do
  let program ← parseProgram text
  let inRow ← bestChain detail budget program
  let inCircle ← bestFeedback detail budget program
  return (inRow.signal, inCircle.signal)

end Shipboard.Noted
