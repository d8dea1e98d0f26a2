import Shipboard.Arrangement
import Shipboard.Computer.Job
import Shipboard.Computer.Program

/-!
# Amplifiers

A row of amplifiers passes a signal on. Each amplifier is a computer with a copy of one program; it
is given its phase setting first and then the signals that come in.

* `Amplifier.chain` passes a signal once through the row;
* `Amplifier.feedback` leads the last amplifier's signals back to the first, until the last one
  halts;
* `Amplifier.best` looks for the arrangement of phase settings with the greatest signal;
* `Amplifier.solve` finds the greatest signals of a chain and of a feedback loop.
-/

namespace Shipboard.Amplifier

/-- The number of amplifiers in a row. -/
def rowSize : Nat := 5

/-- The signal that an amplifier has put out, if it has put out one. -/
def signal (output : Option Int) : Except Failure Int :=
  match output with
  | some value => .ok value
  | none => Failure.because (.unsolvable .silentAmplifier)

/-! ### A chain -/

/-- An amplifier of a chain: it is given its phase setting and one signal. -/
def inChain (program : List Int) (incoming phase : Int) : Computer :=
  (Computer.load program).feedAll [phase, incoming]

/-- Pass a signal through one amplifier until it halts; its first output goes on. -/
def amplify (budget : Nat) (program : List Int) (incoming phase : Int) : Except Failure Int := do
  let amplifier ← (inChain program incoming phase).finish budget
  signal amplifier.outputs[0]?

/-- Pass the signal zero through a row of amplifiers with the given phase settings. -/
def chain (budget : Nat) (program : List Int) (phases : List Int) : Except Failure Int :=
  phases.foldlM (amplify budget program) 0

/-! ### A feedback loop -/

/-- An amplifier of a feedback loop, before any signal has come in. -/
def inLoop (program : List Int) (phase : Int) : Computer :=
  (Computer.load program).feed phase

/-- What a round leaves: the amplifiers with their outputs taken, the signal that the last of them
put out, and whether the last of them has halted. -/
structure Round where
  amplifiers : List Computer
  signal : Int
  halted : Bool
  deriving DecidableEq, Repr

/-- Pass a signal through the amplifiers, each of which runs as far as it can and sends its latest
output on. The flag is what is known of the amplifier in front. -/
def round (budget : Nat) : List Computer → Int → Bool → Except Failure Round
  | [], incoming, halted => .ok ⟨[], incoming, halted⟩
  | amplifier :: others, incoming, _ => do
    let (amplifier, halted) ← (amplifier.feed incoming).proceed budget
    let outgoing ← signal amplifier.outputs.back?
    let rest ← round budget others outgoing halted
    return { rest with amplifiers := amplifier.takeOutputs :: rest.amplifiers }

/-- The greatest number of rounds that can be counted: the greatest signed word of thirty-two
bits. -/
def roundLimit : Nat := 2147483647

/-- What a feedback loop comes to. -/
structure Settled where
  signal : Int
  rounds : Nat
  deriving DecidableEq, Repr

/-- Go round until the last amplifier halts. `left` more rounds can be counted; a round beyond them
is run but ends the computation, since its number does not fit the counter. -/
def loop (budget : Nat) : (left : Nat) → (rounds : Nat) → List Computer → Int →
    Except Failure Settled
  | 0, _, amplifiers, incoming => do
    let _ ← round budget amplifiers incoming true
    throw .outOfRange
  | left + 1, rounds, amplifiers, incoming => do
    let after ← round budget amplifiers incoming true
    if after.halted then return ⟨after.signal, rounds + 1⟩
    else loop budget left (rounds + 1) after.amplifiers after.signal

/-- Send the signal zero round a row of amplifiers with the given phase settings until the last one
halts. An empty row is done after one round. -/
def settle (budget : Nat) (program : List Int) (phases : List Int) : Except Failure Settled :=
  loop budget roundLimit 0 (phases.map (inLoop program)) 0

/-- The signal that a feedback loop comes to. -/
def feedback (budget : Nat) (program : List Int) (phases : List Int) : Except Failure Int :=
  (settle budget program phases).map Settled.signal

/-! ### The best arrangement -/

/-- The whole numbers from `first` on and below `stop`. -/
def settings (first stop : Int) : List Int :=
  (List.range (stop - first).toNat).map fun (i : Nat) => first + i

/-- A signal with the arrangement of phase settings that gives it. -/
structure Amplified where
  signal : Int
  phases : List Int
  deriving DecidableEq, Repr

/-- Keep the best of the arrangements so far or a new one, which has to be better. -/
def better (row : List Int → Except Failure Int) (best : Option Amplified) (phases : List Int) :
    Except Failure (Option Amplified) := do
  let signal ← row phases
  match best with
  | some b => return if b.signal < signal then some ⟨signal, phases⟩ else best
  | none => return some ⟨signal, phases⟩

/-- The arrangement of the phase settings from `first` on and below `stop` that gives a row of
amplifiers the greatest signal, and the first of them if there are more. -/
def best (first stop : Int) (row : List Int → Except Failure Int) : Except Failure Amplified := do
  match ← foldArrangements (better row) rowSize [] (settings first stop) none with
  | some amplified => return amplified
  | none => Failure.because (.unsolvable (.tooFewPhases first stop))

/-- The best arrangement for a chain, where phase settings go from zero to four. -/
def bestChain (budget : Nat) (program : List Int) : Except Failure Amplified :=
  best 0 5 (chain budget program)

/-- The best arrangement for a feedback loop, where phase settings go from five to nine. -/
def bestFeedback (budget : Nat) (program : List Int) : Except Failure Amplified :=
  best 5 10 (feedback budget program)

/-- The greatest signals of a chain and of a feedback loop. -/
def solve (budget : Nat) (text : String) : Except Failure (Int × Int) := do
  let program ← Computer.parseProgram text
  let inRow ← bestChain budget program
  let inCircle ← bestFeedback budget program
  return (inRow.signal, inCircle.signal)

end Shipboard.Amplifier
