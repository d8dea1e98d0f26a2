import Shipboard.Computer.Job
import Shipboard.Computer.Program

/-!
# The gravity assist program

The gravity assist program takes two inputs, the noun and the verb, in its second and third cell,
and leaves its output in the first.

* `GravityAssist.execute` runs a program until it halts and gives its memory;
* `GravityAssist.runWith` runs it with a given noun and verb;
* `GravityAssist.find` looks for the noun and the verb that give a wanted output;
* `GravityAssist.solve` restores the alarm state and finds the pair for the wanted output.
-/

namespace Shipboard.GravityAssist

/-- The output that the program is wanted to give. -/
def wantedOutput : Int := 19690720

/-- The noun of the state in which the alarm was raised. -/
def alarmNoun : Int := 12

/-- The verb of the state in which the alarm was raised. -/
def alarmVerb : Int := 2

/-- Run a program until it halts and give its memory. -/
def execute (budget : Nat) (program : List Int) : Except Failure (List Int) := do
  let computer ← (Computer.load program).finish budget
  return computer.memory.toList

/-- The output of a program that is given a noun and a verb. -/
def runWith (budget : Nat) (program : List Int) (noun verb : Int) : Except Failure Int :=
  if program.length < 3 then Failure.because (.computer (.outOfBounds 2))
  else do
    let memory ← execute budget ((program.set 1 noun).set 2 verb)
    match memory[0]? with
    | some output => return output
    | none => throw .outOfRange

/-- The pairs that are tried, in their order: every noun below a hundred with every verb below a
hundred. -/
def trials : List (Int × Int) :=
  (List.range 100).flatMap fun (noun : Nat) =>
    (List.range 100).map fun (verb : Nat) => ((noun : Int), (verb : Int))

/-- The first of some pairs with which a program gives the wanted output. A pair with which the
program fails is passed over. -/
def firstGiving (run : Int → Int → Except Failure Int) (wanted : Int) :
    List (Int × Int) → Except Failure (Option (Int × Int))
  | [] => .ok none
  | (noun, verb) :: pairs =>
    match run noun verb with
    | .ok output =>
      if output = wanted then .ok (some (noun, verb)) else firstGiving run wanted pairs
    | .error (.fault _) => firstGiving run wanted pairs
    | .error failure => .error failure

/-- The first noun and verb with which a program gives the wanted output. -/
def find (budget : Nat) (program : List Int) (wanted : Int) : Except Failure (Int × Int) := do
  match ← firstGiving (runWith budget program) wanted trials with
  | some pair => return pair
  | none => Failure.because (.unsolvable (.noNounAndVerb wanted))

/-- The noun and the verb as one number. -/
def answer (pair : Int × Int) : Int :=
  100 * pair.1 + pair.2

/-- The output in the alarm state, and the number of the pair that gives the wanted output. -/
def solve (budget : Nat) (text : String) : Except Failure (Int × Int) := do
  let program ← Computer.parseProgram text
  let alarm ← runWith budget program alarmNoun alarmVerb
  let pair ← find budget program wantedOutput
  return (alarm, answer pair)

end Shipboard.GravityAssist
