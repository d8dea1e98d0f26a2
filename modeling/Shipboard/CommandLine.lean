import Shipboard.Settings
import Shipboard.Text.Lines
import Shipboard.Text.Numeral

/-!
# The command line

A command line names a day and may change the settings of its task.

* An option has a value, which is the next argument, or follows the option's long name after an
  equals sign, or its letter at once or after an equals sign. A switch has none.
* Letters may be run together behind one hyphen; an option's value takes the rest.
* After two hyphens every argument is taken as it stands.

The value of an option and the day are looked at only when the next option, switch or day comes, or
at the end: `settle` does it. So an argument that is not known is reported before a bad value in
front of it.

* `CommandLine.parse` reads a command line;
* `Refusal` says why a command line is not carried out.
-/

namespace Shipboard.CommandLine

/-- Why a command line is not carried out. -/
inductive Refusal
  /-- An argument that has no meaning, or a day too many. -/
  | unknownArgument
  /-- An option without a value. -/
  | missingValue
  /-- A value that is no number of the range. -/
  | badValue
  /-- A switch with a value. -/
  | valueNotWanted
  /-- An option or a switch that is given twice. -/
  | repeated
  /-- There is no day. -/
  | missingDay
  /-- The command line asks how it is used. -/
  | helpWanted
  /-- The command line asks for the version. -/
  | versionWanted
  deriving DecidableEq, Repr

/-- The name of a refusal. -/
def Refusal.name : Refusal → String
  | unknownArgument => "UnknownArgument"
  | missingValue => "InvalidValue"
  | badValue => "ValueValidation"
  | valueNotWanted => "TooManyValues"
  | repeated => "ArgumentConflict"
  | missingDay => "MissingRequiredArgument"
  | helpWanted => "DisplayHelp"
  | versionWanted => "DisplayVersion"

/-- The exit code that goes with a refusal. Questions are no mistakes. -/
def Refusal.exitCode : Refusal → Nat
  | helpWanted | versionWanted => 0
  | _ => 2

/-- An option, which has a value, by what it sets. -/
inductive Key
  | input
  | output
  | width
  | height
  deriving DecidableEq, Repr

/-- A switch, which has none. -/
inductive Switch
  | display
  | help
  | version
  deriving DecidableEq, Repr

/-- What a name on the command line stands for. -/
inductive Named
  | option (o : Key)
  | switch (s : Switch)
  deriving DecidableEq, Repr

/-- What a long name stands for. -/
def Named.ofName? : String → Option Named
  | "input" => some (.option .input)
  | "output" => some (.option .output)
  | "width" => some (.option .width)
  | "height" => some (.option .height)
  | "display" => some (.switch .display)
  | "help" => some (.switch .help)
  | "version" => some (.switch .version)
  | _ => none

/-- What a letter stands for. -/
def Named.ofLetter? : Char → Option Named
  | 'i' => some (.option .input)
  | 'o' => some (.option .output)
  | 'd' => some (.switch .display)
  | 'h' => some (.switch .help)
  | 'V' => some (.switch .version)
  | _ => none

/-- What has been settled so far. -/
structure Wishes where
  day : Option Nat := none
  input : Option String := none
  output : Option String := none
  width : Option Nat := none
  height : Option Nat := none
  display : Bool := false
  deriving DecidableEq, Repr

/-- What has been given but not settled. An option without a value waits for it. -/
inductive Pending
  | option (o : Key) (value : Option (List Char))
  | day (value : List Char)
  deriving DecidableEq, Repr

/-- Where the reading of a command line stands. -/
structure Reading where
  wishes : Wishes := {}
  pending : Option Pending := none
  /-- A day has been given. -/
  hasDay : Bool := false
  deriving DecidableEq, Repr

/-- A number from zero to `greatest`, as the value of an option or as the day. -/
def readNumber (greatest : Nat) (value : List Char) : Except Refusal Nat :=
  match Text.readSigned 64 value with
  | .ok n => if 0 ≤ n ∧ n ≤ greatest then .ok n.toNat else .error .badValue
  | .error _ => .error .badValue

/-- The greatest number that a day can have. -/
def greatestDay : Nat := 255

/-- The greatest width and height. -/
def greatestSize : Nat := 4294967295

/-- A path, which may not be empty. -/
def readPath (value : List Char) : Except Refusal String :=
  if value.isEmpty then .error .missingValue else .ok (String.ofList value)

/-- The option has been settled already. -/
def Wishes.has (w : Wishes) : Key → Bool
  | .input => w.input.isSome
  | .output => w.output.isSome
  | .width => w.width.isSome
  | .height => w.height.isSome

/-- Settle an option. -/
def settleOption (w : Wishes) (o : Key) (value : Option (List Char)) :
    Except Refusal Wishes := do
  let some value := value | throw .missingValue
  if w.has o then throw .repeated
  match o with
  | .input => return { w with input := some (← readPath value) }
  | .output => return { w with output := some (← readPath value) }
  | .width => return { w with width := some (← readNumber greatestSize value) }
  | .height => return { w with height := some (← readNumber greatestSize value) }

/-- Settle what is pending. -/
def settle (r : Reading) : Except Refusal Reading := do
  let wishes ← match r.pending with
    | none => pure r.wishes
    | some (.option o value) => settleOption r.wishes o value
    | some (.day value) => do
      pure { r.wishes with day := some (← readNumber greatestDay value) }
  return { r with wishes, pending := none }

/-- Take an option whose value is the next argument. -/
def takeOption (r : Reading) (o : Key) : Except Refusal Reading := do
  let r ← settle r
  return { r with pending := some (.option o none) }

/-- Take an option whose value is in the same argument. -/
def takeValued (r : Reading) (o : Key) (value : List Char) : Except Refusal Reading := do
  let r ← settle r
  return { r with wishes := ← settleOption r.wishes o (some value) }

/-- Take a switch. -/
def takeSwitch (r : Reading) (s : Switch) : Except Refusal Reading := do
  let r ← settle r
  match s with
  | .help => throw .helpWanted
  | .version => throw .versionWanted
  | .display =>
    if r.wishes.display then throw .repeated
    return { r with wishes := { r.wishes with display := true } }

/-- Take an argument that starts with two hyphens, of which the rest is given. -/
def takeLong (r : Reading) (text : List Char) : Except Refusal Reading :=
  let (name, value) := match Text.splitOnce '=' text with
    | some (name, value) => (name, some value)
    | none => (text, none)
  match Named.ofName? (String.ofList name), value with
  | none, _ => .error .unknownArgument
  | some (.switch _), some _ => .error .valueNotWanted
  | some (.switch s), none => takeSwitch r s
  | some (.option o), some value => takeValued r o value
  | some (.option o), none => takeOption r o

/-- The value that follows an option's letter at once. -/
def attached : List Char → List Char
  | '=' :: value => value
  | value => value

/-- Take the letters behind one hyphen. -/
def takeLetters (r : Reading) : List Char → Except Refusal Reading
  | [] => .ok r
  | letter :: letters =>
    match Named.ofLetter? letter with
    | none => .error .unknownArgument
    | some (.switch s) => do takeLetters (← takeSwitch r s) letters
    | some (.option o) =>
      if letters.isEmpty then takeOption r o else takeValued r o (attached letters)

/-- Take an argument as it stands: the value of the option in front of it, or the day. -/
def takeDay (r : Reading) (text : List Char) : Except Refusal Reading := do
  if r.hasDay then throw .unknownArgument
  let r ← settle r
  return { r with pending := some (.day text), hasDay := true }

/-- Take an argument that is no name: the value that the option in front of it waits for, or the
day. -/
def takePlain (r : Reading) (text : List Char) : Except Refusal Reading :=
  match r.pending with
  | some (.option o none) => .ok { r with pending := some (.option o (some text)) }
  | _ => takeDay r text

/-- Take the arguments one by one. -/
def takeAll (r : Reading) : List (List Char) → Except Refusal Reading
  | [] => .ok r
  | ['-', '-'] :: rest => rest.foldlM takeDay r
  | ('-' :: '-' :: text) :: rest => do takeAll (← takeLong r text) rest
  | ('-' :: letter :: letters) :: rest => do takeAll (← takeLetters r (letter :: letters)) rest
  | text :: rest => do takeAll (← takePlain r text) rest

/-- A day and the settings of its task. -/
structure Request where
  day : Nat
  settings : Settings
  deriving DecidableEq, Repr

/-- The settings for a day as they are wished for. -/
def Wishes.settings (w : Wishes) (day : Nat) : Settings :=
  let usual := Settings.forDay day
  { input := w.input.getD usual.input
    output := w.output <|> usual.output
    width := w.width.getD usual.width
    height := w.height.getD usual.height
    display := w.display }

/-- Read a command line, which is given without the name of the program. -/
def parse (arguments : List String) : Except Refusal Request := do
  let r ← settle (← takeAll {} (arguments.map String.toList))
  match r.wishes.day with
  | some day => return { day, settings := r.wishes.settings day }
  | none => throw .missingDay

end Shipboard.CommandLine
