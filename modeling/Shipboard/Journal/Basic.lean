import Shipboard.Computer.Job

/-!
# Journals

While it works, a task notes down what it does. A note has a level, and a journal is kept at some
level of detail: it holds the notes of that level and of the more severe ones. A journal is worked
out from what the task is given, as its answer is.

* `Level` and `Note` are the notes;
* `Journal.ofRun` is the journal of one computer, which notes every instruction that it comes to;
* `Noted` is a computation with its journal. Its result is that of the same computation without the
  journal, which is what the lemmas `Noted.result_…` say.
-/

namespace Shipboard

/-- How severe a note is, the most severe first. -/
inductive Level
  | warn
  | info
  | debug
  | trace
  deriving DecidableEq, Repr

namespace Level

/-- The place of a level in the order from the most severe one on. -/
def rank : Level → Nat
  | warn => 0
  | info => 1
  | debug => 2
  | trace => 3

/-- The name of a level. -/
def name : Level → String
  | warn => "WARN"
  | info => "INFO"
  | debug => "DEBUG"
  | trace => "TRACE"

/-- The level that goes by a name in small letters. -/
def ofName? : String → Option Level
  | "warn" => some warn
  | "info" => some info
  | "debug" => some debug
  | "trace" => some trace
  | _ => none

end Level

/-- Something that was noted down. -/
structure Note where
  level : Level
  text : String
  deriving DecidableEq, Repr

/-- A note as a line. -/
def Note.line (note : Note) : String :=
  s!"{note.level.name} {note.text}"

/-- Notes in the order in which they were made. -/
abbrev Journal := List Note

namespace Journal

/-- One note, if the journal is kept in enough detail for it. -/
def note (detail level : Level) (text : String) : Journal :=
  if level.rank ≤ detail.rank then [⟨level, text⟩] else []

/-- A number in at least so many columns. -/
def padded (columns n : Nat) : String :=
  let digits := toString n
  String.ofList (List.replicate (columns - digits.length) ' ') ++ digits

/-- The journal of a computer that runs until it rests. -/
def ofRun (detail : Level) (budget : Nat) (c : Computer) : Journal :=
  if detail = .trace then
    (c.trail budget).map fun (position, instruction) =>
      ⟨.trace, s!"{padded 5 position}: {instruction.describe}"⟩
  else []

end Journal

/-- A computation that can fail, with what is noted down in it. -/
structure Noted (α : Type) where
  notes : Journal
  result : Except Failure α

namespace Noted

variable {α β : Type}

/-- Nothing is noted after a failure. -/
instance : Monad Noted where
  pure a := ⟨[], .ok a⟩
  bind x f :=
    match x.result with
    | .error failure => ⟨x.notes, .error failure⟩
    | .ok a =>
      let y := f a
      ⟨x.notes ++ y.notes, y.result⟩

/-- A computation in which nothing is noted. -/
instance : MonadLift (Except Failure) Noted where
  monadLift result := ⟨[], result⟩

@[simp] theorem result_pure (a : α) : (pure a : Noted α).result = pure a := rfl

@[simp] theorem result_liftM (x : Except Failure α) : (liftM x : Noted α).result = x := rfl

@[simp] theorem result_liftM_fault (x : Except Fault α) :
    (liftM x : Noted α).result = (liftM x : Except Failure α) := rfl

@[simp] theorem result_bind (x : Noted α) (f : α → Noted β) :
    (x >>= f).result = x.result >>= fun a => (f a).result := by
  simp only [bind]
  cases x.result <;> rfl

/-- One note, if the journal is kept in enough detail for it. -/
def note (detail level : Level) (text : String) : Noted Unit :=
  ⟨Journal.note detail level text, .ok ()⟩

/-- One note, if there is occasion for it. -/
def noteIf (occasion : Bool) (detail level : Level) (text : String) : Noted Unit :=
  if occasion then note detail level text else pure ()

/-- A computation that comes after some notes. -/
def after (notes : Journal) (x : Noted α) : Noted α :=
  ⟨notes ++ x.notes, x.result⟩

@[simp] theorem result_note (detail level : Level) (text : String) :
    (note detail level text).result = pure () := rfl

@[simp] theorem result_noteIf (occasion : Bool) (detail level : Level) (text : String) :
    (noteIf occasion detail level text).result = pure () := by
  cases occasion <;> rfl

@[simp] theorem result_after (notes : Journal) (x : Noted α) :
    (after notes x).result = x.result := rfl

end Noted

end Shipboard
