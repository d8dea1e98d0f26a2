import Shipboard.Fault

/-!
# Failures

A computation that starts computers or adds up counts can end in more ways than with a fault of its
input.

* A value can leave the range that is kept for it: a sum its word, an index its list. Nothing is
  known then but that this happened.
* The budget of instructions can be spent before a computer rests. A larger budget may do.
-/

namespace Shipboard

/-- Why a computation has no result. -/
inductive Failure
  /-- Something is wrong with the task. -/
  | fault (why : Fault)
  /-- A value left the range that is kept for it. -/
  | outOfRange
  /-- The budget of instructions was spent. -/
  | unfinished
  deriving DecidableEq, Repr

/-- A computation that can only end with a fault, as part of one that can fail otherwise too. -/
instance : MonadLift (Except Fault) (Except Failure) where
  monadLift := Except.mapError Failure.fault

/-- End with a fault. -/
def Failure.because {α : Type} (why : Fault) : Except Failure α :=
  .error (.fault why)

/-- A count that a signed word of so many bits can hold. -/
def withinSigned (bits : Nat) (v : Int) : Except Failure Int :=
  if Text.fitsSigned bits v then .ok v else .error .outOfRange

/-- A count that an unsigned word of so many bits can hold. -/
def withinUnsigned (bits n : Nat) : Except Failure Nat :=
  if n < Text.wordCount bits then .ok n else .error .outOfRange

end Shipboard
