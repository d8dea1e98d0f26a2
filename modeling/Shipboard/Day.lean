/-!
# The days

Every day has its task, and a day is known by its number.
-/

namespace Shipboard

/-- The days that have a task, named for what the task is about. -/
inductive Day
  | fuel
  | gravityAssist
  | wires
  | passcodes
  | diagnostics
  | orbits
  | amplifiers
  | image
  | boost
  deriving DecidableEq, Repr

namespace Day

/-- All days, in order. -/
def all : List Day :=
  [fuel, gravityAssist, wires, passcodes, diagnostics, orbits, amplifiers, image, boost]

/-- The number of a day. -/
def number : Day → Nat
  | fuel => 1
  | gravityAssist => 2
  | wires => 3
  | passcodes => 4
  | diagnostics => 5
  | orbits => 6
  | amplifiers => 7
  | image => 8
  | boost => 9

/-- The day with a number. -/
def ofNumber? (n : Nat) : Option Day :=
  all.find? fun day => day.number == n

@[simp] theorem ofNumber?_number (day : Day) : ofNumber? day.number = some day := by
  cases day <;> rfl

/-- A number is a day's number exactly from one to nine. -/
theorem ofNumber?_isSome_iff {n : Nat} : (ofNumber? n).isSome ↔ 1 ≤ n ∧ n ≤ 9 := by
  simp only [ofNumber?, List.find?_isSome, all, List.mem_cons, List.not_mem_nil, or_false,
    exists_eq_or_imp, exists_eq_left, number, beq_iff_eq]
  omega

end Day

end Shipboard
