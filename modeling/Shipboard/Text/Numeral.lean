/-!
# Numerals

A numeral is written in decimal digits, the most significant first, with an optional sign in
front. It is read into a word of a given number of bits.

* `readSigned bits` reads a word with a sign: `+` and `-` may stand in front,
* `readUnsigned bits` reads a word without one: only `+` may stand in front.

The digits are looked at from left to right. A character that is no digit is reported at its place,
unless the digits before it have left the word already.
-/

namespace Shipboard.Text

/-- Why a text is no numeral of the wanted word. -/
inductive NumeralFault
  | empty
  | notADigit
  | tooLarge
  | tooSmall
  deriving DecidableEq, Repr

/-- The wording of a numeral's fault. -/
def NumeralFault.message : NumeralFault → String
  | .empty => "cannot parse integer from empty string"
  | .notADigit => "invalid digit found in string"
  | .tooLarge => "number too large to fit in target type"
  | .tooSmall => "number too small to fit in target type"

/-- The value of a decimal digit. -/
def digit? (c : Char) : Option Nat :=
  if '0' ≤ c ∧ c ≤ '9' then some (c.toNat - '0'.toNat) else none

/-- The number of values of a word of so many bits. -/
def wordCount (bits : Nat) : Nat := Nat.pow 2 bits

/-- The least value of a signed word. -/
def leastSigned (bits : Nat) : Int := -wordCount (bits - 1)

/-- The greatest value of a signed word. -/
def greatestSigned (bits : Nat) : Int := wordCount (bits - 1) - 1

/-- The greatest value of an unsigned word. -/
def greatestUnsigned (bits : Nat) : Int := wordCount bits - 1

/-- A value that a signed word of so many bits can hold. -/
def fitsSigned (bits : Nat) (v : Int) : Bool :=
  leastSigned bits ≤ v && v ≤ greatestSigned bits

/-- Read digits after a value that has been read already, up to `greatest`. -/
def readUpwards (greatest : Int) (value : Int) : List Char → Except NumeralFault Int
  | [] => .ok value
  | c :: cs =>
    match digit? c with
    | none => .error .notADigit
    | some d =>
      if 10 * value + d ≤ greatest then readUpwards greatest (10 * value + d) cs
      else .error .tooLarge

/-- Read digits after a value that has been read already, each taking the value further down. -/
def readDownwards (least : Int) (value : Int) : List Char → Except NumeralFault Int
  | [] => .ok value
  | c :: cs =>
    match digit? c with
    | none => .error .notADigit
    | some d =>
      if least ≤ 10 * value - d then readDownwards least (10 * value - d) cs
      else .error .tooSmall

/-- Read a numeral into a signed word. -/
def readSigned (bits : Nat) : List Char → Except NumeralFault Int
  | [] => .error .empty
  | ['+'] => .error .notADigit
  | ['-'] => .error .notADigit
  | '+' :: digits => readUpwards (greatestSigned bits) 0 digits
  | '-' :: digits => readDownwards (leastSigned bits) 0 digits
  | digits => readUpwards (greatestSigned bits) 0 digits

/-- Read a numeral into an unsigned word. -/
def readUnsigned (bits : Nat) : List Char → Except NumeralFault Nat
  | [] => .error .empty
  | ['+'] => .error .notADigit
  | '+' :: digits => (readUpwards (greatestUnsigned bits) 0 digits).map Int.toNat
  | digits => (readUpwards (greatestUnsigned bits) 0 digits).map Int.toNat

end Shipboard.Text
