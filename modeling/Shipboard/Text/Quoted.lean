import Shipboard.Text.Hidden

/-!
# Quoted text

A message shows a piece of text between quotation marks, so that its ends can be seen. The mark
itself and the backslash are written after a backslash, a few controls have a letter, and any other
character that does not show is written as its number in hexadecimal digits between braces.
A single character is shown between apostrophes in the same way.
-/

namespace Shipboard.Text

/-- A number in hexadecimal digits, the letters small. -/
def hexadecimal (n : Nat) : List Char :=
  Nat.toDigits 16 n

/-- A character as it is written between two marks. -/
def escaped (mark c : Char) : List Char :=
  if c = mark ∨ c = '\\' then ['\\', c]
  else if c = '\t' then ['\\', 't']
  else if c = '\n' then ['\\', 'n']
  else if c = '\r' then ['\\', 'r']
  else if c = '\x00' then ['\\', '0']
  else if isHidden c then "\\u\x7b".toList ++ hexadecimal c.toNat ++ ['\x7d']
  else [c]

/-- A text between quotation marks. -/
def quoted (s : String) : String :=
  String.ofList ('"' :: s.toList.flatMap (escaped '"') ++ ['"'])

/-- A character between apostrophes. -/
def quotedChar (c : Char) : String :=
  String.ofList ('\'' :: escaped '\'' c ++ ['\''])

end Shipboard.Text
