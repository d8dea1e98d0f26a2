import Shipboard.Text.Blank

/-!
# Pieces and lines of a text

* `splitOn` cuts a text at every occurrence of a separator,
* `splitOnce` cuts it at the first one only,
* `lines` are the pieces between line feeds, each without the one carriage return that may stand
  in front of its line feed; a text that ends with a line feed has no empty last line,
* `numberedLines` are the lines that are not blank, each with its place in the text.
-/

namespace Shipboard.Text

/-- The pieces of a text between the occurrences of `sep`; one more than there are occurrences. -/
def splitOn (sep : Char) (cs : List Char) : List (List Char) :=
  cs.foldr (fun c pieces => if c = sep then [] :: pieces else pieces.modifyHead (c :: ·)) [[]]

@[simp] theorem splitOn_nil (sep : Char) : splitOn sep [] = [[]] := rfl

theorem splitOn_cons (sep c : Char) (cs : List Char) :
    splitOn sep (c :: cs) =
      if c = sep then [] :: splitOn sep cs else (splitOn sep cs).modifyHead (c :: ·) := rfl

/-- There is one piece more than there are separators. -/
theorem length_splitOn (sep : Char) (cs : List Char) :
    (splitOn sep cs).length = cs.count sep + 1 := by
  induction cs with
  | nil => rfl
  | cons c cs ih =>
    rw [splitOn_cons]
    by_cases h : c = sep
    · simp [h, ih]
    · simp [h, ih]

/-- What stands before and after the first `sep`, or `none` where there is none. -/
def splitOnce (sep : Char) : List Char → Option (List Char × List Char)
  | [] => none
  | c :: cs => if c = sep then some ([], cs) else (splitOnce sep cs).map fun (a, b) => (c :: a, b)

/-- A line without the carriage return at its end. -/
def withoutReturn (line : List Char) : List Char :=
  if line.getLast? = some '\r' then line.dropLast else line

/-- The lines of a text. What follows the last line feed is a line only if it is not empty, and it
keeps a carriage return at its end. -/
def lines (text : List Char) : List (List Char) :=
  let pieces := splitOn '\n' text
  let rest := pieces.getLastD []
  pieces.dropLast.map withoutReturn ++ if rest.isEmpty then [] else [rest]

/-- The lines of a text that are not blank, each with its number, which starts from one and counts
the blank lines too. -/
def numberedLines (text : List Char) : List (List Char × Nat) :=
  ((lines text).zipIdx 1).filter fun (line, _) => !isBlankLine line

end Shipboard.Text
