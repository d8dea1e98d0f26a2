/-!
# Values with named fields

A long message shows a value by the name of its kind and its fields in order: the fields stand
between braces if they have names, and between parentheses if they have none.
-/

namespace Shipboard.Text

/-- A value whose fields have names. -/
def record (kind : String) (fields : List (String × String)) : String :=
  kind ++ " \x7b " ++ ", ".intercalate (fields.map fun (name, value) => name ++ ": " ++ value) ++
    " \x7d"

/-- A value whose fields are known by their place. -/
def wrapped (kind : String) (fields : List String) : String :=
  kind ++ "(" ++ ", ".intercalate fields ++ ")"

/-- Values in a row between brackets. -/
def row (values : List String) : String :=
  "[" ++ ", ".intercalate values ++ "]"

/-- A truth value as a word. -/
def truth (b : Bool) : String :=
  if b then "true" else "false"

end Shipboard.Text
