/-!
# Shapes of described values

How a value with parts is written on one line: `Name { a: 1, b: 2 }`, `Name { a: 1, .. }` when
some parts are left out, `Name(x)` and `[x, y]`.
-/

namespace InformerHub.Text

/-- The parts of a value, separated by commas. -/
def commaSeparated (parts : List String) : String := ", ".intercalate parts

/-- A named part. -/
def field (part : String × String) : String := part.1 ++ ": " ++ part.2

/-- A value with named parts, all of them shown. -/
def record (name : String) (parts : List (String × String)) : String :=
  name ++ " \x7b " ++ commaSeparated (parts.map field) ++ " \x7d"

/-- A value with named parts, some of them left out. -/
def openRecord (name : String) (parts : List (String × String)) : String :=
  name ++ " \x7b " ++ commaSeparated (parts.map field ++ [".."]) ++ " \x7d"

/-- A value that wraps another one. -/
def wrapped (name inner : String) : String := name ++ "(" ++ inner ++ ")"

/-- A list of values. -/
def bracketed (parts : List String) : String := "[" ++ commaSeparated parts ++ "]"

/-- A truth value. -/
def truth (b : Bool) : String := if b then "true" else "false"

end InformerHub.Text
