/-!
# Where a configuration file lies

Files are named by relative paths.  Empty steps and steps that stay in place do not matter, except
at the end, where they say that a directory is meant.  `Location.ofPath?` is the file that a path
names exactly, `Location.withExtension?` the one it names when the extension is left out.
-/

namespace InformerHub

/-- The steps from the working directory to a file. -/
abbrev Location := List (List Char)

namespace Location

/-- The parts of a path between slashes. -/
def parts : List Char → Location
  | [] => [[]]
  | c :: cs =>
    if c = '/' then [] :: parts cs
    else match parts cs with
      | [] => [[c]]
      | p :: ps => (c :: p) :: ps

/-- Whether a step leads nowhere. -/
def isIdle (part : List Char) : Bool := part.isEmpty || part == ['.']

/-- Whether a step leads upwards. -/
def isUpward (part : List Char) : Bool := part == ['.', '.']

/-- The file at the end of some steps, if they stay below the working directory and end in a
name. -/
def ofParts? (ps : Location) : Option Location :=
  if ps.head? = some [] || (ps.getLast?.map isIdle).getD true || ps.any isUpward then none
  else some (ps.filter fun p => !isIdle p)

/-- The file that a path names. -/
def ofPath? (path : List Char) : Option Location := ofParts? (parts path)

/-- The file whose name is the last name of a path with an extension behind it. -/
def withExtension? (extension path : List Char) : Option Location :=
  match (parts path).reverse.dropWhile isIdle with
  | [] => none
  | last :: before =>
    if isUpward last then none
    else ofParts? ((last ++ '.' :: extension) :: before).reverse

/-- The part of a file's name behind its last point, unless the name starts with that point. -/
def extension (file : Location) : List Char :=
  match (file.getLast?.getD []).reverse.span (· != '.') with
  | (_, []) => []
  | (_, [_]) => []
  | (e, _) => e.reverse

end Location

end InformerHub
