import InformerHub.Toml.Scalar
import InformerHub.Toml.Table

/-!
# Reading a configuration file

A file is a sequence of lines, each a header, an assignment, a comment or blank.  `parse?` gives
the table it describes, or nothing if it breaks a rule of the format.
-/

namespace InformerHub.Toml

open Scan

def isBareKeyChar (c : Char) : Bool := c.isAlphanum || c == '_' || c == '-'

/-- One part of a key. -/
def keyPart : Scan String := String.ofList <$> firstOf
  [basicString, literalString, do
    let c ← satisfy isBareKeyChar
    return c :: (← takeWhile isBareKeyChar)]

/-- Arrays, inline tables and the parts of a key stay below this depth. -/
def depthLimit : Nat := 80

/-- A key, its parts between dots. -/
def key : Scan (List String) := do
  blanks
  let first ← keyPart
  blanks
  let more ← many do
    char '.'
    blanks
    let k ← keyPart
    blanks
    return k
  guard (more.length + 1 < depthLimit)
  return first :: more

/-- What may stand between the values of an array. -/
def gap : Scan Unit :=
  discard (many (firstOf [discard (satisfy isBlank), newline, do comment; newline]))

/-- Values separated by commas.  `trailing` allows a comma behind the last one. -/
def separated {α : Type} (trailing : Bool) (space : Scan Unit) (item : Scan α) :
    Scan (List α) := do
  match ← maybe item with
  | none => return []
  | some a =>
    let more ← many do
      space
      char ','
      space
      item
    space
    if trailing then discard (maybe (char ','))
    return a :: more

/-- A value.  `depth` bounds how deep arrays and inline tables are nested. -/
def value : Nat → Scan Document
  | 0 => scalar
  | depth + 1 => firstOf
    [scalar,
     do
      char '['
      gap
      let items ← separated true gap (value depth)
      gap
      char ']'
      return .list items,
     do
      char '\x7b'
      blanks
      let pairs ← separated false blanks do
        let k ← key
        char '='
        blanks
        return (k, ← value depth)
      blanks
      char '\x7d'
      match pairs.foldlM (fun es p => Entries.assign p.1 p.2 es) [] with
      | some es => return .table (finishEntries es)
      | none => failure]

/-- What a file has said so far: the last header, and all tables. -/
structure Draft where
  header : List String
  entries : Entries

/-- One line, up to its end. -/
def line (d : Draft) : Scan Draft := do
  blanks
  let d ← firstOf
    [do
      literal "[["
      let path ← key
      literal "]]"
      match d.entries.openElement path with
      | some es => return ⟨path, es⟩
      | none => failure,
     do
      char '['
      let path ← key
      char ']'
      match d.entries.openTable path with
      | some es => return ⟨path, es⟩
      | none => failure,
     do
      let path ← key
      char '='
      blanks
      let v ← value (depthLimit - 1)
      match d.entries.assignUnder d.header path v with
      | some es => return { d with entries := es }
      | none => failure,
     do
      match ← peek? with
      | none => return d
      | some c => if c == '\n' || c == '\x0d' || c == '#' then return d else failure]
  blanks
  discard (maybe comment)
  return d

/-- All lines; `n` bounds their number. -/
def lines : Nat → Draft → Scan Draft
  | 0, _ => failure
  | n + 1, d => do
    let d ← line d
    if (← peek?).isNone then return d
    newline
    lines n d

/-- A text without the byte order mark in front of it. -/
def withoutMark (text : String) : List Char :=
  match text.toList with
  | '\ufeff' :: cs => cs
  | cs => cs

/-- The table that a file describes.  A byte order mark may stand in front. -/
def parse? (text : String) : Option (List (String × Document)) :=
  let cs := withoutMark text
  match lines (cs.length + 1) ⟨[], []⟩ cs with
  | some (d, []) =>
    match (Document.table (finishEntries d.entries)).dated? with
    | some (.table es) => some es
    | _ => none
  | _ => none

end InformerHub.Toml
