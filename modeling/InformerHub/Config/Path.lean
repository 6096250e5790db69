import InformerHub.Document
import InformerHub.Error
import InformerHub.Toml.Scalar

/-!
# Paths into settings

A name in a layer may lead deep into a document: `retry.relist` by names, `retry[0]` by positions
of a list.  `SettingPath.ofName` reads such a name, and takes one that breaks the rules as it
stands.  `Document.place` writes a value at the end of a path; what is missing on the way, or has
another shape, is made anew.
-/

namespace InformerHub

open Text

mutual

/-- Writes a value under a name into a document.  A table is merged into what is there, anything
else replaces it.  What is no table yet becomes one.  Names are compared in lower case. -/
def Document.overlayEntry (target : Document) (name : String) (value : Document) : Document :=
  let es := match target with
    | .table es => es
    | _ => []
  match value with
  | .table inner =>
    let below := (Document.lookup? (lowercase name) es).getD (.table [])
    .table (Document.setEntry (lowercase name) (overlayEntries below inner) es)
  | v => .table (Document.setEntry (lowercase name) v es)

/-- Writes every entry of a table into a document. -/
def overlayEntries (target : Document) : List (String × Document) → Document
  | [] => target
  | (name, value) :: es => overlayEntries (target.overlayEntry name value) es

end

/-- One step of a path. -/
inductive PathStep where
  | name (name : String)
  /-- A position in a list; a negative one counts from the end. -/
  | index (index : Int)
  deriving DecidableEq, Repr

abbrev SettingPath := List PathStep

namespace SettingPath

open Toml Toml.Scan

/-- A character of a name in a path. -/
def isNameChar (c : Char) : Bool := c.isAlphanum || c == ' ' || c == '_' || c == '-'

def name : Scan PathStep := do
  let cs ← takeWhile isNameChar
  guard !cs.isEmpty
  return .name (String.ofList cs)

/-- A position, between blanks. -/
def index : Scan PathStep := do
  blanks
  let negative ← test (char '-')
  let ds ← takeWhile Char.isDigit
  guard !ds.isEmpty
  blanks
  let n : Int := if negative then -(digitsToNat ds : Int) else digitsToNat ds
  guard (fitsSigned n)
  return .index n

/-- A step behind the first one: a name behind a point, or a position in brackets. -/
def furtherStep : Scan PathStep := firstOf
  [do
    char '.'
    name,
   do
    char '['
    let i ← index
    char ']'
    return i]

/-- The path that a name stands for. -/
def ofName (s : String) : SettingPath :=
  let steps : Scan SettingPath := do return (← name) :: (← many furtherStep)
  match steps s.toList with
  | some (path, []) => path
  | _ => [.name s]

end SettingPath

namespace Document

/-- Lists stay shorter than this. -/
def longestList : Nat := Nat.pow 2 24

/-- The position that an index means in a list of some length. -/
def position (length : Nat) (index : Int) : Except ConfigError Nat :=
  if 0 ≤ index then
    if index < longestList then .ok index.toNat else .error .listTooLong
  else if index.natAbs ≤ length then .ok (length - index.natAbs)
  else .error .indexBeforeStart

/-- The entries of a table; anything else has none. -/
def entries : Document → List (String × Document)
  | .table es => es
  | _ => []

/-- The items of a list; anything else has none. -/
def items : Document → List Document
  | .list ds => ds
  | _ => []

/-- Writes a value at the end of a path.  A last name merges as an entry of a layer does, a last
position is replaced.  Lists are filled up with nothing. -/
def place (value : Document) : SettingPath → Document → Except ConfigError Document
  | [], _ => .ok value
  | [.name name], d => .ok (d.overlayEntry name value)
  | .name name :: path, d => do
    let inner ← place value path ((lookup? name d.entries).getD .null)
    return .table (setEntry name inner d.entries)
  | .index i :: path, d => do
    let n ← position d.items.length i
    let items := d.items ++ List.replicate (n + 1 - d.items.length) .null
    let inner ← place value path (items.getD n .null)
    return .list (items.set n inner)

end Document

end InformerHub
