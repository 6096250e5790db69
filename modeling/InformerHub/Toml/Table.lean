import InformerHub.Document

/-!
# Tables under construction

A file builds its tables bit by bit: by a header, by a dotted key, or on the way to a deeper one.
How a table came about decides what may still be added to it: a table with a header of its own
takes no dotted keys from outside and no second header.
-/

namespace InformerHub.Toml

/-- An entry of a table under construction. -/
inductive Node where
  | value (value : Document)
  /-- `implied` while no header names the table, `dotted` if dotted keys made it. -/
  | table (implied dotted : Bool) (entries : List (String × Node))
  /-- An array of tables, the current one first. -/
  | tables (current : List (String × Node)) (earlier : List (List (String × Node)))
  deriving Inhabited

abbrev Entries := List (String × Node)

namespace Entries

def lookup? (key : String) (es : Entries) : Option Node :=
  (es.find? fun e => e.1 = key).map Prod.snd

/-- Writes an entry over the one of its key, or behind all others. -/
def put (key : String) (node : Node) : Entries → Entries
  | [] => [(key, node)]
  | e :: es => if e.1 = key then (key, node) :: es else e :: put key node es

/-- Changes the table at a path, making tables on the way.  `dotted` tells a dotted key from a
header. -/
def within (dotted : Bool) (change : Bool → Entries → Option Entries) (here : Bool) :
    List String → Entries → Option Entries
  | [], es => change here es
  | k :: ks, es =>
    match lookup? k es with
    | none => do
      let inner ← within dotted change dotted ks []
      return put k (.table true dotted inner) es
    | some (.value _) => none
    | some (.table implied wasDotted inner) => do
      guard (!dotted || implied)
      let inner ← within dotted change wasDotted ks inner
      return put k (.table implied wasDotted inner) es
    | some (.tables current earlier) => do
      let current ← within dotted change false ks current
      return put k (.tables current earlier) es

/-- Writes an entry behind all others, and nowhere else. -/
def putLast (key : String) (node : Node) (es : Entries) : Entries :=
  es.filter (fun e => e.1 ≠ key) ++ [(key, node)]

/-- A header: the table starts here, unless it did before. -/
def openTable (path : List String) (es : Entries) : Option Entries :=
  match path.getLast? with
  | none => none
  | some key =>
    within false (fun _ es =>
      match lookup? key es with
      | none => some (put key (.table false false []) es)
      | some (.table true false inner) => some (putLast key (.table false false inner) es)
      | some _ => none) false path.dropLast es

/-- A header of an array of tables: one more table starts here. -/
def openElement (path : List String) (es : Entries) : Option Entries :=
  match path.getLast? with
  | none => none
  | some key =>
    within false (fun _ es =>
      match lookup? key es with
      | none => some (put key (.tables [] []) es)
      | some (.tables current earlier) => some (put key (.tables [] (current :: earlier)) es)
      | some _ => none) false path.dropLast es

/-- A value under a key, which may be dotted, in the table that dotted keys may extend. -/
def assign (path : List String) (value : Document) (es : Entries) : Option Entries :=
  match path.getLast? with
  | none => none
  | some key =>
    within true (fun dotted es => do
      guard (dotted == decide (2 ≤ path.length))
      guard (lookup? key es).isNone
      return es ++ [(key, .value value)]) false path.dropLast es

/-- A value under a key of the table that the last header opened. -/
def assignUnder (header path : List String) (value : Document) (es : Entries) : Option Entries :=
  within false (fun _ es => assign path value es) false header es

end Entries

mutual

/-- The finished value of an entry. -/
def Node.finish : Node → Document
  | .value v => v
  | .table _ _ es => .table (finishEntries es)
  | .tables current earlier =>
    .list ((.table (finishEntries current) :: finishTables earlier).reverse)

def finishEntries : List (String × Node) → List (String × Document)
  | [] => []
  | (k, n) :: es => (k, n.finish) :: finishEntries es

def finishTables : List (List (String × Node)) → List Document
  | [] => []
  | es :: ts => .table (finishEntries es) :: finishTables ts

end

end InformerHub.Toml
