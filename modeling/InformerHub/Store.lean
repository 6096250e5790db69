import InformerHub.Event
import InformerHub.ObjectKey
import InformerHub.SortedMap

/-!
# The store

The items an informer has observed, each under its key, with any number of named indices that
file the items under the values an index function gives them.  Every operation on the items keeps
every index in step; `replace` also says which events turn the old content into the new one.
-/

namespace InformerHub

open Text

/-- A set of keys, listed in increasing order. -/
abbrev KeySet : Type := SortedMap String Unit

/-- A named view of a store: for each value of the index function, the keys of the items that
have it.  A value that no item has has no bucket. -/
structure Index (α : Type) where
  values : α → List String
  buckets : SortedMap String KeySet

namespace Index

variable {α : Type}

/-- The keys filed under a value. -/
def bucket (ix : Index α) (value : String) : KeySet := (ix.buckets.get? value).getD ∅

/-- Adds a key to the bucket of a value. -/
def addTo (ix : Index α) (key value : String) : Index α :=
  { ix with buckets := ix.buckets.insert value ((ix.bucket value).insert key ()) }

/-- Takes a key out of the bucket of a value, and the bucket away with its last key. -/
def removeFrom (ix : Index α) (key value : String) : Index α :=
  let rest := (ix.bucket value).erase key
  { ix with
    buckets := if rest.isEmpty then ix.buckets.erase value else ix.buckets.insert value rest }

/-- Files an item under all its values. -/
def file (ix : Index α) (key : String) (item : α) : Index α :=
  (ix.values item).foldl (fun ix v => ix.addTo key v) ix

/-- Takes an item out of the buckets of all its values. -/
def unfile (ix : Index α) (key : String) (item : α) : Index α :=
  (ix.values item).foldl (fun ix v => ix.removeFrom key v) ix

/-- The index of a list of items under their keys. -/
def build (values : α → List String) (items : List (String × α)) : Index α :=
  items.foldl (fun ix e => ix.file e.1 e.2) ⟨values, ∅⟩

end Index

/-- Items by key, and the indices over them. -/
structure Store (α : Type) where
  items : SortedMap String α
  indices : SortedMap String (Index α)

namespace Store

variable {α : Type}

instance : EmptyCollection (Store α) := ⟨⟨∅, ∅⟩⟩

instance : Inhabited (Store α) := ⟨∅⟩

def get? (s : Store α) (key : String) : Option α := s.items.get? key

/-- All items in the order of their keys. -/
def list (s : Store α) : List α := s.items.values

def keys (s : Store α) : List String := s.items.keys

def size (s : Store α) : Nat := s.items.size

/-- Puts an item under its key.  The second part is the item it replaces. -/
def upsert [Object α] (s : Store α) (item : α) : Store α × Option α :=
  let key := keyOf item
  let old := s.items.get? key
  let refile (ix : Index α) : Index α :=
    match old with
    | some o => (ix.unfile key o).file key item
    | none => ix.file key item
  (⟨s.items.insert key item, s.indices.mapValues fun _ ix => refile ix⟩, old)

/-- Takes the item of a key away.  The second part is that item. -/
def delete (s : Store α) (key : String) : Store α × Option α :=
  match s.items.get? key with
  | some o => (⟨s.items.erase key, s.indices.mapValues fun _ ix => ix.unfile key o⟩, some o)
  | none => (s, none)

/-- Puts items one after the other; each is an update of the version it replaces, or an add. -/
def upsertAll [Object α] (initial : Bool) : List α → Store α → Store α × List (Event α)
  | [], s => (s, [])
  | a :: as, s =>
    let (s₁, old) := s.upsert a
    let (s₂, es) := upsertAll initial as s₁
    match old with
    | some o => (s₂, .update o a :: es)
    | none => (s₂, .add a initial :: es)

/-- Deletes keys one after the other, with an event for each item that was there. -/
def deleteAll : List String → Store α → Store α × List (Event α)
  | [], s => (s, [])
  | k :: ks, s =>
    let (s₁, old) := s.delete k
    let (s₂, es) := deleteAll ks s₁
    match old with
    | some o => (s₂, .delete o :: es)
    | none => (s₂, es)

/-- Makes the content exactly `items`, and says which events lead there: one add or update per
listed item, in list order, then one delete per key that is listed no more, in key order. -/
def replace [Object α] (s : Store α) (items : List α) (initial : Bool) :
    Store α × List (Event α) :=
  let listed := items.map keyOf
  let (s₁, es₁) := upsertAll initial items s
  let (s₂, es₂) := deleteAll (s₁.keys.filter fun k => !listed.contains k) s₁
  (s₂, es₁ ++ es₂)

/-- Adds a named index over the present and all future items. -/
def addIndex (s : Store α) (name : String) (values : α → List String) : Except Error (Store α) :=
  if s.indices.contains name then .error (.indexerExists name)
  else .ok { s with indices := s.indices.insert name (Index.build values s.items.entries) }

/-- The items with a value in a named index, in key order. -/
def byIndex (s : Store α) (name value : String) : Except Error (List α) :=
  match s.indices.get? name with
  | some ix => .ok ((ix.bucket value).keys.filterMap s.items.get?)
  | none => .error (.indexNotFound name)

/-- The store in a few words: how many items, which indices. -/
def describe (s : Store α) : String :=
  record "Store"
    [("items", toString s.size), ("indexers", bracketed (s.indices.keys.map quoted))]

end Store

end InformerHub
