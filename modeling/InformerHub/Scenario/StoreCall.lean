import InformerHub.Scenario.Object
import InformerHub.Store

/-!
# Calls of a store

One call of a store's interface as data, and its answer.
-/

namespace InformerHub.Scenario

/-- The index functions that a call can name. -/
inductive IndexedBy where
  | labels
  | ns
  | version
  | nothing
  deriving DecidableEq, Repr, Inhabited

def IndexedBy.values : IndexedBy → Obj → List String
  | .labels, o => o.labels
  | .ns, o => [o.ns.getD ""]
  | .version, o => [toString o.version]
  | .nothing, _ => []

inductive StoreCall where
  | upsert (obj : Obj)
  | delete (key : String)
  | replace (items : List Obj) (initial : Bool)
  | addIndexer (name : String) (key : IndexedBy)
  | get (key : String)
  | list
  | keys
  | len
  | byIndex (name value : String)
  | describe
  deriving Repr, Inhabited

inductive StoreAnswer where
  | item (item : Option Obj)
  | items (items : List Obj)
  | events (events : List (Event Obj))
  | keys (keys : List String)
  | size (count : Nat) (isEmpty : Bool)
  | text (text : String)
  | done
  | failed (error : Error)
  deriving Repr, Inhabited

/-- The store after a call, and the answer. -/
def StoreCall.run (s : Store Obj) : StoreCall → Store Obj × StoreAnswer
  | .upsert o => let (s, old) := s.upsert o; (s, .item old)
  | .delete k => let (s, old) := s.delete k; (s, .item old)
  | .replace os initial => let (s, es) := s.replace os initial; (s, .events es)
  | .addIndexer name ix =>
    match s.addIndex name ix.values with
    | .ok s => (s, .done)
    | .error e => (s, .failed e)
  | .get k => (s, .item (s.get? k))
  | .list => (s, .items s.list)
  | .keys => (s, .keys s.keys)
  | .len => (s, .size s.size s.items.isEmpty)
  | .byIndex name value =>
    match s.byIndex name value with
    | .ok os => (s, .items os)
    | .error e => (s, .failed e)
  | .describe => (s, .text s.describe)

end InformerHub.Scenario
