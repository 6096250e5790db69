import InformerHub.Condition
import InformerHub.ObjectKey
import InformerHub.Timestamp

/-!
# Objects of a scenario

The two kinds of objects that scripted sources hold: items with a version and labels, and bindings
with the secrets they use and a list of conditions.
-/

namespace InformerHub.Scenario

/-- The time of a condition: one that was given, or a reading of the clock during the run. -/
inductive Moment where
  | given (time : Timestamp)
  | reading (count : Nat)
  deriving DecidableEq, Repr, Inhabited

structure Item where
  ns : Option String
  name : String
  version : Nat
  labels : List String
  deriving DecidableEq, Repr, Inhabited

structure Binding where
  ns : Option String
  name : String
  secrets : List String
  conditions : List (Condition Moment)
  deriving DecidableEq, Repr, Inhabited

/-- An object of either kind. -/
inductive Obj where
  | item (item : Item)
  | binding (binding : Binding)
  deriving DecidableEq, Repr, Inhabited

namespace Obj

def ns : Obj → Option String
  | .item i => i.ns
  | .binding b => b.ns

def name : Obj → String
  | .item i => i.name
  | .binding b => b.name

def version : Obj → Nat
  | .item i => i.version
  | .binding _ => 0

def labels : Obj → List String
  | .item i => i.labels
  | .binding _ => []

def secrets : Obj → List String
  | .item _ => []
  | .binding b => b.secrets

def conditions : Obj → List (Condition Moment)
  | .item _ => []
  | .binding b => b.conditions

def withConditions : Obj → List (Condition Moment) → Obj
  | .item i, _ => .item i
  | .binding b, cs => .binding { b with conditions := cs }

end Obj

instance : Object Obj := ⟨Obj.ns, Obj.name⟩

instance : Conditioned Obj Moment := ⟨Obj.conditions, Obj.withConditions⟩

end InformerHub.Scenario
