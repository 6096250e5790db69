/-!
# Events

A source reports a `Change` to one object.  The informer relates it to what it has stored and
tells its handlers an `Event`, which for an update carries both versions.
-/

namespace InformerHub

/-- What a source reports about one object. -/
inductive Change (α : Type) where
  | added (item : α)
  | modified (item : α)
  | deleted (item : α)
  deriving DecidableEq, Repr

/-- What a handler is told.  `initial` marks an item that was there before the handler, or that
came with the informer's first list. -/
inductive Event (α : Type) where
  | add (item : α) (initial : Bool)
  | update (old new : α)
  | delete (item : α)
  deriving DecidableEq, Repr

inductive EventKind where
  | add
  | update
  | delete
  deriving DecidableEq, Repr

/-- The object that changed. -/
def Change.item {α : Type} : Change α → α
  | .added a | .modified a | .deleted a => a

namespace Event

variable {α : Type}

def kind : Event α → EventKind
  | .add .. => .add
  | .update .. => .update
  | .delete .. => .delete

/-- The events that tell a newcomer of items that are already there. -/
def replay (items : List α) : List (Event α) := items.map fun a => .add a true

end Event

namespace EventKind

def text : EventKind → String
  | .add => "add"
  | .update => "update"
  | .delete => "delete"

end EventKind

end InformerHub
