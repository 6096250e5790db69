import InformerHub.Event

/-!
# Filtered events

What a handler is told that only wants the items a predicate accepts.  An update that moves an
item into the accepted ones is an add to it, one that moves an item out is a delete.
-/

namespace InformerHub.Event

variable {α : Type}

/-- The event as it is told behind the filter, if it is. -/
def filtered (accepts : α → Bool) : Event α → Option (Event α)
  | .add a initial => if accepts a then some (.add a initial) else none
  | .update old new =>
    match accepts old, accepts new with
    | true, true => some (.update old new)
    | true, false => some (.delete old)
    | false, true => some (.add new false)
    | false, false => none
  | .delete a => if accepts a then some (.delete a) else none

end InformerHub.Event
