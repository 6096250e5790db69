import InformerHub.Duration

/-!
# Waiting for caches

A wait looks at the sync status of some informers, again and again with a pause in between, until
all of them have synced or it is cancelled.  Either way it ends with the status of that moment.
-/

namespace InformerHub

inductive SyncWait where
  /-- Until the next look at an instant. -/
  | pausing (due : Nat)
  | ended (status : List (String × Bool))
  deriving DecidableEq, Repr, Inhabited

namespace SyncWait

def allSynced (status : List (String × Bool)) : Bool := status.all fun s => s.2

/-- What has not synced, each resource with the name of who waits for it. -/
def unsynced (name : String) (status : List (String × Bool)) : List String :=
  (status.filter fun s => !s.2).map fun s => name ++ "/" ++ s.1

/-- A look at `now`, with `poll` nanoseconds to the next one. -/
def look (poll now : Nat) (status : List (String × Bool)) : SyncWait :=
  if allSynced status then .ended status else .pausing (Duration.timerEnd now poll)

/-- What follows at `now`, given whether the wait is cancelled and the status of this moment.  None
if it is time for nothing. -/
def turn (poll now : Nat) (cancelled : Bool) (status : List (String × Bool)) :
    SyncWait → Option SyncWait
  | .pausing due =>
    if cancelled then some (.ended status)
    else if due ≤ now then some (look poll now status)
    else none
  | .ended _ => none

end SyncWait

end InformerHub
