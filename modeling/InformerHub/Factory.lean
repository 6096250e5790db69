import InformerHub.Config.Settings
import InformerHub.Log
import InformerHub.SortedMap

/-!
# Informer factories

A factory owns the informers of one connection, one per resource.  It makes an informer when a
resource is first asked for, and starts each of them once.  Informers are known here by
identifiers of a type `ι`; whoever holds the factory keeps the informers themselves.
-/

namespace InformerHub

namespace Factory

/-- What a factory knows about a resource. -/
structure Entry (ι : Type) where
  /-- The type of the informer's items. -/
  itemType : String
  informer : ι
  started : Bool
  deriving DecidableEq, Repr

end Factory

structure Factory (ι : Type) where
  name : String
  entries : SortedMap String (Factory.Entry ι)
  /-- In nanoseconds; for the informers to be made. -/
  resyncPeriod : Option Nat
  relistPolicy : BackoffPolicy
  /-- In nanoseconds; the time between two looks while waiting for informers to sync. -/
  pollInterval : Nat

namespace Factory

variable {ι : Type}

def new (name : String) (settings : Settings) : Factory ι where
  name
  entries := ∅
  resyncPeriod := settings.informer.resyncPeriod
  relistPolicy := settings.retry.relist
  pollInterval := settings.heartbeat.pollInterval

/-- The informer of a resource, if there is one; an error if it holds items of another type. -/
def lookup (f : Factory ι) (resource itemType : String) : Option (Except Error ι) :=
  (f.entries.get? resource).map fun e =>
    if e.itemType = itemType then .ok e.informer else .error (.typeMismatch resource e.itemType)

/-- Enters an informer that was made for a resource. -/
def enter (f : Factory ι) (resource itemType : String) (informer : ι) : Factory ι :=
  { f with entries := f.entries.insert resource ⟨itemType, informer, false⟩ }

/-- The informer of a resource.  If there is none, `fresh` becomes it, and the second part of the
answer is true. -/
def obtain (f : Factory ι) (resource itemType : String) (fresh : ι) :
    Factory ι × Except Error (ι × Bool) :=
  match f.lookup resource itemType with
  | some (.ok i) => (f, .ok (i, false))
  | some (.error e) => (f, .error e)
  | none => (f.enter resource itemType fresh, .ok (fresh, true))

/-- The resources whose informers have not been started, with these. -/
def unstarted (f : Factory ι) : List (String × ι) :=
  f.entries.entries.filterMap fun e =>
    if e.2.started then none else some (e.1, e.2.informer)

/-- Marks every informer as started.  The second part lists those to start now. -/
def start (f : Factory ι) : Factory ι × List (String × ι) :=
  ({ f with entries := f.entries.mapValues fun _ e => { e with started := true } }, f.unstarted)

/-- The resources in order. -/
def resources (f : Factory ι) : List String := f.entries.keys

/-- For each started informer whether it has synced. -/
def syncStatus (f : Factory ι) (hasSynced : ι → Bool) : List (String × Bool) :=
  f.entries.entries.filterMap fun e =>
    if e.2.started then some (e.1, hasSynced e.2.informer) else none

def record (f : Factory ι) (level : LogLevel) (message : String)
    (fields : List (String × String)) : LogRecord :=
  ⟨.factory, level, message, ("factory", f.name) :: fields⟩

/-- The factory in a few words: its name and its resources. -/
def describe (f : Factory ι) : String :=
  Text.openRecord "InformerFactory"
    [("name", Text.quoted f.name), ("informers", Text.bracketed (f.resources.map Text.quoted))]

end Factory

end InformerHub
