import InformerHub.Barrier
import InformerHub.Config.Settings
import InformerHub.Scenario.StoreCall

/-!
# Steps of a scenario

What a scenario can do, as data.  An `Action` makes something, changes it, starts a task or asks a
question, and takes no time.  A `Step` is an action or one of the three things that build a
handler; the handlers' own reactions are steps again, so steps nest.  A `Directive` is a step or a
wait, which lets time pass.
-/

namespace InformerHub.Scenario

/-! ## Handlers -/

/-- Which objects a filter lets through. -/
inductive Predicate where
  | always (accepts : Bool)
  | label (label : String)
  | minVersion (version : Nat)
  | nameStart (text : String)
  | not (inner : Predicate)
  deriving DecidableEq, Repr, Inhabited

def Predicate.accepts : Predicate → Obj → Bool
  | .always b, _ => b
  | .label l, o => o.labels.contains l
  | .minVersion v, o => decide (v ≤ o.version)
  | .nameStart p, o => p.toList.isPrefixOf o.name.toList
  | .not p, o => !p.accepts o

/-- A step of type `σ` to take inside the `nth` callback of a kind. -/
structure Reaction (σ : Type) where
  kind : EventKind
  nth : Nat
  step : σ
  deriving Repr

/-- What a handler does with the events that reach it. -/
structure HandlerScript (σ : Type) where
  /-- Where its records go. -/
  channel : String
  /-- The kinds of events it takes note of. -/
  kinds : List EventKind
  reactions : List (Reaction σ)
  /-- Callbacks of this kind panic with the message. -/
  panicOn : Option EventKind
  message : String
  /-- Whether its description is recorded when it is built. -/
  announced : Bool
  deriving Repr, Inhabited

/-- A handler behind any number of filters, the outermost first. -/
structure HandlerSpec (σ : Type) where
  filters : List Predicate
  script : HandlerScript σ
  deriving Repr, Inhabited

/-- The description of a handler that takes note of some kinds of events. -/
def describeCallbacks (kinds : List EventKind) : String :=
  Text.record "EventHandlerFns"
    ([EventKind.add, .update, .delete].map fun k => (k.text, Text.truth (kinds.contains k)))

/-! ## Actions -/

/-- New values for a scripted source; what is left out stays. -/
structure SourceChange where
  items : Option (List Obj)
  listDelay : Option Nat
  watchDelay : Option Nat
  failingLists : Option Nat
  failingWatches : Option Nat
  version : Option String
  /-- What a failing list says. -/
  listFault : Option String
  deriving Repr, Inhabited

/-- How a scripted controller behaves. -/
inductive ControllerMode where
  /-- Until the shutdown, and then for its delay. -/
  | waits
  | returns
  | panics
  | panicsAtStop
  deriving DecidableEq, Repr, Inhabited

/-- Who is told of a connection's readiness. -/
inductive Audience where
  | hook (id : String)
  /-- Bindings, through a client. -/
  | bindings (bindings client : String)
  deriving DecidableEq, Repr, Inhabited

/-- Something that takes no time and builds no handler.  Times are in milliseconds, intervals in
nanoseconds. -/
inductive Action where
  | token (id : String) (parent : Option String)
  | cancel (token : String)
  | lister (id : String) (change : SourceChange)
  | setLister (id : String) (change : SourceChange)
  | send (lister : String) (changes : List (Change Obj))
  | failWatch (lister message : String)
  | closeWatch (lister : String)
  /-- Asks how often lists were called and feeds opened. -/
  | sourceCalls (lister : String)
  | informer (id resource lister : String) (resync : Option Nat) (policy : BackoffPolicy)
  | run (id token task : String)
  | removeHandler (on handler : String)
  | removeRegistration (on : String) (registration : Nat)
  /-- Asks for the events that reached a handler. -/
  | heard (handler : String)
  | forgetHeard (handler : String)
  /-- Calls a store, be it of items or of bindings. -/
  | store (on : String) (call : StoreCall)
  /-- Calls a store of items. -/
  | itemStore (on : String) (call : StoreCall)
  | informerState (id : String)
  | factory (id name : String) (settings : Settings)
  /-- Asks for an informer of items of a type; one without a source is never listed. -/
  | informerFor (factory resource itemType : String) (lister : Option String) (newId : String)
      (sameAs : Option String)
  | startFactory (id token : String)
  | resources (id : String)
  | waitSync (id token task : String)
  | waitStopped (id task : String)
  | dynamic (id source scope : String)
  | dynamicState (id : String)
  | drop (id : String)
  | waiter (id name : String) (status : List (String × Bool)) (instant : Bool) (cancelDelay : Nat)
  | setWaiter (id : String) (status : List (String × Bool))
  | hook (id : String) (delay : Nat) (panic : Option String)
  | setHook (id : String) (delay : Nat)
  | barrier (id : String) (waiters : List String) (interval : Nat) (hook : String)
  | barrierWait (id token task : String)
  | barrierState (id : String)
  | subscribe (id newId : String)
  | changed (subscription : String)
  | bindings (id : String) (items : List Obj) (indexed : Bool) (resource : String)
  | upsertBinding (id : String) (binding : Obj)
  | deleteBinding (id key : String)
  | client (id : String) (failures delays : List (String × Nat)) (writeBack : Option String)
  | setClient (id : String) (failures delays : List (String × Nat))
  | reporter (id secret bindings client : String) (policy : BackoffPolicy)
  | controller (id : String) (mode : ControllerMode) (stopDelay : Nat) (message : String)
  | cluster (id secret : String) (factories controllers : List String) (settings : Settings)
      (audience : Audience)
  | describe (id : String)
  deriving Repr, Inhabited

/-! ## Steps and waits -/

/-- Something that takes no time. -/
inductive Step where
  | act (action : Action)
  | addHandler (on name : String) (spec : HandlerSpec Step)
  /-- Adds a handler to a dynamic informer, from inside the runtime or from outside. -/
  | joinFanOut (id token name handler : String) (spec : HandlerSpec Step) (inside : Bool)
  /-- Builds a handler and gives it some events. -/
  | handle (name : String) (spec : HandlerSpec Step) (events : List (Event Obj))
  deriving Inhabited

mutual

/-- How deeply the reactions in a step nest. -/
def Step.depth : Step → Nat
  | .act _ => 1
  | .addHandler _ _ ⟨_, ⟨_, _, reactions, _, _, _⟩⟩ => Step.depthOfAll reactions + 1
  | .joinFanOut _ _ _ _ ⟨_, ⟨_, _, reactions, _, _, _⟩⟩ _ => Step.depthOfAll reactions + 1
  | .handle _ ⟨_, ⟨_, _, reactions, _, _, _⟩⟩ _ => Step.depthOfAll reactions + 1

def Step.depthOfAll : List (Reaction Step) → Nat
  | [] => 0
  | ⟨_, _, step⟩ :: rest => max step.depth (Step.depthOfAll rest)

end

/-- Something that a scenario can wait for. -/
inductive Goal where
  | synced (informer : String)
  /-- At least so many lists of a source. -/
  | lists (lister : String) (count : Nat)
  /-- At least so many feeds of a source. -/
  | watches (lister : String) (count : Nat)
  /-- At least so many events that reached a handler. -/
  | heard (handler : String) (count : Nat)
  deriving DecidableEq, Repr, Inhabited

/-- A step, or a wait: for some milliseconds, for a hook, or for a goal during some
milliseconds. -/
inductive Directive where
  | take (step : Step)
  | advance (millis : Nat)
  | report (hook : String) (readiness : Readiness)
  | eventually (goal : Goal) (within : Nat)
  deriving Inhabited

end InformerHub.Scenario
