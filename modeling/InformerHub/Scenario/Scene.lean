import InformerHub.Cancellation
import InformerHub.Factory
import InformerHub.Informer.Run
import InformerHub.Scenario.Source
import InformerHub.Scenario.Task

/-!
# The scene

Everything that a scenario has made so far, each thing in a table of its kind and known by its
number there, with the names that the scenario gave to some of them.  Names can be given anew;
what they meant before stays, for those that still use it.
-/

namespace InformerHub.Scenario

/-! ## What a scene holds -/

/-- A handler: filters, the outermost first, before a recorder. -/
structure Handler where
  filters : List Predicate
  recorder : Nat
  deriving Inhabited

/-- How many events of each kind there were. -/
structure Tally where
  adds : Nat
  updates : Nat
  deletes : Nat
  deriving DecidableEq, Repr, Inhabited

namespace Tally

def count (t : Tally) : EventKind → Nat
  | .add => t.adds
  | .update => t.updates
  | .delete => t.deletes

/-- One more of a kind. -/
def more (t : Tally) : EventKind → Tally
  | .add => { t with adds := t.adds + 1 }
  | .update => { t with updates := t.updates + 1 }
  | .delete => { t with deletes := t.deletes + 1 }

end Tally

/-- What takes note of the events that reach a handler. -/
structure Recorder where
  name : String
  script : HandlerScript Step
  tally : Tally
  /-- The events that it remembers, the latest first. -/
  heard : List (Event Obj)
  deriving Inhabited

/-- An informer with what it runs on.  One without a source finds nothing and never hears of a
change. -/
structure StagedInformer where
  informer : Informer Obj Handler
  resource : String
  source : Option Nat
  policy : BackoffPolicy
  /-- In nanoseconds. -/
  resync : Option Nat
  deriving Inhabited

structure StagedFactory where
  factory : Factory Nat
  /-- The tasks that were started and that nobody has waited for. -/
  tasks : List Nat

instance : Inhabited StagedFactory := ⟨⟨.new "" .standard, []⟩⟩

/-- A fan-out of an informer, open until its scope is cancelled. -/
structure DynamicInformer where
  informer : Nat
  fanOut : Nat
  scope : Nat
  deriving Inhabited

structure ScriptedWaiter where
  name : String
  status : List (String × Bool)
  /-- Whether it answers at once in any case. -/
  instant : Bool
  /-- How long it takes to answer when cancelled, in milliseconds. -/
  cancelDelay : Nat
  deriving Inhabited

structure ScriptedHook where
  id : String
  /-- In milliseconds. -/
  delay : Nat
  /-- The text with which it panics, if it does. -/
  panic : Option String
  deriving Inhabited

structure ScriptedClient where
  id : String
  /-- How many writes of a binding are still to fail. -/
  failures : List (String × Nat)
  /-- How long writes of a binding take, in milliseconds. -/
  delays : List (String × Nat)
  /-- The informer whose store gets what was written. -/
  writeBack : Option Nat
  deriving Inhabited

structure Reporter where
  secretKey : String
  /-- The informer that knows the bindings. -/
  bindings : Nat
  client : Nat
  policy : BackoffPolicy
  deriving Inhabited

structure ScriptedController where
  id : String
  mode : ControllerMode
  /-- In milliseconds. -/
  stopDelay : Nat
  message : String
  deriving Inhabited

structure StagedBarrier where
  barrier : Barrier
  waiters : List WaiterRef
  hook : HookRef
  deriving Inhabited

structure Cluster where
  secretKey : String
  factories : List Nat
  controllers : List Nat
  workers : Nat
  barrier : Nat
  deriving Inhabited

/-- A view of a barrier that remembers how many states it has seen. -/
structure Subscription where
  barrier : Nat
  seen : Nat
  deriving Inhabited

/-- What a name can mean. -/
inductive Entity where
  | token (token : Nat)
  | source (source : Nat)
  | informer (informer : Nat)
  | factory (factory : Nat)
  | dynamic (dynamic : Nat)
  | waiter (waiter : Nat)
  | hook (hook : HookRef)
  | barrier (barrier : Nat)
  | client (client : Nat)
  | controller (controller : Nat)
  | cluster (cluster : Nat)
  | subscription (subscription : Nat)
  /-- A handler, by its registration. -/
  | registration (registration : Nat)
  deriving Inhabited

structure Scene where
  /-- In milliseconds since the start. -/
  now : Nat
  /-- The least severe level that is recorded, if any is. -/
  logLimit : Option LogLevel
  /-- How deeply reactions nest. -/
  nesting : Nat
  cancellation : Cancellation
  names : SortedMap String Entity
  sources : Array Source
  feeds : Array Feed
  recorders : Array Recorder
  informers : Array StagedInformer
  factories : Array StagedFactory
  dynamics : Array DynamicInformer
  /-- The dynamic informers to which a handler is being added. -/
  joining : List Nat
  waiters : Array ScriptedWaiter
  hooks : Array ScriptedHook
  clients : Array ScriptedClient
  reporters : Array Reporter
  controllers : Array ScriptedController
  barriers : Array StagedBarrier
  clusters : Array Cluster
  subscriptions : Array Subscription
  tasks : Array Task
  /-- Tasks that have something to do, in the order of their turns. -/
  queue : List Nat
  /-- Tasks that have had their share and go on after the others, in the order of their turns. -/
  deferred : List Nat
  /-- What is left of the share of the task whose turn it is. -/
  share : Nat
  /-- The next place in a line: of tasks that begin to wait, or of alarms. -/
  nextPlace : Nat
  /-- What was recorded since the last reply. -/
  entries : Array Entry
  deriving Inhabited

/-- The name of the token that is there from the start. -/
def rootToken : String := "root"

/-- A scene with nothing but the root token. -/
def Scene.new (logLimit : Option LogLevel) (nesting : Nat) : Scene :=
  let (cancellation, root) := Cancellation.fresh ∅
  { now := 0
    logLimit, nesting, cancellation
    names := SortedMap.insert ∅ rootToken (.token root)
    sources := #[]
    feeds := #[]
    recorders := #[]
    informers := #[]
    factories := #[]
    dynamics := #[]
    joining := []
    waiters := #[]
    hooks := #[]
    clients := #[]
    reporters := #[]
    controllers := #[]
    barriers := #[]
    clusters := #[]
    subscriptions := #[]
    tasks := #[]
    queue := []
    deferred := []
    share := 0
    nextPlace := 0
    entries := #[] }

end InformerHub.Scenario
