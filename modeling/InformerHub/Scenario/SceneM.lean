import InformerHub.Scenario.Scene

/-!
# What happens on the scene

`SceneM` is the type of what happens on the scene: looking things up, changing them, recording, and
starting, waking and ending tasks.  Its errors are panics: they unwind to the step or the task that
caused them, and the scene stays as they left it.
-/

namespace InformerHub.Scenario

abbrev SceneM : Type → Type := EStateM String Scene

namespace SceneM

/-! ## Looking things up -/

variable {α : Type}

/-- Number `i` of a table. -/
def row [Inhabited α] (table : Scene → Array α) (i : Nat) : SceneM α := do
  return (table (← get)).getD i default

/-- What a name means, if that is of the right kind.  A name that means nothing of the kind is a
fault of the scenario. -/
def find (choose : Entity → Option α) (name : String) : SceneM α := do
  match ((← get).names.get? name).bind choose with
  | some a => pure a
  | none => throw ("nothing of the right kind is called " ++ name)

def findToken : String → SceneM Nat := find fun
  | .token t => some t
  | _ => none

def findSource : String → SceneM Nat := find fun
  | .source s => some s
  | _ => none

def findInformer : String → SceneM Nat := find fun
  | .informer i => some i
  | _ => none

def findFactory : String → SceneM Nat := find fun
  | .factory f => some f
  | _ => none

def findDynamic : String → SceneM Nat := find fun
  | .dynamic d => some d
  | _ => none

def findHook : String → SceneM HookRef := find fun
  | .hook h => some h
  | _ => none

def findScriptedHook : String → SceneM Nat := find fun
  | .hook (.scripted h) => some h
  | _ => none

def findWaiter : String → SceneM Nat := find fun
  | .waiter w => some w
  | _ => none

def findWaiterRef : String → SceneM WaiterRef := find fun
  | .waiter w => some (.scripted w)
  | .factory f => some (.factory f)
  | _ => none

def findClient : String → SceneM Nat := find fun
  | .client c => some c
  | _ => none

def findController : String → SceneM Nat := find fun
  | .controller c => some c
  | _ => none

def findSubscription : String → SceneM Nat := find fun
  | .subscription s => some s
  | _ => none

/-- The barrier of a name, which may be that of a cluster. -/
def findBarrier (name : String) : SceneM Nat := do
  match ← find some name with
  | .barrier b => pure b
  | .cluster c => return (← row Scene.clusters c).barrier
  | _ => throw ("no barrier is called " ++ name)

def isCancelled (token : Nat) : SceneM Bool := return (← get).cancellation.isCancelled token

/-- The latest recorder of a name. -/
def findRecorder (name : String) : SceneM Nat := do
  let recorders := (← get).recorders.toList.zipIdx
  match (recorders.filter fun r => r.1.name = name).getLast? with
  | some (_, i) => pure i
  | none => throw ("no handler is called " ++ name)

/-- The present instant in nanoseconds. -/
def instant : SceneM Nat := return Duration.ofMillis (← get).now

/-- The next place in a line. -/
def takePlace : SceneM Nat :=
  modifyGet fun s => (s.nextPlace, { s with nextPlace := s.nextPlace + 1 })

/-- The alarm of a timer that is set now. -/
def alarm (d : Nat) : SceneM Alarm := return ⟨Duration.timerEnd (← instant) d, ← takePlace⟩

/-- The alarm of a timer for some milliseconds. -/
def after (millis : Nat) : SceneM Alarm := alarm (Duration.ofMillis millis)

/-! ## Changing things -/

def updateSource (i : Nat) (f : Source → Source) : SceneM Unit :=
  modify fun s => { s with sources := s.sources.modify i f }

def updateFeed (i : Nat) (f : Feed → Feed) : SceneM Unit :=
  modify fun s => { s with feeds := s.feeds.modify i f }

def updateRecorder (i : Nat) (f : Recorder → Recorder) : SceneM Unit :=
  modify fun s => { s with recorders := s.recorders.modify i f }

def setInformer (i : Nat) (inf : Informer Obj Handler) : SceneM Unit :=
  modify fun s => { s with informers := s.informers.modify i fun u => { u with informer := inf } }

def updateFactory (i : Nat) (f : StagedFactory → StagedFactory) : SceneM Unit :=
  modify fun s => { s with factories := s.factories.modify i f }

def updateWaiter (i : Nat) (f : ScriptedWaiter → ScriptedWaiter) : SceneM Unit :=
  modify fun s => { s with waiters := s.waiters.modify i f }

def updateClient (i : Nat) (f : ScriptedClient → ScriptedClient) : SceneM Unit :=
  modify fun s => { s with clients := s.clients.modify i f }

def updateBarrier (i : Nat) (f : Barrier → Barrier) : SceneM Unit :=
  modify fun s => { s with
    barriers := s.barriers.modify i fun u => { u with barrier := f u.barrier } }

def setActivity (t : Nat) (a : Activity) : SceneM Unit :=
  modify fun s => { s with tasks := s.tasks.modify t fun k => { k with activity := a } }

/-- The informer as it is now. -/
def informer (i : Nat) : SceneM (Informer Obj Handler) :=
  return (← row Scene.informers i).informer

/-! ## Records -/

def record (channel : Channel) (content : Content) : SceneM Unit :=
  modify fun s => { s with entries := s.entries.push ⟨some s.now, channel, content⟩ }

/-- Records what a component says, if its level is recorded.  `inside` tells whether it is said
inside the runtime, where there is a clock. -/
def logFrom (inside : Bool) (r : LogRecord) : SceneM Unit :=
  modify fun s =>
    if s.logLimit.any r.level.within then
      { s with
        entries := s.entries.push ⟨if inside then some s.now else none, .log r.source, .log r⟩ }
    else s

def log (r : LogRecord) : SceneM Unit := logFrom true r

/-! ## Tasks -/

/-- Gives a task a turn, unless it has one already. -/
def enqueue (t : Nat) : SceneM Unit :=
  modify fun s => if s.queue.contains t then s else { s with queue := s.queue ++ [t] }

/-- The numbers of the tasks that some test on their activities accepts, those first that have
waited longest. -/
def tasksWhere (p : Activity → Bool) : SceneM (List Nat) := do
  let tasks := (← get).tasks.toList.zipIdx.filterMap fun (k, t) =>
    if p k.activity then k.since.map fun place => (place, t) else none
  return (tasks.mergeSort fun a b => decide (a.1 ≤ b.1)).map Prod.snd

/-- Gives a turn to every task that waited for this. -/
def wake (c : Cause) : SceneM Unit := do
  (← tasksWhere fun a => a.awaits c).forM enqueue

def setSince (t : Nat) (place : Option Nat) : SceneM Unit :=
  modify fun s => { s with tasks := s.tasks.modify t fun k => { k with since := place } }

/-- Puts a task at the end of all lines. -/
def requeue (t : Nat) : SceneM Unit := do setSince t (some (← takePlace))

/-- Whether the task whose turn it is has had its share. -/
def exhausted : SceneM Bool := return (← get).share = 0

/-- Takes a unit off the share of the task whose turn it is. -/
def spend : SceneM Unit := modify fun s => { s with share := s.share - 1 }

/-- Lets a task go on after the others.  Until then it stands in no line. -/
def defer (t : Nat) : SceneM Unit := do
  setSince t none
  modify fun s => if s.deferred.contains t then s else { s with deferred := s.deferred ++ [t] }

/-- Starts a task. -/
def spawn (name : Option String) (a : Activity) : SceneM Nat := do
  let s ← get
  let t := s.tasks.size
  set { s with tasks := s.tasks.push ⟨a, name, none⟩ }
  enqueue t
  return t

/-! ## Tokens -/

/-- Whether a dynamic informer is in use. -/
def usesDynamic (s : Scene) (d : Nat) : Bool :=
  s.joining.contains d || s.names.entries.any fun e =>
    match e.2 with
    | .dynamic d' => d' == d
    | _ => false

/-- Whether a barrier is in use: by its name, by that of a cluster, or by a task. -/
def usesBarrier (s : Scene) (b : Nat) : Bool :=
  let barrierOf (c : Nat) : Nat := (s.clusters.getD c default).barrier
  s.names.entries.any (fun e =>
    match e.2 with
    | .barrier b' => b' == b
    | .cluster c => barrierOf c == b
    | _ => false) ||
  s.tasks.any fun k => k.activity.holdsBarrier barrierOf b

/-- The tokens that something holds. -/
def heldTokens (s : Scene) : List Nat :=
  let named := s.names.entries.filterMap fun e =>
    match e.2 with
    | .token t => some t
    | _ => none
  let scopes := s.dynamics.toList.zipIdx.filterMap fun (d, i) =>
    if usesDynamic s i then some d.scope else none
  named ++ scopes ++ s.tasks.toList.flatMap fun k => k.activity.tokens

/-- Releases the tokens that nothing holds any more. -/
def releaseTokens : SceneM Unit :=
  modify fun s =>
    let held := heldTokens s
    let idle := (List.range s.cancellation.nodes.size).filter fun t =>
      s.cancellation.isLinked t && !held.contains t
    { s with cancellation := idle.foldl Cancellation.release s.cancellation }

/-- Ends a task. -/
def finish (t : Nat) (e : Ending) : SceneM Unit := do
  setActivity t (.ended e)
  match (← row Scene.tasks t).name with
  | some name => record (.task name) (.ended e)
  | none => pure ()
  wake (.ended t)
  releaseTokens

/-- Cancels a token and all below it. -/
def cancel (token : Nat) : SceneM Unit := do
  let s ← get
  let (cancellation, reached) := s.cancellation.cancel token
  set { s with cancellation }
  reached.forM fun t => wake (.cancelled t)

/-- Abandons everything that informers are delivering, after a panic. -/
def abandonDeliveries : SceneM Unit :=
  modify fun s => { s with
    informers := s.informers.map fun u => { u with informer := u.informer.abandon } }

end SceneM

end InformerHub.Scenario
