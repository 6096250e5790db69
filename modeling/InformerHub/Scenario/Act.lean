import InformerHub.Scenario.Delivery

/-!
# Carrying out actions

What each action does to the scene, and the reply to it.  No action lets time pass, and none calls
a handler: what an action changes reaches handlers through the tasks that it starts or wakes.
-/

namespace InformerHub.Scenario

open SceneM

namespace SceneM

/-! ## Making things -/

/-- Lets go of a dynamic informer if it is not in use any more. -/
def dropDynamic (d : Nat) : SceneM Unit := do
  if !usesDynamic (← get) d then
    let d ← row Scene.dynamics d
    setInformer d.informer ((← informer d.informer).dropFanOut d.fanOut)

/-- Gives a name to something.  What had the name before loses it; the result says whether there
was such a thing. -/
def assign (name : String) (e : Option Entity) : SceneM Bool := do
  let old := (← get).names.get? name
  modify fun s => { s with names := match e with
    | some e => s.names.insert name e
    | none => s.names.erase name }
  if let some (.dynamic d) := old then dropDynamic d
  releaseTokens
  return old.isSome

/-- Introduces something new under a name. -/
def introduce (name : String) (e : Entity) : SceneM Reply := do
  discard (assign name (some e))
  return .done

def addInformer (u : StagedInformer) : SceneM Nat := do
  let s ← get
  set { s with informers := s.informers.push u }
  return s.informers.size

def addReporter (r : Reporter) : SceneM HookRef := do
  let s ← get
  set { s with reporters := s.reporters.push r }
  return .reporter s.reporters.size

def addBarrier (b : StagedBarrier) : SceneM Nat := do
  let s ← get
  set { s with barriers := s.barriers.push b }
  return s.barriers.size

/-- The informer that a name stands for, and how it is reached. -/
def resolve (name : String) : SceneM (Nat × Informer.Access) := do
  match ← find some name with
  | .informer i => return (i, .direct)
  | .dynamic d => return ((← row Scene.dynamics d).informer, .dynamic)
  | _ => throw ("no informer is called " ++ name)

/-- The reply to a step for informers of items that names an informer of bindings. -/
def noInformer : Reply := .failed (.external "no informer")

/-- Does something with the informer of items that a name stands for.  One of bindings has no
source, and refuses. -/
def onItems (name : String) (f : Nat → Informer.Access → SceneM Reply) : SceneM Reply := do
  let (i, access) ← resolve name
  if (← row Scene.informers i).source.isSome then f i access else return noInformer

/-! ## Feeds -/

/-- Puts something into a source's latest feed.  The result says whether it was accepted. -/
def feed (source : Nat) (x : Except Error (Change Obj)) : SceneM Bool := do
  match (← row Scene.sources source).feed with
  | none => return false
  | some f =>
    let accepted := (← row Scene.feeds f).isOpen
    updateFeed f fun f => f.put x
    wake (.fed f)
    return accepted

/-- Closes a source's latest feed.  The result says whether it was not closed yet. -/
def closeFeed (source : Nat) : SceneM Bool := do
  match (← row Scene.sources source).feed with
  | none => return false
  | some f =>
    let closed := (← row Scene.feeds f).closed
    updateFeed f fun f => { f with closed := true }
    wake (.fed f)
    return !closed

/-! ## Factories -/

/-- The factory's informer for a resource, made if need be. -/
def informerFor (factory : Nat) (resource itemType : String) (source : Option Nat) :
    SceneM (Except Error (Nat × Bool)) := do
  let fresh := (← get).informers.size
  let (f, answer) := (← row Scene.factories factory).factory.obtain resource itemType fresh
  updateFactory factory fun u => { u with factory := f }
  if let .ok (_, true) := answer then
    discard (addInformer {
      informer := .new
      resource, source
      policy := f.relistPolicy
      resync := f.resyncPeriod })
    log (f.record .debug "Informer created" [("resource", resource)])
  return answer

/-- Whether a name means the informer `i`; none if it means no informer with a source. -/
def isInformer (name : String) (i : Nat) : SceneM (Option Bool) := do
  match (← get).names.get? name with
  | some (.informer j) =>
    return if (← row Scene.informers j).source.isSome then some (j == i) else none
  | _ => return none

/-- Starts the informers of a factory that have not been started. -/
def startFactory (factory token : Nat) : SceneM Unit := do
  let u ← row Scene.factories factory
  let (f, unstarted) := u.factory.start
  let tasks ← unstarted.mapM fun (resource, i) =>
    spawn none (.informing ⟨i, token, some (f.name ++ "/" ++ resource), none, .nothing, none⟩)
  let tasks := u.tasks ++ tasks
  updateFactory factory fun _ => ⟨f, tasks⟩
  log (f.record .info "Informer factory started" [("informers", toString tasks.length)])

/-! ## Descriptions -/

def waiterName : WaiterRef → SceneM String
  | .factory f => return (← row Scene.factories f).factory.name
  | .scripted w => return (← row Scene.waiters w).name

def describeBarrier (b : Nat) : SceneM String := do
  let u ← row Scene.barriers b
  return u.barrier.describe (← u.waiters.mapM waiterName)

def describeEntity : Entity → SceneM String
  | .informer i => do
    let u ← row Scene.informers i
    return u.informer.describe u.resource
  | .dynamic d => do
    let d ← row Scene.dynamics d
    let u ← row Scene.informers d.informer
    return u.informer.describeFanOut u.resource d.fanOut (← isCancelled d.scope)
  | .factory f => return (← row Scene.factories f).factory.describe
  | .barrier b => describeBarrier b
  | .hook (.reporter r) => do
    let r ← row Scene.reporters r
    return Report.describeReporter r.secretKey (← row Scene.informers r.bindings).resource
  | .cluster c => do
    let c ← row Scene.clusters c
    let factories ← c.factories.mapM fun f => return (← row Scene.factories f).factory.describe
    return Connection.describe c.secretKey factories (← describeBarrier c.barrier)
      c.controllers.length
  | .registration r => return Text.record "HandlerRegistration" [("id", toString r)]
  | _ => throw "this cannot be described"

/-! ## Connections -/

/-- The hook of an audience; for bindings a new reporter with a policy. -/
def hookOf (secretKey : String) (policy : BackoffPolicy) : Audience → SceneM HookRef
  | .hook id => findHook id
  | .bindings b c => do
    addReporter ⟨secretKey, ← findInformer b, ← findClient c, policy⟩

def addCluster (id secretKey : String) (factories controllers : List String)
    (settings : Settings) (audience : Audience) : SceneM Reply := do
  let factories ← factories.mapM findFactory
  let controllers ← controllers.mapM findController
  let hook ← hookOf secretKey settings.retry.statusUpdate audience
  match splitKey secretKey, Barrier.new settings.heartbeat.interval with
  | .error e, _ => return .failed e
  | .ok _, .error e => return .failed e
  | .ok _, .ok barrier =>
    let cluster : Cluster := {
      secretKey, factories, controllers
      workers := settings.controllers.workers.toNat
      barrier := ← addBarrier ⟨barrier, factories.map .factory, hook⟩ }
    let s ← get
    set { s with clusters := s.clusters.push cluster }
    introduce id (.cluster s.clusters.size)

end SceneM

/-! ## Bindings -/

/-- The index function that gives a binding's secrets. -/
def secretIndex : Obj → List String := Obj.secrets

/-- A store of bindings, with the index from secrets to them if it is asked for. -/
def bindingStore (items : List Obj) (indexed : Bool) : Store Obj :=
  let s := (Store.upsertAll true items ∅).1
  match if indexed then s.addIndex bySecret secretIndex else .ok s with
  | .ok s => s
  | .error _ => s

/-! ## Actions -/

namespace SceneM

/-- Makes a token, below another one if that is given. -/
def addToken (id : String) (parent : Option Nat) : SceneM Reply := do
  let s ← get
  let (cancellation, t) := match parent with
    | some p => s.cancellation.child p
    | none => s.cancellation.fresh
  set { s with cancellation }
  introduce id (.token t)

/-- Removes a registration from the informer that a name stands for. -/
def removeRegistration (on : String) (registration : Nat) : SceneM Reply :=
  onItems on fun i access => do
    let (inf, found) := (← informer i).removeHandler access registration
    setInformer i inf
    return .truth found

/-- Makes a call on the store of an informer. -/
def callStore (i : Nat) (call : StoreCall) : SceneM Reply := do
  let inf ← informer i
  let (store, answer) := call.run inf.store
  setInformer i { inf with store }
  return .stored answer

/-- Carries out an action. -/
def act : Action → SceneM Reply
  | .token id parent => do
    addToken id (← parent.mapM findToken)
  | .cancel token => do
    cancel (← findToken token)
    return .done
  | .lister id change => do
    let s ← get
    set { s with sources := s.sources.push ((Source.new id).change change) }
    introduce id (.source s.sources.size)
  | .setLister id change => do
    updateSource (← findSource id) fun s => s.change change
    return .done
  | .send lister changes => do
    let source ← findSource lister
    return .truths (← changes.mapM fun c => feed source (.ok c))
  | .failWatch lister message => do
    let source ← findSource lister
    let accepted ← feed source (.error (.watch (← row Scene.sources source).id (.external message)))
    discard (closeFeed source)
    return .truth accepted
  | .closeWatch lister => return .truth (← closeFeed (← findSource lister))
  | .sourceCalls lister => do
    let s ← row Scene.sources (← findSource lister)
    return .sourceCalls s.lists s.watches
  | .informer id resource lister resync policy => do
    let i ← addInformer {
      informer := .new
      resource
      source := some (← findSource lister)
      policy
      resync := resync.map Duration.ofMillis }
    introduce id (.informer i)
  | .run id token task => do
    let token ← findToken token
    let activity ← match ← find some id with
      | .informer i => pure (Activity.informing ⟨i, token, none, none, .nothing, none⟩)
      | .barrier b => pure (Activity.beating ⟨b, token, none, [], 0, false, 0, .notBegun⟩)
      | .cluster c => pure (Activity.connecting ⟨c, token, none, 0, 0, [], ⟨0, [], []⟩⟩)
      | _ => throw ("nothing that runs is called " ++ id)
    discard (spawn (some task) activity)
    return .spawned
  | .removeHandler on handler => do
    match (← get).names.get? handler with
    | some (.registration r) => removeRegistration on r
    | _ => return .notRegistered
  | .removeRegistration on r => removeRegistration on r
  | .heard handler =>
    return .heard (← row Scene.recorders (← findRecorder handler)).heard.reverse
  | .forgetHeard handler => do
    updateRecorder (← findRecorder handler) fun r => { r with heard := [] }
    return .done
  | .store on call => do callStore (← resolve on).1 call
  | .itemStore on call => onItems on fun i _ => callStore i call
  | .informerState id => onItems id fun i _ => do
    let u ← row Scene.informers i
    return .informerState u.resource u.informer.synced u.informer.store.list
  | .factory id name settings => do
    let s ← get
    set { s with factories := s.factories.push ⟨.new name settings, []⟩ }
    introduce id (.factory s.factories.size)
  | .informerFor factory resource itemType lister newId sameAs => do
    let source ← lister.mapM findSource
    match ← informerFor (← findFactory factory) resource itemType source with
    | .error e => return .failed e
    | .ok (i, created) =>
      discard (introduce newId (.informer i))
      if source.isNone then return .unsourcedFound created
      return .informerFound created (← sameAs.bindM fun name => isInformer name i)
  | .startFactory id token => do
    startFactory (← findFactory id) (← findToken token)
    return .done
  | .resources id => return .names (← row Scene.factories (← findFactory id)).factory.resources
  | .waitSync id token task => do
    let f ← findFactory id
    discard (spawn (some task) (.awaitingSync f (← findToken token) (.notBegun (.factory f))))
    return .spawned
  | .waitStopped id task => do
    let f ← findFactory id
    discard (spawn (some task) (.awaitingStop (.of [f])))
    return .spawned
  | .dynamic id source scope => onItems source fun i access => do
    let scope ← findToken scope
    match (← informer i).addFanOut access with
    | .error e => return .failed e
    | .ok (inf, k) =>
      -- the replay to a fan-out that nobody has joined reaches nobody
      setInformer i inf.close
      let s ← get
      set { s with dynamics := s.dynamics.push ⟨i, k, scope⟩ }
      introduce id (.dynamic s.dynamics.size)
  | .dynamicState id => do
    let d ← row Scene.dynamics (← findDynamic id)
    return .handlers ((← informer d.informer).handlerKeys d.fanOut)
  | .drop id => return .truth (← assign id none)
  | .waiter id name status instant cancelDelay => do
    let s ← get
    set { s with waiters := s.waiters.push ⟨name, status, instant, cancelDelay⟩ }
    introduce id (.waiter s.waiters.size)
  | .setWaiter id status => do
    let w ← findWaiter id
    updateWaiter w fun w => { w with status }
    wake (.statusSet w)
    return .done
  | .hook id delay panic => do
    let s ← get
    set { s with hooks := s.hooks.push ⟨id, delay, panic⟩ }
    introduce id (.hook (.scripted s.hooks.size))
  | .setHook id delay => do
    let h ← findScriptedHook id
    modify fun s => { s with hooks := s.hooks.modify h fun h => { h with delay } }
    return .done
  | .barrier id waiters interval hook => do
    let waiters ← waiters.mapM findWaiterRef
    let hook ← findHook hook
    match Barrier.new interval with
    | .error e => return .failed e
    | .ok b => introduce id (.barrier (← addBarrier ⟨b, waiters, hook⟩))
  | .barrierWait id token task => do
    discard (spawn (some task) (.awaitingReady (← findBarrier id) (← findToken token)))
    return .spawned
  | .barrierState id => do
    let b := (← row Scene.barriers (← findBarrier id)).barrier
    return .barrierState b.state b.syncTimeout
  | .subscribe id newId => do
    let b ← findBarrier id
    let seen := (← row Scene.barriers b).barrier.published
    let s ← get
    set { s with subscriptions := s.subscriptions.push ⟨b, seen⟩ }
    introduce newId (.subscription s.subscriptions.size)
  | .changed subscription => do
    let k ← findSubscription subscription
    let sub ← row Scene.subscriptions k
    let b := (← row Scene.barriers sub.barrier).barrier
    let alive := usesBarrier (← get) sub.barrier
    modify fun s => { s with
      subscriptions := s.subscriptions.modify k fun u => { u with seen := b.published } }
    return .changed (alive && sub.seen != b.published) b.state
  | .bindings id items indexed resource => do
    let i ← addInformer {
      informer := { Informer.new with store := bindingStore items indexed }
      resource
      source := none
      policy := .standard
      resync := none }
    introduce id (.informer i)
  | .upsertBinding id binding => do
    let i ← findInformer id
    let inf ← informer i
    let (store, old) := inf.store.upsert binding
    setInformer i { inf with store }
    return .truth old.isSome
  | .deleteBinding id key => do
    let i ← findInformer id
    let inf ← informer i
    let (store, old) := inf.store.delete key
    setInformer i { inf with store }
    return .truth old.isSome
  | .client id failures delays writeBack => do
    let writeBack ← writeBack.mapM findInformer
    let s ← get
    set { s with clients := s.clients.push ⟨id, failures, delays, writeBack⟩ }
    introduce id (.client s.clients.size)
  | .setClient id failures delays => do
    updateClient (← findClient id) fun c => { c with failures, delays }
    return .done
  | .reporter id secret bindings client policy => do
    let hook ← addReporter ⟨secret, ← findInformer bindings, ← findClient client, policy⟩
    introduce id (.hook hook)
  | .controller id mode stopDelay message => do
    let s ← get
    set { s with controllers := s.controllers.push ⟨id, mode, stopDelay, message⟩ }
    introduce id (.controller s.controllers.size)
  | .cluster id secret factories controllers settings audience =>
    addCluster id secret factories controllers settings audience
  | .describe id => return .text (← describeEntity (← find some id))

end SceneM

end InformerHub.Scenario
