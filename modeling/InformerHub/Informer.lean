import InformerHub.FanOut
import InformerHub.Log
import InformerHub.Store

/-!
# Informers

An informer keeps a store in step with a source and tells the handlers registered with it about
every change.  What one relist, one change or one resync has to tell is a batch: all its events, in
order, go to every handler that was registered when the batch began, each event to all handlers
before the next event.  A handler that registers is told of everything stored, and of nothing that
remains of a batch under way.

A callback may itself register or remove handlers, so deliveries nest.  `deliveries` holds those
under way, the innermost first; `next?` takes the next call from it, `close` ends it.  Between two
such steps any of the other operations may happen.
-/

namespace InformerHub

/-- Where an event goes: to a handler, or to a fan-out that passes it on. -/
inductive Target (H : Type) where
  | handler (h : H)
  | fanOut (index : Nat)
  deriving DecidableEq, Repr

structure Registration (H : Type) where
  id : Nat
  target : Target H
  deriving DecidableEq, Repr

/-- One event for one target. -/
structure Call (α H : Type) where
  target : Target H
  event : Event α
  deriving DecidableEq, Repr

/-- A batch or a replay under way. -/
structure Delivery (α H : Type) where
  pending : List (Call α H)
  /-- Whether the informer counts as synced once all calls are made. -/
  completesSync : Bool

structure Informer (α H : Type) where
  store : Store α
  registrations : List (Registration H)
  /-- The id of the next registration. -/
  nextId : Nat
  /-- Whether some run of it has begun. -/
  started : Bool
  /-- Whether a first list was stored and delivered. -/
  synced : Bool
  fanOuts : List (FanOut H)
  /-- What is being delivered, the innermost delivery first. -/
  deliveries : List (Delivery α H)

namespace Informer

variable {α H : Type}

def new : Informer α H where
  store := ∅
  registrations := []
  nextId := 0
  started := false
  synced := false
  fanOuts := []
  deliveries := []

instance : Inhabited (Informer α H) := ⟨new⟩

/-! ## Deliveries -/

/-- Every event for every target, event by event. -/
def callsOf (events : List (Event α)) (targets : List (Target H)) : List (Call α H) :=
  events.flatMap fun e => targets.map fun t => ⟨t, e⟩

/-- Begins a delivery inside those under way. -/
def deliver (inf : Informer α H) (calls : List (Call α H)) (completesSync : Bool) :
    Informer α H :=
  { inf with deliveries := ⟨calls, completesSync⟩ :: inf.deliveries }

/-- Begins a batch: its events for all that are registered now. -/
def beginBatch (inf : Informer α H) (events : List (Event α)) (completesSync : Bool) :
    Informer α H :=
  inf.deliver (callsOf events (inf.registrations.map Registration.target)) completesSync

/-- The next call of the innermost delivery. -/
def next? (inf : Informer α H) : Option (Call α H × Informer α H) :=
  match inf.deliveries with
  | ⟨c :: cs, completes⟩ :: ds => some (c, { inf with deliveries := ⟨cs, completes⟩ :: ds })
  | _ => none

/-- Ends the innermost delivery. -/
def close (inf : Informer α H) : Informer α H :=
  match inf.deliveries with
  | d :: ds => { inf with deliveries := ds, synced := inf.synced || d.completesSync }
  | [] => inf

/-- Ends all deliveries where they are. -/
def abandon (inf : Informer α H) : Informer α H := { inf with deliveries := [] }

/-- The number of calls that are left in the innermost delivery. -/
def pendingCalls (inf : Informer α H) : Nat :=
  match inf.deliveries with
  | d :: _ => d.pending.length
  | [] => 0

/-! ## Batches -/

/-- A full list: the store is made equal to it.  The second part is the number of events. -/
def relist [Object α] (inf : Informer α H) (items : List α) : Informer α H × Nat :=
  let (store, events) := inf.store.replace items !inf.synced
  ({ inf with store } |>.beginBatch events !inf.synced, events.length)

/-- The event of a change, and the store after it.  The deletion of an unknown key is none. -/
def relate [Object α] (store : Store α) : Change α → Store α × Option (Event α)
  | .added a | .modified a =>
    match store.upsert a with
    | (store, some old) => (store, some (.update old a))
    | (store, none) => (store, some (.add a false))
  | .deleted a =>
    match store.delete (keyOf a) with
    | (store, some _) => (store, some (.delete a))
    | (store, none) => (store, none)

/-- A change at the source.  The second part is its event. -/
def change [Object α] (inf : Informer α H) (c : Change α) : Informer α H × Option (Event α) :=
  match relate inf.store c with
  | (store, some e) => ({ inf with store } |>.beginBatch [e] false, some e)
  | (store, none) => ({ inf with store }, none)

/-- Everything stored once more, each item as an update of itself.  The second part is the number
of events. -/
def resync (inf : Informer α H) : Informer α H × Nat :=
  let events := inf.store.list.map fun a => Event.update a a
  (inf.beginBatch events false, events.length)

/-! ## Registrations -/

/-- Registers a target and begins its replay.  The second part is the registration. -/
def register (inf : Informer α H) (target : Target H) : Informer α H × Nat :=
  ({ inf with
      registrations := inf.registrations ++ [Registration.mk inf.nextId target]
      nextId := inf.nextId + 1
    } |>.deliver (callsOf (Event.replay inf.store.list) [target]) false, inf.nextId)

/-- Removes a registration.  The second part says whether it was there. -/
def unregister (inf : Informer α H) (id : Nat) : Informer α H × Bool :=
  ({ inf with registrations := inf.registrations.filter fun r => r.id != id },
    inf.registrations.any fun r => r.id == id)

/-- How an informer is reached: as itself, or through a dynamic informer on top of it. -/
inductive Access where
  | direct
  | dynamic
  deriving DecidableEq, Repr, Inhabited

/-- Registers a handler.  A dynamic informer has one registration and takes no other. -/
def addHandler (inf : Informer α H) (a : Access) (h : H) : Except Error (Informer α H × Nat) :=
  match a with
  | .direct => .ok (inf.register (.handler h))
  | .dynamic => .error .staticHandlerRejected

/-- Removes a registration; none of it was made through a dynamic informer. -/
def removeHandler (inf : Informer α H) (a : Access) (id : Nat) : Informer α H × Bool :=
  match a with
  | .direct => inf.unregister id
  | .dynamic => (inf, false)

/-! ## Fan-outs -/

/-- Adds a fan-out and begins the replay to it, which reaches nobody yet.  The second part is its
index.  A dynamic informer cannot be the source of another one. -/
def addFanOut (inf : Informer α H) (a : Access) : Except Error (Informer α H × Nat) :=
  match a with
  | .direct =>
    let index := inf.fanOuts.length
    let (inf', id) := inf.register (.fanOut index)
    .ok ({ inf' with fanOuts := inf'.fanOuts ++ [.new id] }, index)
  | .dynamic => .error .staticHandlerRejected

/-- The handlers of a fan-out in the order of their keys. -/
def handlersOf (inf : Informer α H) (index : Nat) : List H :=
  match inf.fanOuts[index]? with
  | some f => f.handlers.values
  | none => []

/-- Begins the delivery of an event to all handlers of a fan-out, in the order of their keys. -/
def dispatch (inf : Informer α H) (index : Nat) (e : Event α) : Informer α H :=
  inf.deliver (callsOf [e] ((inf.handlersOf index).map .handler)) false

/-- Adds a handler to a fan-out and begins its replay.  The second part is its key. -/
def join? (inf : Informer α H) (index : Nat) (name : String) (h : H) :
    Option (Informer α H × HandlerKey) :=
  inf.fanOuts[index]?.map fun f =>
    let (f, key) := f.join name h
    ({ inf with fanOuts := inf.fanOuts.set index f } |>.deliver
      (callsOf (Event.replay inf.store.list) [.handler h]) false, key)

/-- Takes a handler out of a fan-out.  The second part says whether it was there. -/
def leave (inf : Informer α H) (index : Nat) (key : HandlerKey) : Informer α H × Bool :=
  match inf.fanOuts[index]? with
  | some f =>
    let (f, found) := f.leave key
    ({ inf with fanOuts := inf.fanOuts.set index f }, found)
  | none => (inf, false)

/-- The keys of a fan-out's handlers in the order in which they are called. -/
def handlerKeys (inf : Informer α H) (index : Nat) : List HandlerKey :=
  match inf.fanOuts[index]? with
  | some f => f.handlers.keys
  | none => []

/-- Removes a fan-out's registration. -/
def dropFanOut (inf : Informer α H) (index : Nat) : Informer α H :=
  match inf.fanOuts[index]? with
  | some f => (inf.unregister f.registration).1
  | none => inf

/-! ## Running -/

/-- Marks the informer as running.  The second part says whether it had not been run before. -/
def start (inf : Informer α H) : Informer α H × Bool :=
  ({ inf with started := true }, !inf.started)

/-! ## What is said -/

/-- A batch goes out. -/
def logBatch (inf : Informer α H) (resource : String) (events : Nat) : LogRecord :=
  .ofInformer resource .trace "Distribute events"
    [("events", toString events), ("handlers", toString inf.registrations.length)]

/-- The first list was stored and delivered. -/
def logSynced (inf : Informer α H) (resource : String) : LogRecord :=
  .ofInformer resource .info "Informer synced" [("items", toString inf.store.size)]

/-- A change became an event, or was a deletion of something unknown. -/
def logChange [Object α] (resource : String) (c : Change α) : Option (Event α) → LogRecord
  | some e => .ofInformer resource .trace "Watch event" [("kind", e.kind.text)]
  | none => .ofInformer resource .trace "Delete for unknown key ignored" [("key", keyOf c.item)]

def logResync (resource : String) (events : Nat) : LogRecord :=
  .ofInformer resource .debug "Resync" [("items", toString events)]

/-- The informer in a few words. -/
def describe (inf : Informer α H) (resource : String) : String :=
  Text.openRecord "SharedInformer"
    [("resource", Text.quoted resource), ("store", inf.store.describe),
      ("handlers", toString inf.registrations.length), ("synced", Text.truth inf.synced)]

/-- A fan-out in a few words. -/
def describeFanOut (inf : Informer α H) (resource : String) (index : Nat) (stopped : Bool) :
    String :=
  Text.record "DynamicInformer"
    [("resource", Text.quoted resource),
      ("handlers", Text.bracketed ((inf.handlerKeys index).map HandlerKey.describe)),
      ("stopped", Text.truth stopped)]

end Informer

end InformerHub
