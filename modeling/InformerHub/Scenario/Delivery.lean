import InformerHub.Event.Filter
import InformerHub.Scenario.SceneM

/-!
# Deliveries

How events reach the handlers of a scenario.  `tell` gives one event to one handler: the handler
records it, and may panic or take steps of its own.  `drain` makes all calls of an informer's
innermost delivery; a call for a fan-out is a delivery of its own to the handlers behind it.

Steps that are taken inside a callback are carried out by `react`, which the caller supplies.
-/

namespace InformerHub.Scenario.SceneM

/-- The event as it is behind some filters, the outermost first. -/
def behind (filters : List Predicate) (e : Event Obj) : Option (Event Obj) :=
  filters.foldl (fun e p => e.bind (Event.filtered p.accepts)) (some e)

/-- Gives an event to a recorder. -/
def note (react : Step → SceneM Reply) (recorder : Nat) (e : Event Obj) : SceneM Unit := do
  let r ← row Scene.recorders recorder
  if r.script.kinds.contains e.kind then
    let tally := r.tally.more e.kind
    updateRecorder recorder fun r => { r with tally, heard := e :: r.heard }
    record (.handlers r.script.channel) (.event r.name e)
    if r.script.panicOn = some e.kind then throw r.script.message
    let now := r.script.reactions.filter fun x =>
      x.kind == e.kind && x.nth == tally.count e.kind
    now.forM fun x => do
      let reply ← react x.step
      record (.handlers r.script.channel) (.reaction r.name reply)

/-- Gives an event to a handler. -/
def tell (react : Step → SceneM Reply) (h : Handler) (e : Event Obj) : SceneM Unit :=
  match behind h.filters e with
  | some e => note react h.recorder e
  | none => pure ()

/-- Makes the next `n` calls of an informer's innermost delivery. -/
def makeCalls (call : Target Handler → Event Obj → SceneM Unit) (i : Nat) : Nat → SceneM Unit
  | 0 => pure ()
  | n + 1 => do
    match (← informer i).next? with
    | some (c, inf) =>
      setInformer i inf
      call c.target c.event
      makeCalls call i n
    | none => pure ()

/-- Makes all calls of an informer's innermost delivery and ends it. -/
def drainWith (call : Target Handler → Event Obj → SceneM Unit) (i : Nat) : SceneM Unit := do
  makeCalls call i (← informer i).pendingCalls
  setInformer i (← informer i).close

/-- Calls a handler. -/
def callHandler (react : Step → SceneM Reply) : Target Handler → Event Obj → SceneM Unit
  | .handler h, e => tell react h e
  | .fanOut _, _ => pure ()

/-- Calls a handler of an informer, or all handlers behind one of its fan-outs. -/
def callTarget (react : Step → SceneM Reply) (i : Nat) : Target Handler → Event Obj → SceneM Unit
  | .handler h, e => tell react h e
  | .fanOut k, e => do
    setInformer i ((← informer i).dispatch k e)
    drainWith (callHandler react) i

/-- Carries out an informer's innermost delivery. -/
def drain (react : Step → SceneM Reply) (i : Nat) : SceneM Unit :=
  drainWith (callTarget react i) i

/-- Builds a handler. -/
def build (name : String) (spec : HandlerSpec Step) : SceneM Handler := do
  if spec.script.announced then
    record (.handlers "debug") (.text (describeCallbacks spec.script.kinds))
  let s ← get
  set { s with recorders := s.recorders.push ⟨name, spec.script, ⟨0, 0, 0⟩, []⟩ }
  return ⟨spec.filters, s.recorders.size⟩

end InformerHub.Scenario.SceneM
