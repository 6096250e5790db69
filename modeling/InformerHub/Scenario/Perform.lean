import InformerHub.Scenario.Act

/-!
# Carrying out steps

A step that builds a handler may call it, and the handler's reactions are steps again.
`SceneM.perform` takes the depth to which it follows them.  The calls in a step reach only the
handler that it builds, so its own depth is enough.
-/

namespace InformerHub.Scenario

namespace SceneM

/-- Registers a handler and replays what is stored. -/
def addHandler (react : Step → SceneM Reply) (on name : String) (spec : HandlerSpec Step) :
    SceneM Reply :=
  onItems on fun i access => do
    let h ← build name spec
    match (← informer i).addHandler access h with
    | .error e => return .failed e
    | .ok (inf, r) =>
      setInformer i inf
      drain react i
      discard (introduce name (.registration r))
      return .registered r

/-- Does something with a dynamic informer, which stays in use until the end of that. -/
def during (d : Nat) (f : SceneM Reply) : SceneM Reply := do
  let leave : SceneM Unit := do
    modify fun s => { s with joining := s.joining.erase d }
    dropDynamic d
    releaseTokens
  modify fun s => { s with joining := d :: s.joining }
  let reply ← tryCatch f fun text => do
    leave
    throw text
  leave
  return reply

/-- Adds a handler to a dynamic informer until a token is cancelled, and replays what is stored. -/
def joinDynamic (react : Step → SceneM Reply) (d : DynamicInformer) (cancel : Nat)
    (name handler : String) (spec : HandlerSpec Step) (inside : Bool) : SceneM Reply := do
  let h ← build handler spec
  let u ← row Scene.informers d.informer
  if let some refusal := Refusal.find? (← isCancelled d.scope) (← isCancelled cancel) inside then
    logFrom inside (refusal.record u.resource name)
    return .nothing
  match u.informer.join? d.fanOut name h with
  | none => return .nothing
  | some (inf, key) =>
    log (.ofFanOut u.resource key.text .debug "Dynamic handler registered" [])
    discard (spawn none (.forgetting d.informer d.fanOut key cancel d.scope))
    log (.ofFanOut u.resource key.text .trace "Replaying current items"
      [("items", toString inf.store.size)])
    setInformer d.informer inf
    drain react d.informer
    return .joined key

/-- Adds a handler to the dynamic informer of a name until the token of a name is cancelled. -/
def joinFanOut (react : Step → SceneM Reply) (id token name handler : String)
    (spec : HandlerSpec Step) (inside : Bool) : SceneM Reply := do
  let d ← findDynamic id
  let cancel ← findToken token
  during d do
    joinDynamic react (← row Scene.dynamics d) cancel name handler spec inside

/-- Carries out a step, following reactions down to a depth. -/
def perform : Nat → Step → SceneM Reply
  | 0, _ => return .nothing
  | depth + 1, step =>
    match step with
    | .act a => act a
    | .addHandler on name spec => addHandler (perform depth) on name spec
    | .joinFanOut id token name handler spec inside =>
      joinFanOut (perform depth) id token name handler spec inside
    | .handle name spec events => do
      let h ← build name spec
      events.forM fun e => tell (perform depth) h e
      return .done

end SceneM

end InformerHub.Scenario
