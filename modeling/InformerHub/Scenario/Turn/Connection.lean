import InformerHub.Scenario.Act

/-!
# The turns of a connection and its controllers

A connection starts its factories and its barrier, starts the controllers once the barrier has been
ready, and after the shutdown waits for all these tasks, one after the other.
-/

namespace InformerHub.Scenario.SceneM

/-! ## Waiting for tasks -/

/-- How a task ended, if it has. -/
def endingOf (t : Nat) : SceneM (Option Ending) := do
  match (← row Scene.tasks t).activity with
  | .ended e => return some e
  | _ => return none

/-- A turn of a wait for factories.  None if there is nothing to do. -/
def drainTurn (d : Drain) : SceneM (Option Drain) := do
  match d.next? with
  | none => return none
  | some (.take f) =>
    let u ← row Scene.factories f
    updateFactory f fun u => { u with tasks := [] }
    return some (d.take u.tasks)
  | some (.join t) =>
    match ← endingOf t with
    | none => return none
    | some e =>
      if let some text := e.panic? then
        log ((← row Scene.factories d.factory).factory.record .error
          "Informer task did not finish cleanly" [("error", Error.panicText text)])
      return some d.join

/-! ## Connections -/

def outcomeOf : Ending → Outcome
  | .outcome o => o
  | _ => .finished

/-- How the first of some tasks ended, if it has. -/
def nextEnding : List Nat → SceneM (Option Ending)
  | [] => return none
  | t :: _ => endingOf t

/-- Carries out an effect of a connection. -/
def carryOutConnection (r : ConnectionRun) : Connection.Effect → SceneM ConnectionRun
  | .log record => do
    log record
    return r
  | .startFactories => do
    (← row Scene.clusters r.cluster).factories.forM fun f => startFactory f r.shutdown
    return r
  | .startHeartbeat => do
    let barrier := (← row Scene.clusters r.cluster).barrier
    let heartbeat ← spawn none (.beating ⟨barrier, r.shutdown, none, [], 0, false, 0, .notBegun⟩)
    return { r with barrier, heartbeat }
  | .startControllers workers => do
    let controllers ← (← row Scene.clusters r.cluster).controllers.mapM fun k =>
      spawn none (.controlling k r.shutdown workers .notBegun)
    return { r with controllers }

/-- A run after a step of its loop. -/
def connect (t : Nat) (r : ConnectionRun) (c : Connection) (effects : List Connection.Effect) :
    SceneM Bool := do
  let r ← effects.foldlM carryOutConnection r
  setActivity t (.connecting { r with loop := some c })
  requeue t
  return true

/-- A turn of a connection.  The result says whether there was anything to do. -/
def connectionTurn (t : Nat) (r : ConnectionRun) : SceneM Bool := do
  let u ← row Scene.clusters r.cluster
  let go (r : ConnectionRun) (c : Connection) (s : Connection.Signal) : SceneM Bool :=
    let (c, effects) := c.step s
    connect t r c effects
  match r.loop with
  | none =>
    let (c, effects) :=
      Connection.begin u.secretKey u.factories.length u.controllers.length u.workers
    connect t { r with drain := .of u.factories } c effects
  | some c =>
    let shutDown ← isCancelled r.shutdown
    let gate := (← row Scene.barriers r.barrier).barrier.awaitReady? shutDown false
    let heartbeat ← endingOf r.heartbeat
    let controller ← nextEnding r.controllers
    match c.due? gate shutDown (heartbeat.map outcomeOf) (controller.map outcomeOf)
        r.drain.isOver, c.phase with
    | some (.controllerEnded o), _ =>
      go { r with controllers := r.controllers.tail } c (.controllerEnded o)
    | some s, _ => go r c s
    | none, .stoppingFactories =>
      match ← drainTurn r.drain with
      | some drain =>
        setActivity t (.connecting { r with drain })
        return true
      | none => return false
    | none, .ended o =>
      finish t (.outcome o)
      return true
    | none, _ => return false

/-! ## Controllers -/

/-- A turn of a controller.  The result says whether there was anything to do. -/
def controllerTurn (t controller shutdown workers : Nat) (phase : ControllerPhase) :
    SceneM Bool := do
  let c ← row Scene.controllers controller
  let goOn (phase : ControllerPhase) : SceneM Bool := do
    setActivity t (.controlling controller shutdown workers phase)
    requeue t
    return true
  let stop : SceneM Bool := do
    finish t (.outcome .finished)
    return true
  match phase with
  | .notBegun =>
    record (.controller c.id) (.controllerStarted workers)
    match c.mode with
    | .panics => throw c.message
    | .returns => stop
    | .waits | .panicsAtStop => goOn .running
  | .running =>
    if ← isCancelled shutdown then
      if c.mode = .panicsAtStop then throw c.message
      goOn (.stopping (← after c.stopDelay))
    else return false
  | .stopping alarm =>
    if alarm.due ≤ (← instant) then
      record (.controller c.id) .controllerStopped
      stop
    else return false

end InformerHub.Scenario.SceneM
