import InformerHub.Log
import InformerHub.Outcome
import InformerHub.Text.Quoted
import InformerHub.Text.Shape

/-!
# Connections

A connection runs its factories and its barrier, starts the controllers that need synced caches
once the barrier has been ready, and after the shutdown waits for every task it started: the
heartbeat, the controllers in order, the factories.

Like the reflector it is a state machine; the tasks themselves belong to whoever runs it.
-/

namespace InformerHub

namespace Connection

inductive Phase where
  /-- Until the barrier has been ready. -/
  | gated
  /-- Until the shutdown. -/
  | running
  | joiningHeartbeat
  | joiningControllers (remaining : Nat)
  | stoppingFactories
  | ended (outcome : Outcome)
  deriving DecidableEq, Repr, Inhabited

inductive Signal where
  /-- The barrier has been ready. -/
  | ready
  | shutdown
  | heartbeatEnded (outcome : Outcome)
  /-- The next controller in order has ended. -/
  | controllerEnded (outcome : Outcome)
  | factoriesStopped
  deriving DecidableEq, Repr

inductive Effect where
  | log (record : LogRecord)
  | startFactories
  | startHeartbeat
  /-- Starts every controller with a number of workers. -/
  | startControllers (workers : Nat)
  deriving DecidableEq, Repr

end Connection

structure Connection where
  secretKey : String
  /-- The number of controllers. -/
  controllers : Nat
  workers : Nat
  /-- How many controllers were started: none or all. -/
  started : Nat
  /-- How the heartbeat ended, once it has. -/
  heartbeat : Outcome
  /-- How the controllers ended, as far as they have been waited for. -/
  controllerEnds : List Outcome
  phase : Connection.Phase
  deriving Repr, Inhabited

namespace Connection

def record (c : Connection) (level : LogLevel) (message : String)
    (fields : List (String × String)) : LogRecord :=
  ⟨.connection, level, message, ("secret_key", c.secretKey) :: fields⟩

/-- The panic text of a task that ended by one. -/
def panicOf : Outcome → Option String
  | .panicked t => some t
  | _ => none

/-- The result of a connection whose heartbeat and controllers ended so.  The first panic in this
order is the error of the whole. -/
def result (heartbeat : Outcome) (controllers : List Outcome) : Outcome :=
  match (heartbeat :: controllers).findSome? panicOf with
  | some t => .failed (.taskPanicked t)
  | none => .finished

/-- A connection with a number of factories and controllers.  Factories and heartbeat start at
once. -/
def begin (secretKey : String) (factories controllers workers : Nat) :
    Connection × List Effect :=
  let c : Connection := {
    secretKey, controllers, workers
    started := 0
    heartbeat := .finished
    controllerEnds := []
    phase := .gated }
  (c, [.log (c.record .info "Starting cluster controller" [("factories", toString factories)]),
    .startFactories, .startHeartbeat])

/-- The wait for `n` more controllers, or for the factories after the last of them. -/
def join (c : Connection) (n : Nat) : Connection :=
  { c with phase := if n = 0 then .stoppingFactories else .joiningControllers n }

/-- What is said when a controller ends: nothing, unless by a panic. -/
def logControllerEnd (c : Connection) (o : Outcome) : List Effect :=
  match panicOf o with
  | some t => [.log (c.record .error "Controller task failed" [("error", Error.panicText t)])]
  | none => []

/-- The signal that a connection is due, if any, given how the wait for the barrier has ended,
whether the shutdown has come, how the heartbeat and the next controller in order have ended, and
whether the factories have stopped. -/
def due? (c : Connection) (gate : Option Bool) (shutDown : Bool)
    (heartbeat controller : Option Outcome) (factoriesStopped : Bool) : Option Signal :=
  match c.phase with
  | .gated => gate.map fun ready => if ready then .ready else .shutdown
  | .running => if shutDown then some .shutdown else none
  | .joiningHeartbeat => heartbeat.map .heartbeatEnded
  | .joiningControllers _ => controller.map .controllerEnded
  | .stoppingFactories => if factoriesStopped then some .factoriesStopped else none
  | .ended _ => none

/-- The connection after a signal.  One that the phase does not wait for changes nothing. -/
def step (c : Connection) (signal : Signal) : Connection × List Effect :=
  match c.phase, signal with
  | .gated, .ready =>
    ({ c with phase := .running, started := c.controllers },
      [.log (c.record .info "Informers synced, starting controllers"
        [("controllers", toString c.controllers), ("workers", toString c.workers)]),
        .startControllers c.workers])
  | .gated, .shutdown =>
    ({ c with phase := .running },
      [.log (c.record .warn "Stopped before informers synced, controllers not started" [])])
  | .running, .shutdown => ({ c with phase := .joiningHeartbeat }, [])
  | .joiningHeartbeat, .heartbeatEnded o => (join { c with heartbeat := o } c.started, [])
  | .joiningControllers n, .controllerEnded o =>
    (join { c with controllerEnds := c.controllerEnds ++ [o] } (n - 1), c.logControllerEnd o)
  | .stoppingFactories, .factoriesStopped =>
    ({ c with phase := .ended (result c.heartbeat c.controllerEnds) },
      [.log (c.record .info "Cluster controller stopped" [])])
  | _, _ => (c, [])

/-- A connection in a few words, given its factories and its barrier in theirs. -/
def describe (secretKey : String) (factories : List String) (barrier : String)
    (controllers : Nat) : String :=
  Text.record "ClusterController"
    [("consumer_secret_ref_key", Text.quoted secretKey), ("factories", Text.bracketed factories),
      ("barrier", barrier), ("controllers", toString controllers)]

end Connection

end InformerHub
