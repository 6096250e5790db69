import InformerHub.Binding.Report
import InformerHub.Connection
import InformerHub.Drain
import InformerHub.Reflector
import InformerHub.Scenario.Reply
import InformerHub.SyncWait

/-!
# Tasks

What runs on its own in a scenario: informers, barriers, connections, controllers, and those that
wait for one of them.  A task is one of the library's state machines, or a few phases of its own,
together with what its present wait needs to know: which call is under way, and until when.

`awaits` says what can make a waiting task go on, `alarms` when time alone does.
-/

namespace InformerHub.Scenario

/-- Who is called when readiness changes: a scripted hook or a reporter, by its number. -/
inductive HookRef where
  | scripted (hook : Nat)
  | reporter (reporter : Nat)
  deriving DecidableEq, Repr, Inhabited

/-- Whom a barrier waits for: a factory or a scripted waiter, by its number. -/
inductive WaiterRef where
  | factory (factory : Nat)
  | scripted (waiter : Nat)
  deriving DecidableEq, Repr, Inhabited

/-- An instant at which a task goes on by itself. -/
structure Alarm where
  due : Nat
  /-- Its place among the alarms of one time. -/
  place : Nat
  deriving DecidableEq, Repr, Inhabited

/-- What an informer waits for. -/
inductive Pending where
  /-- The phase has just begun. -/
  | nothing
  /-- The end of a pause, or the answer to a watch. -/
  | moment (alarm : Alarm)
  /-- The answer to a list, which is due at one instant and cut off at another. -/
  | list (number : Nat) (answer limit : Alarm)
  | feed (feed : Nat)
  deriving DecidableEq, Repr, Inhabited

structure InformerRun where
  informer : Nat
  token : Nat
  /-- The name under which its factory reports a failure. -/
  label : Option String
  /-- None before the first turn. -/
  loop : Option Reflector
  pending : Pending
  /-- The place of the resync that is awaited, once it has one. -/
  resyncPlace : Option Nat
  deriving Inhabited

/-- A call of a hook. -/
inductive HookCall where
  | notBegun
  | sleeping (hook : Nat) (alarm : Alarm)
  /-- A write is under way; it ends at one instant and is cut off at another. -/
  | writing (reporter : Nat) (report : Report Obj) (answer limit : Alarm)
  /-- A pause between two attempts. -/
  | pausing (reporter : Nat) (report : Report Obj) (alarm : Alarm)
  | returned
  deriving Inhabited

/-- A wait for the caches of one waiter. -/
inductive CacheWait where
  | notBegun (waiter : WaiterRef)
  | polling (factory : Nat) (wait : SyncWait) (place : Nat)
  | watching (waiter : Nat)
  /-- Cancelled, with the answer still to come. -/
  | lingering (waiter : Nat) (alarm : Alarm)
  | answered (name : String) (status : List (String × Bool))
  deriving Inhabited

structure BarrierRun where
  barrier : Nat
  shutdown : Nat
  /-- None before the first turn. -/
  beat : Option Heartbeat
  waits : List CacheWait
  /-- Asks the waiters of the present heartbeat to answer. -/
  waitToken : Nat
  /-- Whether the present heartbeat is past its deadline. -/
  overdue : Bool
  /-- The place of the tick or the deadline that is awaited. -/
  place : Nat
  call : HookCall
  deriving Inhabited

structure ConnectionRun where
  cluster : Nat
  shutdown : Nat
  /-- None before the first turn. -/
  loop : Option Connection
  /-- The barrier that the connection waits for. -/
  barrier : Nat
  /-- The task that runs the barrier. -/
  heartbeat : Nat
  /-- The tasks of the controllers that have not been waited for. -/
  controllers : List Nat
  drain : Drain
  deriving Inhabited

inductive ControllerPhase where
  | notBegun
  | running
  /-- After the shutdown. -/
  | stopping (alarm : Alarm)
  deriving DecidableEq, Repr, Inhabited

inductive Activity where
  | informing (run : InformerRun)
  /-- Takes a dynamic handler away once one of two tokens is cancelled. -/
  | forgetting (informer fanOut : Nat) (key : HandlerKey) (cancel scope : Nat)
  | awaitingSync (factory token : Nat) (wait : CacheWait)
  | awaitingStop (drain : Drain)
  | beating (run : BarrierRun)
  | awaitingReady (barrier token : Nat)
  | connecting (run : ConnectionRun)
  | controlling (controller shutdown workers : Nat) (phase : ControllerPhase)
  | reporting (hook : HookRef) (readiness : Readiness) (call : HookCall)
  | ended (ending : Ending)
  deriving Inhabited

structure Task where
  activity : Activity
  /-- The name under which its end is recorded. -/
  name : Option String
  /-- Its place among those that wait for the same thing, once it has begun to wait. -/
  since : Option Nat
  deriving Inhabited

namespace Activity

/-- The tokens that a task holds. -/
def tokens : Activity → List Nat
  | .informing r => [r.token]
  | .forgetting _ _ _ cancel scope => [cancel, scope]
  | .awaitingSync _ token _ => [token]
  | .awaitingStop _ => []
  | .beating r =>
    match r.beat.map Heartbeat.phase with
    | some (.waiting _) => [r.shutdown, r.waitToken]
    | _ => [r.shutdown]
  | .awaitingReady _ token => [token]
  | .connecting r => [r.shutdown]
  | .controlling _ shutdown _ _ => [shutdown]
  | .reporting .. => []
  | .ended _ => []

/-- Whether a task holds a barrier, given the barriers of the clusters. -/
def holdsBarrier (barrierOf : Nat → Nat) (b : Nat) : Activity → Bool
  | .beating r => r.barrier == b
  | .awaitingReady barrier _ => barrier == b
  | .connecting r => barrierOf r.cluster == b
  | _ => false

end Activity

/-- Something that lets waiting tasks go on. -/
inductive Cause where
  | cancelled (token : Nat)
  | fed (feed : Nat)
  | ended (task : Nat)
  | readied (barrier : Nat)
  | statusSet (waiter : Nat)
  deriving DecidableEq, Repr

namespace CacheWait

/-- Whether the first look is over. -/
def begun : CacheWait → Bool
  | .notBegun _ => false
  | _ => true

def awaits (token : Nat) (w : CacheWait) (c : Cause) : Bool :=
  match w with
  | .polling .. => c == .cancelled token
  | .watching waiter => c == .cancelled token || c == .statusSet waiter
  | _ => false

def alarms : CacheWait → List Alarm
  | .polling _ (.pausing due) place => [⟨due, place⟩]
  | .lingering _ alarm => [alarm]
  | _ => []

end CacheWait

namespace HookCall

def alarms : HookCall → List Alarm
  | .sleeping _ alarm => [alarm]
  | .writing _ _ answer limit => [answer, limit]
  | .pausing _ _ alarm => [alarm]
  | _ => []

/-- Whether a pause is over at `now`, which takes a unit of the task's share. -/
def endsPause (now : Nat) : HookCall → Bool
  | .pausing _ _ alarm => decide (alarm.due ≤ now)
  | _ => false

end HookCall

namespace InformerRun

def awaits (r : InformerRun) (c : Cause) : Bool :=
  c == .cancelled r.token ||
    match r.pending with
    | .feed f => c == .fed f
    | _ => false

/-- The next resync as long as a feed is read, and else what is pending. -/
def alarms (r : InformerRun) : List Alarm :=
  match r.pending with
  | .nothing => []
  | .moment alarm => [alarm]
  | .list _ answer limit => [answer, limit]
  | .feed _ =>
    match r.loop.bind Reflector.resync, r.resyncPlace with
    | some ticker, some place => [⟨ticker.due, place⟩]
    | _, _ => []

end InformerRun

namespace BarrierRun

def awaits (r : BarrierRun) (c : Cause) : Bool :=
  match r.beat.map Heartbeat.phase with
  | some (.waiting _) => r.waits.any fun w => w.awaits r.waitToken c
  | _ => c == .cancelled r.shutdown

def alarms (r : BarrierRun) : List Alarm :=
  match r.beat with
  | none => []
  | some beat =>
    match beat.phase with
    | .ticking => [⟨beat.ticker.due, r.place⟩]
    | .waiting deadline =>
      (if r.overdue then [] else [⟨deadline, r.place⟩]) ++ r.waits.flatMap CacheWait.alarms
    | .reporting _ => r.call.alarms
    | .ended _ => []

end BarrierRun

/-- Whether a run that has had its share must let the others go on before it does. -/
def BarrierRun.needsShare (r : BarrierRun) (now : Nat) : Bool :=
  match r.beat.map Heartbeat.phase, r.call with
  | some .ticking, _ => true
  | some (.waiting _), _ => r.waits.any fun
    | .notBegun _ => true
    | .polling .. => true
    | _ => false
  | some (.reporting _), .notBegun => true
  | some (.reporting _), call => call.endsPause now
  | _, _ => false

/-- Whether a wait for factories goes on when something happens. -/
def drainAwaits (d : Drain) (c : Cause) : Bool :=
  match d.next? with
  | some (.join t) => c == .ended t
  | _ => false

def ConnectionRun.awaits (r : ConnectionRun) (c : Cause) : Bool :=
  match r.loop.map Connection.phase with
  | some .gated => c == .cancelled r.shutdown || c == .readied r.barrier
  | some .running => c == .cancelled r.shutdown
  | some .joiningHeartbeat => c == .ended r.heartbeat
  | some (.joiningControllers _) =>
    match r.controllers with
    | t :: _ => c == .ended t
    | [] => false
  | some .stoppingFactories => drainAwaits r.drain c
  | _ => false

namespace Activity

/-- Whether a task that waits goes on when something happens. -/
def awaits (a : Activity) (c : Cause) : Bool :=
  match a with
  | .informing r => r.awaits c
  | .forgetting _ _ _ cancel scope => c == .cancelled cancel || c == .cancelled scope
  | .awaitingSync _ token wait => wait.awaits token c
  | .awaitingStop drain => drainAwaits drain c
  | .beating r => r.awaits c
  | .awaitingReady barrier token => c == .readied barrier || c == .cancelled token
  | .connecting r => r.awaits c
  | .controlling _ shutdown _ phase => phase == .running && c == .cancelled shutdown
  | .reporting .. => false
  | .ended _ => false

/-- The alarms that a task has set. -/
def alarms : Activity → List Alarm
  | .informing r => r.alarms
  | .awaitingSync _ _ wait => wait.alarms
  | .beating r => r.alarms
  | .controlling _ _ _ (.stopping alarm) => [alarm]
  | .reporting _ _ call => call.alarms
  | _ => []

/-- Whether the scenario itself waits for a task, which then comes before all others. -/
def isForeground : Activity → Bool
  | .reporting .. => true
  | _ => false

end Activity

end InformerHub.Scenario
