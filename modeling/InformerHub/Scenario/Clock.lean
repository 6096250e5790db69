import InformerHub.Scenario.Turn.Barrier
import InformerHub.Scenario.Turn.Connection
import InformerHub.Scenario.Turn.Informer

/-!
# The clock

Tasks take turns in the order in which they were given something to do, and each goes on as long as
there is something to do for it.  When no task has anything to do, the clock moves to the next time
that some task waits for.

The loops here end when everything waits.  Nothing but the scenario itself bounds their length, so
they take the number of rounds to make; `patience` is more than any recorded run needs.
-/

namespace InformerHub.Scenario.SceneM

/-- How many rounds the loops of the clock make at most. -/
def patience : Nat := 1000000000

/-- How many units a task may spend in a row before the others have their turns. -/
def fullShare : Nat := 128

/-- How often in a row the tasks that have had their share go on while no time passes. -/
def laps : Nat := 64

/-- A turn of a task.  The result says whether there was anything to do. -/
def turn (react : Step → SceneM Reply) (t : Nat) : SceneM Bool := do
  match (← row Scene.tasks t).activity with
  | .informing r => informerTurn react t r
  | .forgetting i fanOut key cancel scope =>
    if (← isCancelled cancel) || (← isCancelled scope) then
      let (inf, found) := (← informer i).leave fanOut key
      setInformer i inf
      if found then
        log (.ofFanOut (← row Scene.informers i).resource key.text .debug
          "Dynamic handler removed" [])
      finish t (.outcome .finished)
      return true
    else return false
  | .awaitingSync f token wait =>
    match wait with
    | .answered name status =>
      finish t (.status name status)
      return true
    | _ =>
      if wait.begun && (← exhausted) then
        defer t
        return false
      match ← cacheTurn token wait with
      | none => return false
      | some wait =>
        setActivity t (.awaitingSync f token wait)
        requeue t
        return true
  | .awaitingStop drain =>
    if drain.isOver then
      finish t .stopped
      return true
    else
      match ← drainTurn drain with
      | none => return false
      | some drain =>
        setActivity t (.awaitingStop drain)
        return true
  | .beating r => barrierTurn t r
  | .awaitingReady b token =>
    match (← row Scene.barriers b).barrier.awaitReady? (← isCancelled token) false with
    | some ready =>
      finish t (.truth ready)
      return true
    | none => return false
  | .connecting r => connectionTurn t r
  | .controlling k shutdown workers phase => controllerTurn t k shutdown workers phase
  | .reporting hook readiness c =>
    if c.endsPause (← instant) && (← exhausted) then
      defer t
      return false
    match ← hookTurn hook readiness c with
    | none => return false
    | some .returned =>
      finish t (.outcome .finished)
      return true
    | some c =>
      setActivity t (.reporting hook readiness c)
      return true
  | .ended _ => return false

/-- The end of a task by a panic. -/
def collapse (t : Nat) (text : String) : SceneM Unit := do
  abandonDeliveries
  if let .informing r := (← row Scene.tasks t).activity then leaveFeed r
  finish t (.outcome (.panicked text))

/-- The reactions of handlers inside a task. -/
def react (step : Step) : SceneM Reply := do perform (← get).nesting step

/-- Turns of one task until it waits. -/
def goOn (t : Nat) : Nat → SceneM Unit
  | 0 => pure ()
  | n + 1 => do
    let active ← tryCatch (turn react t) fun text => do
      collapse t text
      return false
    if active then goOn t n

/-- Gives a task a full share, and turns until it waits or has had that.  A task that waits for the
first time gets a place in line. -/
def runTask (t : Nat) : SceneM Unit := do
  modify fun s => { s with share := fullShare }
  goOn t patience
  let s ← get
  if (s.tasks.getD t default).since.isNone && !s.deferred.contains t then requeue t

/-- Turns of all tasks until none is left in the queue. -/
def emptyQueue : Nat → SceneM Unit
  | 0 => pure ()
  | n + 1 => do
    match (← get).queue with
    | [] => pure ()
    | t :: rest =>
      modify fun s => { s with queue := rest }
      runTask t
      emptyQueue n

/-- Turns of all tasks until all of them wait, with at most `n` more shares for each of them. -/
def settleWithin : Nat → SceneM Unit
  | 0 => emptyQueue patience
  | n + 1 => do
    emptyQueue patience
    if !(← get).deferred.isEmpty then
      modify fun s => { s with queue := s.deferred, deferred := [] }
      settleWithin n

def settle : SceneM Unit := settleWithin laps

/-- The next time at which some task goes on by itself.  The clock shows whole milliseconds, so
what is due within one waits for its end. -/
def nextDue : SceneM (Option Nat) := do
  let alarms := (← get).tasks.toList.flatMap fun t => t.activity.alarms
  return (alarms.map Alarm.due).min?.map Duration.ceilMillis

/-- The place at which a task stands among those that go on by themselves at `now`, if it does. -/
def placeAt? (now : Nat) (a : Activity) : Option Nat :=
  let due := a.alarms.filter fun alarm => decide (alarm.due ≤ now)
  (due.map Alarm.place).min?.map fun place => if a.isForeground then 0 else place + 1

/-- Moves the clock to a time, and gives turns to the tasks that waited for it. -/
def strike (time : Nat) : SceneM Unit := do
  modify fun s => { s with now := max s.now time }
  let now ← instant
  let due := (← get).tasks.toList.zipIdx.filterMap fun (k, t) =>
    (placeAt? now k.activity).map fun place => (place, t)
  ((due.mergeSort fun a b => decide (a.1 ≤ b.1)).map Prod.snd).forM enqueue
  settle

/-- Moves the clock to the next time at which something is due, if that comes before the target.
Time does not pass while some task has something to do.  The result says whether anything was
done. -/
def moveOn (target : Option Nat) : SceneM Bool := do
  if !(← get).deferred.isEmpty then
    settle
    return true
  match ← nextDue with
  | none => return false
  | some due =>
    if target.all fun t => due ≤ t then
      strike due
      return true
    else return false

def advanceWithin (target : Nat) : Nat → SceneM Unit
  | 0 => pure ()
  | n + 1 => do if ← moveOn (some target) then advanceWithin target n

/-- Lets time pass up to a time.  What is due then is done. -/
def advance (target : Nat) : SceneM Unit := do
  advanceWithin target patience
  modify fun s => { s with now := target }

def awaitWithin (t : Nat) : Nat → SceneM Unit
  | 0 => pure ()
  | n + 1 => do
    if (← endingOf t).isNone then
      if ← moveOn none then awaitWithin t n

/-- Lets time pass until a task has ended. -/
def await (t : Nat) : SceneM Unit := awaitWithin t patience

end InformerHub.Scenario.SceneM
