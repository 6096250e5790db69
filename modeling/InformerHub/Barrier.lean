import InformerHub.Duration
import InformerHub.Error
import InformerHub.Log
import InformerHub.Outcome
import InformerHub.Ticker

/-!
# The heartbeat barrier

A connection is ready when all its informers have synced.  On every heartbeat the barrier waits
for them, at most half the interval, publishes the outcome, and reports it to a hook: every time
the wait was in vain, and when it succeeds for the first time or again after that.

`Barrier` is what others see of it, `Heartbeat` the loop, a state machine like the reflector.
-/

namespace InformerHub

inductive BarrierState where
  | initializing
  /-- Waiting until an instant. -/
  | waiting (deadline : Nat)
  | ready
  /-- The last heartbeat waited this long in vain. -/
  | degraded (waited : Nat)
  deriving DecidableEq, Repr, Inhabited

/-- What the hook is told. -/
inductive Readiness where
  | ready
  | degraded (waited : Nat)
  deriving DecidableEq, Repr, Inhabited

structure Barrier where
  /-- In nanoseconds. -/
  interval : Nat
  state : BarrierState
  /-- How many states were published. -/
  published : Nat
  /-- Whether the barrier has been ready at some time. -/
  readyOnce : Bool
  deriving DecidableEq, Repr, Inhabited

namespace Readiness

def text : Readiness → String
  | .ready => "Ready"
  | .degraded d => Text.record "Degraded" [("waited", Duration.text d)]

/-- The state that shows an outcome. -/
def state : Readiness → BarrierState
  | .ready => .ready
  | .degraded d => .degraded d

end Readiness

namespace BarrierState

def text : BarrierState → String
  | .initializing => "Initializing"
  | .waiting d => Text.record "Waiting" [("deadline", Duration.text d)]
  | .ready => "Ready"
  | .degraded d => Text.record "Degraded" [("waited", Duration.text d)]

end BarrierState

namespace Barrier

/-- A barrier with an interval, which must leave time to wait. -/
def new (interval : Nat) : Except Error Barrier :=
  if interval = 0 then
    .error (.config (.message "heartbeat interval must be greater than zero"))
  else .ok ⟨interval, .initializing, 0, false⟩

/-- The longest a heartbeat waits. -/
def syncTimeout (b : Barrier) : Nat := Duration.half b.interval

/-- Shows a state to everybody. -/
def publish (b : Barrier) (s : BarrierState) : Barrier :=
  { b with state := s, published := b.published + 1, readyOnce := b.readyOnce || s == .ready }

/-- How a wait for the first readiness ends, if it is over: true once the barrier has been ready,
false when the wait is cancelled.  If both are so, it depends on which of them is looked at first. -/
def awaitReady? (b : Barrier) (cancelled cancelFirst : Bool) : Option Bool :=
  if b.readyOnce && !(cancelled && cancelFirst) then some true
  else if cancelled then some false
  else none

/-- The barrier in a few words, given the names of those it waits for. -/
def describe (b : Barrier) (waiters : List String) : String :=
  Text.record "HeartbeatBarrier"
    [("waiters", Text.bracketed (waiters.map Text.quoted)),
      ("interval", Duration.text b.interval), ("state", b.state.text)]

end Barrier

namespace Heartbeat

inductive Phase where
  | ticking
  /-- For the informers, until the deadline. -/
  | waiting (deadline : Nat)
  /-- For the hook. -/
  | reporting (readiness : Readiness)
  | ended (outcome : Outcome)
  deriving DecidableEq, Repr, Inhabited

inductive Signal where
  /-- The shutdown came while the loop waited for a tick or the hook. -/
  | shutdown
  | tick (now : Nat)
  /-- All waits are over: the informers that have not synced, and whether the shutdown came. -/
  | answered (pending : List String) (shutDown : Bool)
  | reported
  deriving DecidableEq, Repr

inductive Effect where
  | log (record : LogRecord)
  | publish (state : BarrierState)
  deriving DecidableEq, Repr

end Heartbeat

/-- One run of the barrier. -/
structure Heartbeat where
  ticker : Ticker
  /-- Whether the last outcome was ready. -/
  ready : Bool
  phase : Heartbeat.Phase
  deriving DecidableEq, Repr

namespace Heartbeat

def record (level : LogLevel) (message : String) (fields : List (String × String)) : LogRecord :=
  ⟨.barrier, level, message, fields⟩

def logStopped : LogRecord := record .info "Heartbeat barrier stopped" []

/-- The first tick is due at once. -/
def begin (interval waiters now : Nat) : Heartbeat × List Effect :=
  (⟨⟨now, interval⟩, false, .ticking⟩,
    [.log (record .info "Heartbeat barrier started"
      [("interval", Duration.text interval), ("waiters", toString waiters)])])

/-- The outcome of a wait for at most `timeout`, given what is still pending, and what is said
about it. -/
def verdict (timeout : Nat) (pending : List String) : Readiness × LogRecord :=
  if pending.isEmpty then (.ready, record .debug "All informers synced" [])
  else (.degraded timeout, record .warn "Informers did not sync in time"
    [("timeout", Duration.text timeout),
      ("pending", Text.bracketed ((pending.mergeSort fun a b => decide (a ≤ b)).map Text.quoted))])

/-- The signal that the loop is due at `now`, if any, given whether the shutdown has come, what is
still pending once all waits are over, and whether the hook has returned.  The shutdown comes before
a tick and before the hook; a wait that it cuts short is over first. -/
def due? (h : Heartbeat) (now : Nat) (shutDown : Bool) (answers : Option (List String))
    (returned : Bool) : Option Signal :=
  match h.phase with
  | .ticking =>
    if shutDown then some .shutdown
    else if h.ticker.due ≤ now then some (.tick now)
    else none
  | .waiting _ => answers.map fun pending => .answered pending shutDown
  | .reporting _ =>
    if shutDown then some .shutdown
    else if returned then some .reported
    else none
  | .ended _ => none

/-- Whether the wait of a heartbeat has come to its deadline. -/
def overdue (h : Heartbeat) (now : Nat) : Bool :=
  match h.phase with
  | .waiting deadline => decide (deadline ≤ now)
  | _ => false

/-- The loop after the shutdown. -/
def stop (h : Heartbeat) : Heartbeat := { h with phase := .ended .finished }

/-- The loop after a signal.  A signal that the phase does not wait for changes nothing.  A deadline
that cannot be told ends the loop by a panic. -/
def step (h : Heartbeat) (signal : Signal) : Heartbeat × List Effect :=
  let timeout := Duration.half h.ticker.period
  match h.phase, signal with
  | .ticking, .shutdown => (h.stop, [.log logStopped])
  | .ticking, .tick now =>
    if Duration.lastInstant ≤ now + timeout then
      ({ h with phase := .ended .instantOverflow }, [])
    else
      ({ h with ticker := h.ticker.take now, phase := .waiting (now + timeout) },
        [.publish (.waiting (now + timeout))])
  | .waiting _, .answered pending shutDown =>
    if shutDown then (h.stop, [.log logStopped])
    else
      let (readiness, log) := verdict timeout pending
      let effects := [.log log, .publish readiness.state]
      if readiness = .ready ∧ h.ready then ({ h with phase := .ticking }, effects)
      else
        ({ h with ready := readiness == .ready, phase := .reporting readiness }, effects)
  | .reporting _, .reported => ({ h with phase := .ticking }, [])
  | .reporting _, .shutdown => (h.stop, [.log logStopped])
  | _, _ => (h, [])

end Heartbeat

end InformerHub
