import InformerHub.Backoff
import InformerHub.Event
import InformerHub.Log
import InformerHub.Outcome
import InformerHub.Ticker

/-!
# The list and watch loop

A reflector repeats rounds: list everything, open a watch at the version of the list, take changes
from the watch until it ends.  Rounds that fail are counted; the count decides how long to wait
before the next list and when a policy with a limit gives up.  A watch that closes after it
delivered something clears the count.

The loop is a state machine.  `phase` says what it waits for, a `Signal` what came, and `step` what
follows: the next phase, and the effects to carry out on the way there.
-/

namespace InformerHub

namespace Reflector

/-- What the loop waits for. -/
inductive Phase where
  /-- A pause before the next list, in nanoseconds. -/
  | backingOff (delay : Nat)
  | listing
  /-- A watch that starts at a version. -/
  | opening (version : String)
  /-- The next change.  `received` tells whether there was one since the watch was opened. -/
  | watching (received : Bool)
  | ended (outcome : Outcome)
  deriving DecidableEq, Repr, Inhabited

/-- What the loop is told. -/
inductive Signal (α : Type) where
  | shutdown
  | backoffOver
  | listed (items : List α) (version : String)
  | listFailed (error : Error)
  | listTimedOut
  | opened
  | openFailed (error : Error)
  | changed (change : Change α)
  | streamFailed (error : Error)
  | streamEnded
  /-- A resync tick, taken at an instant. -/
  | resyncDue (now : Nat)
  deriving Repr

/-- What the loop is due to take. -/
inductive Cue (α : Type) where
  /-- The shutdown, or something that a timer brings. -/
  | own (signal : Signal α)
  /-- What has come from the source. -/
  | arrival
  deriving Repr

/-- What the loop wants done. -/
inductive Effect (α : Type) where
  | log (record : LogRecord)
  | relist (items : List α)
  | change (change : Change α)
  | resync
  deriving Repr

/-- The failure count is kept in 32 bits. -/
def maxFailures : Nat := UInt32.size - 1

end Reflector

structure Reflector where
  resource : String
  policy : BackoffPolicy
  /-- Failed rounds since the last watch that closed after delivering something. -/
  failures : Nat
  /-- When the next resync is due, if there are any. -/
  resync : Option Ticker
  phase : Reflector.Phase
  deriving Repr

namespace Reflector

variable {α : Type}

/-! ## What is logged -/

def record (r : Reflector) (level : LogLevel) (message : String)
    (fields : List (String × String)) : LogRecord :=
  .ofInformer r.resource level message fields

def logStopped (r : Reflector) : LogRecord := r.record .info "Informer stopped" []

def logFailure (r : Reflector) (message : String) (e : Error) : LogRecord :=
  r.record .warn message [("error", e.message)]

/-! ## Transitions -/

/-- The beginning of a round: a list at once, a pause first if rounds have failed, or the end if
too many have. -/
def nextRound (r : Reflector) : Reflector × List (Effect α) :=
  if r.failures = 0 then ({ r with phase := .listing }, [])
  else if r.policy.exceeded r.failures then
    ({ r with phase := .ended (.failed (.informerGaveUp r.resource r.failures)) }, [])
  else
    let delay := r.policy.delayFor (r.failures - 1)
    ({ r with phase := .backingOff delay },
      [.log (r.record .debug "Backing off before relist"
        [("delay", Duration.text delay), ("failures", toString r.failures)])])

/-- One more failed round.  A count that does not fit any more ends the loop by a panic. -/
def roundFailed (r : Reflector) (record : LogRecord) : Reflector × List (Effect α) :=
  if r.failures < maxFailures then
    let (r, effects) := nextRound { r with failures := r.failures + 1 }
    (r, .log record :: effects)
  else ({ r with phase := .ended .addOverflow }, [.log record])

/-- What is wrong with a period of resyncs: its end cannot be told, or it has no length. -/
def periodFault? (period now : Nat) : Option Outcome :=
  if Duration.lastInstant ≤ now + period then some .instantOverflow
  else if period = 0 then some .zeroPeriod
  else none

/-- A loop before its first list.  A faulty period of resyncs ends it at once. -/
def begin (resource : String) (policy : BackoffPolicy) (period : Option Nat) (now : Nat) :
    Reflector × List (Effect α) :=
  let r : Reflector := {
    resource, policy
    failures := 0
    resync := period.map fun p => ⟨now + p, p⟩
    phase := match period.bind fun p => periodFault? p now with
      | some fault => .ended fault
      | none => .listing }
  (r, [.log (r.record .info "Starting informer" [])])

/-- What the loop is due to take at `now`, if anything, given whether the shutdown has come, whether
the pause or the time for a list is over, and whether there is something from the source.  The
shutdown comes before anything else, but for the end of a pause: if both are there, it depends on
which of them is looked at first.  A resync comes before a change, and an answer before the end of
its time. -/
def due? (r : Reflector) (now : Nat) (shutDown shutDownFirst timeUp arrived : Bool) :
    Option (Cue α) :=
  match r.phase with
  | .backingOff _ =>
    if timeUp && !(shutDown && shutDownFirst) then some (.own .backoffOver)
    else if shutDown then some (.own .shutdown)
    else none
  | .listing =>
    if shutDown then some (.own .shutdown)
    else if arrived then some .arrival
    else if timeUp then some (.own .listTimedOut)
    else none
  | .opening _ =>
    if shutDown then some (.own .shutdown)
    else if arrived then some .arrival
    else none
  | .watching _ =>
    if shutDown then some (.own .shutdown)
    else if r.resync.any fun t => t.due ≤ now then some (.own (.resyncDue now))
    else if arrived then some .arrival
    else none
  | .ended _ => none

/-- The loop after a signal.  A signal that the phase does not wait for changes nothing. -/
def step (r : Reflector) (signal : Signal α) : Reflector × List (Effect α) :=
  match r.phase, signal with
  | .ended _, _ => (r, [])
  | _, .shutdown => ({ r with phase := .ended .finished }, [.log r.logStopped])
  | .backingOff _, .backoffOver => ({ r with phase := .listing }, [])
  | .listing, .listed items version =>
    ({ r with phase := .opening version }, [.relist items])
  | .listing, .listFailed e => r.roundFailed (r.logFailure "List failed" e)
  | .listing, .listTimedOut =>
    r.roundFailed
      (r.record .warn "List timed out" [("timeout", Duration.text r.policy.timeout)])
  | .opening _, .opened => ({ r with phase := .watching false }, [])
  | .opening _, .openFailed e => r.roundFailed (r.logFailure "Watch failed" e)
  | .watching _, .changed c => ({ r with phase := .watching true }, [.change c])
  | .watching _, .streamFailed e =>
    r.roundFailed (r.logFailure "Watch stream failed, relisting" e)
  | .watching received, .streamEnded =>
    let record := r.record .debug "Watch stream closed, relisting" []
    if received then
      let (r, effects) := nextRound { r with failures := 0 }
      (r, .log record :: effects)
    else r.roundFailed record
  | .watching _, .resyncDue now =>
    ({ r with resync := r.resync.map fun t => t.take now }, [.resync])
  | _, _ => (r, [])

end Reflector

end InformerHub
