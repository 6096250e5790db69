import InformerHub.Backoff
import InformerHub.Log
import InformerHub.Outcome

/-!
# Attempts with a limit and growing pauses

An operation is attempted until it succeeds or the policy allows no further attempt.  Every
attempt is cut off at the policy's timeout; between attempts there is a pause.
-/

namespace InformerHub

namespace Retry

inductive Phase where
  | attempting
  /-- A pause before the next attempt, in nanoseconds. -/
  | pausing (delay : Nat)
  | ended (outcome : Outcome)
  deriving DecidableEq, Repr, Inhabited

inductive Signal where
  | succeeded
  | failed (error : Error)
  | timedOut
  | pauseOver
  deriving DecidableEq, Repr

end Retry

structure Retry where
  policy : BackoffPolicy
  /-- Attempts that failed or timed out. -/
  failures : Nat
  phase : Retry.Phase
  deriving DecidableEq, Repr

namespace Retry

def begin (policy : BackoffPolicy) : Retry := ⟨policy, 0, .attempting⟩

def record (message : String) (fields : List (String × String)) : LogRecord :=
  ⟨.task, .warn, message, fields⟩

/-- The error of the whole for the last attempt's: many timeouts are one exhaustion. -/
def lastError (attempts : Nat) : Error → Error
  | .timeout _ => .attemptsTimedOut attempts
  | e => e

/-- The pause after `n` failures.  Failures are counted in 32 bits here, and the count before the
first one has no pause. -/
def pauseAfter (policy : BackoffPolicy) (n : Nat) : Phase :=
  if n % UInt32.size = 0 then .ended .subtractOverflow
  else .pausing (policy.delayFor (n % UInt32.size - 1))

/-- One more attempt without success. -/
def attemptFailed (r : Retry) (e : Error) : Retry × List LogRecord :=
  let n := r.failures + 1
  if r.policy.exceeded (n + 1) then
    ({ r with failures := n, phase := .ended (.failed (lastError n e)) },
      [record ("Task failed after " ++ toString n ++ " retries") []])
  else ({ r with failures := n, phase := pauseAfter r.policy n }, [])

/-- What follows a signal.  One that the phase does not wait for changes nothing. -/
def step (r : Retry) (signal : Signal) : Retry × List LogRecord :=
  match r.phase, signal with
  | .attempting, .succeeded => ({ r with phase := .ended .finished }, [])
  | .attempting, .failed e =>
    let (r', logs) := r.attemptFailed e
    (r', record "task failed"
      [("attempt", toString (r.failures + 1)), ("error", e.message)] :: logs)
  | .attempting, .timedOut =>
    let (r', logs) := r.attemptFailed (.timeout r.policy.timeout)
    (r', record "task timed out"
      [("attempt", toString (r.failures + 1)),
        ("timeout", Duration.text r.policy.timeout)] :: logs)
  | .pausing _, .pauseOver => ({ r with phase := .attempting }, [])
  | _, _ => (r, [])

end Retry

end InformerHub
