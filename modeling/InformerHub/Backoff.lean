import InformerHub.Duration

/-!
# Backoff policies

How often a failed operation is tried again, how long one attempt may take, and how long to pause
between attempts.  Pauses double from the base and never exceed the cap.
-/

namespace InformerHub

/-- The greatest number of milliseconds that a policy can express. -/
def maxWord : Nat := UInt64.size - 1

structure BackoffPolicy where
  /-- Zero means without limit. -/
  maxRetries : UInt64
  timeoutMs : UInt64
  baseDelayMs : UInt64
  maxDelayMs : UInt64
  deriving DecidableEq, Repr, Inhabited

namespace BackoffPolicy

/-- How long one attempt may take, in nanoseconds. -/
def timeout (p : BackoffPolicy) : Nat := Duration.ofMillis p.timeoutMs.toNat

/-- The power of two by which attempt number `attempt` stretches the base, cut off at 64 bits. -/
def stretch (attempt : Nat) : Nat := if attempt < 64 then Nat.pow 2 attempt else maxWord

/-- The pause before attempt `attempt + 1` in milliseconds. -/
def delayMs (p : BackoffPolicy) (attempt : Nat) : Nat :=
  min (min (p.baseDelayMs.toNat * stretch attempt) maxWord) p.maxDelayMs.toNat

/-- The pause before attempt `attempt + 1`, in nanoseconds. -/
def delayFor (p : BackoffPolicy) (attempt : Nat) : Nat := Duration.ofMillis (p.delayMs attempt)

/-- Whether the policy limits the number of retries, and `n` of them are more than it allows. -/
def exceeded (p : BackoffPolicy) (n : Nat) : Bool :=
  decide (0 < p.maxRetries.toNat ∧ p.maxRetries.toNat < n)

end BackoffPolicy

end InformerHub
