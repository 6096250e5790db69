import InformerHub.Duration

/-!
# Timestamps

Points in calendar time, as nanoseconds since the epoch.
-/

namespace InformerHub

structure Timestamp where
  sinceEpoch : Nat
  deriving DecidableEq, Repr, Inhabited

namespace Timestamp

def seconds (t : Timestamp) : Nat := t.sinceEpoch / Duration.nanosPerSecond

/-- The part of a second behind the whole ones, in nanoseconds. -/
def subsecond (t : Timestamp) : Nat := t.sinceEpoch % Duration.nanosPerSecond

/-- The greatest number of whole seconds that a timestamp can hold. -/
def maxSeconds : Nat := UInt64.size / 2 - 1

/-- The timestamp of some seconds and nanoseconds; whole seconds among the nanoseconds carry. -/
def ofParts? (seconds nanos : Nat) : Option Timestamp :=
  let t : Timestamp := ⟨Duration.ofSeconds seconds + nanos⟩
  if t.seconds ≤ maxSeconds then some t else none

end Timestamp

end InformerHub
