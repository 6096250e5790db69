/-!
# Time spans and instants

Both are natural numbers of nanoseconds; an instant counts them from the start of the run.  A span
is written in its largest unit that is not zero, with a decimal fraction that has no trailing
zeros: `5s`, `1.5ms`, `0ns`.
-/

namespace InformerHub.Duration

def nanosPerMilli : Nat := 1000000

def nanosPerSecond : Nat := 1000000000

def ofMillis (n : Nat) : Nat := n * nanosPerMilli

def ofSeconds (n : Nat) : Nat := n * nanosPerSecond

/-- Whole seconds and the nanoseconds left over. -/
def parts (d : Nat) : Nat × Nat := (d / nanosPerSecond, d % nanosPerSecond)

/-- Timers that are set for a span reach this far: thirty years of 365 days. -/
def horizon : Nat := ofSeconds (30 * 365 * 24 * 3600)

/-- Instants lie before this.  They are kept in a signed word of seconds, the last day of which is
left to the time before the start. -/
def lastInstant : Nat := ofSeconds (UInt64.size / 2 - 24 * 3600)

/-- The instant at which a timer ends that is set at `now` for a span. -/
def timerEnd (now d : Nat) : Nat := now + min d horizon

/-- Half of a span, rounded down to a nanosecond. -/
def half (d : Nat) : Nat := d / 2

/-- The number of whole milliseconds, a started one counting as whole. -/
def ceilMillis (d : Nat) : Nat := (d + (nanosPerMilli - 1)) / nanosPerMilli

/-- The digits of `n` in `width` places, leading zeros included. -/
def padDigits (width n : Nat) : List Char :=
  let ds := Nat.toDigits 10 n
  List.replicate (width - ds.length) '0' ++ ds

def dropTrailingZeros (ds : List Char) : List Char :=
  (ds.reverse.dropWhile (· == '0')).reverse

/-- A number of units and its fraction, which counts parts of `10 ^ places` to the unit. -/
def decimal (units fraction places : Nat) (unit : String) : String :=
  match dropTrailingZeros (padDigits places fraction) with
  | [] => toString units ++ unit
  | ds => toString units ++ "." ++ String.ofList ds ++ unit

/-- The written form of a span. -/
def text (d : Nat) : String :=
  if nanosPerSecond ≤ d then decimal (d / nanosPerSecond) (d % nanosPerSecond) 9 "s"
  else if nanosPerMilli ≤ d then decimal (d / nanosPerMilli) (d % nanosPerMilli) 6 "ms"
  else if 1000 ≤ d then decimal (d / 1000) (d % 1000) 3 "µs"
  else toString d ++ "ns"

theorem ofMillis_add (a b : Nat) : ofMillis (a + b) = ofMillis a + ofMillis b :=
  Nat.add_mul a b nanosPerMilli

theorem ofMillis_le {a b : Nat} : ofMillis a ≤ ofMillis b ↔ a ≤ b :=
  Nat.mul_le_mul_right_iff (by decide)

theorem half_ofMillis (n : Nat) : half (ofMillis (2 * n)) = ofMillis n := by
  simp only [half, ofMillis, nanosPerMilli]
  omega

end InformerHub.Duration
