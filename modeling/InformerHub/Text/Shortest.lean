/-!
# Shortest decimals

A float is written with the fewest digits that read back to it, always with a point and never with
an exponent.  The numbers that read back to a float form an interval around it, up to the halfway
points to its neighbours; `Span.decimal` looks for a number in that interval on coarser decimal
grids first.  `nearest?_mem` says that what a grid offers reads back.
-/

namespace InformerHub.Text

/-- A number and the interval of what rounds to it, as fractions over one denominator. -/
structure Span where
  low : Nat
  value : Nat
  high : Nat
  denominator : Nat
  /-- Whether the ends of the interval belong to it. -/
  closed : Bool

namespace Span

/-- Everything times a power of ten. -/
def scale (s : Span) (power : Int) : Span :=
  let n := Nat.pow 10 power.natAbs
  if power < 0 then { s with denominator := s.denominator * n }
  else { s with low := s.low * n, value := s.value * n, high := s.high * n }

/-- Whether a whole number lies in the interval. -/
def contains (s : Span) (n : Nat) : Bool :=
  let n := n * s.denominator
  if s.closed then s.low ≤ n && n ≤ s.high else s.low < n && n < s.high

/-- The whole number of the interval nearest to its value, of the two that enclose the value.  The
greater one wins a tie. -/
def nearest? (s : Span) : Option Nat :=
  let below := s.value / s.denominator
  let above := below + 1
  if s.contains below then
    if s.contains above && above * s.denominator - s.value ≤ s.value - below * s.denominator then
      some above
    else some below
  else if s.contains above then some above
  else none

theorem nearest?_mem {s : Span} {n : Nat} (h : s.nearest? = some n) : s.contains n = true := by
  unfold nearest? at h
  grind

/-- The numbers that read back to a float of these bits, the sign left out.  Below a power of two
the neighbour is only half as far as above it, and a halfway point goes to the even mantissa. -/
def ofBits (bits : UInt64) : Span :=
  let fraction := bits.toNat % Nat.pow 2 52
  let power := bits.toNat / Nat.pow 2 52 % Nat.pow 2 11
  let mantissa := if power = 0 then fraction else fraction + Nat.pow 2 52
  -- quarters of the mantissa's last place, in units of 2 to the power of -1076
  let unit := Nat.pow 2 (power - 1)
  { low := (4 * mantissa - (if fraction = 0 ∧ 1 < power then 1 else 2)) * unit
    value := 4 * mantissa * unit
    high := (4 * mantissa + 2) * unit
    denominator := Nat.pow 2 1076
    closed := mantissa % 2 = 0 }

/-- More decimal places than a float has zeros behind the point. -/
def deepestPlace : Nat := 340

/-- The power of ten just above the value. -/
def magnitude (s : Span) : Int :=
  ((Nat.toDigits 10 ((s.scale deepestPlace).value / s.denominator)).length : Int) - deepestPlace

/-- The digits and the power of ten of the shortest decimal.  Seventeen digits are enough for any
float. -/
def decimal (s : Span) : Nat × Int :=
  let grid (n : Nat) : Int := s.magnitude - n
  match (List.range 17).findSome? fun n =>
      ((s.scale (-(grid (n + 1)))).nearest?).map fun ds => (ds, grid (n + 1)) with
  | some d => d
  | none => (s.value / s.denominator, 0)

end Span

/-- A number of decimal places behind the point, at least one. -/
def positional (digits : Nat) (power : Int) : String :=
  let places := (-power).toNat
  let n := digits * Nat.pow 10 power.toNat
  let ds := Nat.toDigits 10 n
  let ds := List.replicate (places + 1 - ds.length) '0' ++ ds
  let whole := ds.take (ds.length - places)
  let fraction := ((ds.drop (ds.length - places)).reverse.dropWhile (· == '0')).reverse
  String.ofList (whole ++ '.' :: if fraction.isEmpty then ['0'] else fraction)

/-- The shortest text of a float.  A zero keeps its sign. -/
def shortest (x : Float) : String :=
  if x.isNaN then "NaN"
  else
    let sign := if x.toBits.toNat < Nat.pow 2 63 then "" else "-"
    if x.isInf then sign ++ "inf"
    else
      let (digits, power) := (Span.ofBits x.toBits).decimal
      sign ++ positional digits power

end InformerHub.Text
