/-!
# Numerals

Reading numbers from text.  A numeral is an optional sign and decimal digits; a float may have a
point and an exponent, or be one of the words for infinity and for no number.
-/

namespace InformerHub.Text

/-- The value of decimal digits. -/
def digitsToNat (ds : List Char) : Nat :=
  ds.foldl (fun n c => 10 * n + (c.toNat - '0'.toNat)) 0

/-- The value of a text of at least one digit, and nothing else. -/
def natural? (cs : List Char) : Option Nat :=
  if !cs.isEmpty && cs.all Char.isDigit then some (digitsToNat cs) else none

/-- The numbers of a signed word of 64 bits lie below this, and not below its negative. -/
def signedBound : Nat := UInt64.size / 2

/-- Whether a number fits in a signed word of 64 bits. -/
def fitsSigned (n : Int) : Bool := decide (-(signedBound : Int) ≤ n ∧ n < signedBound)

/-- A number in 64 bits without a sign, which may have a plus in front. -/
def word? (s : String) : Option UInt64 :=
  let n? := match s.toList with
    | '+' :: cs => natural? cs
    | cs => natural? cs
  n?.bind fun n => if n < UInt64.size then some (UInt64.ofNat n) else none

/-- A number in 64 bits with an optional sign. -/
def signed? (s : String) : Option Int :=
  let n? : Option Int := match s.toList with
    | '-' :: cs => (natural? cs).map fun n => -(n : Int)
    | '+' :: cs => (natural? cs).map fun n => (n : Int)
    | cs => (natural? cs).map fun n => (n : Int)
  n?.bind fun n => if fitsSigned n then some n else none

/-- Every character whose lower case is an ASCII letter in lower case: the capital letters of ASCII
and the Kelvin sign. -/
def lowercase (s : String) : String := s.map fun c => if c = '\u212a' then 'k' else c.toLower

/-- The exponent behind the letter that announces it. -/
def exponent? (cs : List Char) : Option Int :=
  match cs with
  | [] => some 0
  | e :: cs =>
    if e == 'e' || e == 'E' then
      match cs with
      | '-' :: cs => (natural? cs).map fun n => -(n : Int)
      | '+' :: cs => (natural? cs).map fun n => (n : Int)
      | cs => (natural? cs).map fun n => (n : Int)
    else none

/-- The float nearest to `mantissa * 10 ^ exponent`.  Exponents far outside the range of floats
are answered without computing the power. -/
def nearestFloat (mantissa : Nat) (exponent : Int) : Float :=
  if mantissa = 0 || exponent < -400 - (mantissa.log2 : Int) then 0.0
  else if 400 < exponent then 1.0 / 0.0
  else Float.ofScientific mantissa (exponent < 0) exponent.natAbs

/-- A float without a sign. -/
def magnitude? (cs : List Char) : Option Float :=
  match lowercase (String.ofList cs) with
  | "inf" => some (1.0 / 0.0)
  | "infinity" => some (1.0 / 0.0)
  | "nan" => some (0.0 / 0.0)
  | _ =>
    let (whole, rest) := cs.span Char.isDigit
    let (fraction, rest) := match rest with
      | '.' :: rest => rest.span Char.isDigit
      | _ => ([], rest)
    if whole.isEmpty && fraction.isEmpty then none
    else (exponent? rest).map fun e =>
      nearestFloat (digitsToNat (whole ++ fraction)) (e - fraction.length)

/-- A float with an optional sign. -/
def float? (s : String) : Option Float :=
  match s.toList with
  | '-' :: cs => (magnitude? cs).map fun x => -x
  | '+' :: cs => magnitude? cs
  | cs => magnitude? cs

end InformerHub.Text
