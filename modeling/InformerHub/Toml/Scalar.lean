import InformerHub.Document
import InformerHub.Text.Numeral
import InformerHub.Toml.Date

/-!
# Scalars of the configuration format

Strings in their four notations, integers, floats, truth values and dates.
-/

namespace InformerHub.Toml

open Scan

/-- A character that may stand in a comment or, escapes apart, in a string. -/
def isPlain (c : Char) : Bool := c == '\t' || (0x20 ≤ c.toNat && c.toNat != 0x7f)

def isBlank (c : Char) : Bool := c == ' ' || c == '\t'

def blanks : Scan Unit := discard (takeWhile isBlank)

def newline : Scan Unit := orElse (char '\n') (literal "\x0d\n")

/-- A comment, without the end of its line. -/
def comment : Scan Unit := do
  char '#'
  discard (takeWhile isPlain)

/-! ## Strings -/

def hexValue? (c : Char) : Option Nat :=
  if c.isDigit then some (c.toNat - '0'.toNat)
  else if 'a' ≤ c ∧ c ≤ 'f' then some (c.toNat - 'a'.toNat + 10)
  else if 'A' ≤ c ∧ c ≤ 'F' then some (c.toNat - 'A'.toNat + 10)
  else none

def isHexDigit (c : Char) : Bool := (hexValue? c).isSome

/-- The value of digits in a base. -/
def digitsValue (base : Nat) (ds : List Char) : Nat :=
  ds.foldl (fun n c => n * base + (hexValue? c).getD 0) 0

/-- A code point given by `n` hexadecimal digits. -/
def codePoint (n : Nat) : Scan (List Char) := do
  let v := digitsValue 16 (← exactly n (satisfy isHexDigit))
  if h : v.isValidChar then return [Char.ofNatAux v h] else failure

/-- What follows a backslash. -/
def escape : Scan (List Char) := do
  match ← next with
  | 'b' => return ['\x08']
  | 't' => return ['\t']
  | 'n' => return ['\n']
  | 'f' => return ['\x0c']
  | 'r' => return ['\x0d']
  | '"' => return ['"']
  | '\\' => return ['\\']
  | 'u' => codePoint 4
  | 'U' => codePoint 8
  | _ => failure

/-- One piece of a string between double quotes. -/
def basicPiece : Scan (List Char) := do
  match ← next with
  | '\\' => escape
  | c => if isPlain c && c != '"' then return [c] else failure

def basicString : Scan (List Char) := do
  char '"'
  let pieces ← many basicPiece
  char '"'
  return pieces.flatten

def literalString : Scan (List Char) := do
  char '\''
  let cs ← takeWhile fun c => isPlain c && c != '\''
  char '\''
  return cs

/-- A backslash at the end of a line takes away the blank space up to the next text. -/
def lineJoin : Scan (List Char) := do
  char '\\'
  blanks
  newline
  discard (many (orElse newline (discard (satisfy isBlank))))
  return []

/-- One piece of a string of several lines between delimiters of three `quote`s. -/
def multilinePiece (quote : Char) (escapes : Bool) : Scan (List Char) := do
  if ← test newline then return ['\n']
  if escapes then
    match ← maybe lineJoin with
    | some cs => return cs
    | none => pure ()
  let before ← get
  match ← next with
  | '\\' => if escapes then escape else return ['\\']
  | c =>
    if c == quote then
      -- a quote inside: no delimiter starts here, or it starts one or two quotes further on
      if (before.takeWhile (· == quote)).length ∈ [1, 2, 4, 5] then return [c] else failure
    else if isPlain c then return [c] else failure

def multilineString (quote : Char) (escapes : Bool) : Scan (List Char) := do
  let delimiter : Scan Unit := literal (String.ofList [quote, quote, quote])
  delimiter
  discard (maybe newline)
  let pieces ← many (multilinePiece quote escapes)
  delimiter
  return pieces.flatten

def string : Scan String := String.ofList <$> firstOf
  [multilineString '"' true, multilineString '\'' false, basicString, literalString]

/-! ## Numbers -/

/-- Digits with single underscores between them. -/
def digits (isDigit : Char → Bool) : Scan (List Char) := do
  let first ← satisfy isDigit
  let more ← many do
    discard (maybe (char '_'))
    satisfy isDigit
  return first :: more

/-- The digits of a decimal integer, which has no leading zeros. -/
def wholeDigits : Scan (List Char) := do
  let ds ← digits Char.isDigit
  guard (ds.head? != some '0' || ds.length == 1)
  return ds

/-- An optional sign; true for a minus. -/
def sign : Scan Bool := do
  if ← test (char '-') then return true
  discard (maybe (char '+'))
  return false

/-- An integer in 64 bits. -/
def inRange (n : Int) : Scan Document := do
  guard (Text.fitsSigned n)
  return .integer n

/-- An integer in a base, announced by `0` and a letter. -/
def basedInteger (mark : String) (base : Nat) (isDigit : Char → Bool) : Scan Document := do
  literal mark
  inRange (digitsValue base (← digits isDigit))

def decimalInteger : Scan Document := do
  let negative ← sign
  let n : Int := digitsValue 10 (← wholeDigits)
  inRange (if negative then -n else n)

/-- The exponent of a float. -/
def exponent : Scan Int := do
  discard (satisfy fun c => c == 'e' || c == 'E')
  let negative ← sign
  let n : Int := digitsValue 10 (← digits Char.isDigit)
  return if negative then -n else n

def decimalFloat : Scan Document := do
  let negative ← sign
  let whole ← wholeDigits
  let fraction ← maybe do
    char '.'
    digits Char.isDigit
  let power ← maybe exponent
  guard (fraction.isSome || power.isSome)
  let fraction := fraction.getD []
  let magnitude := Text.nearestFloat (digitsValue 10 (whole ++ fraction))
    (power.getD 0 - fraction.length)
  guard (negative || magnitude.isFinite)
  return .float (if negative then -magnitude else magnitude)

def specialFloat : Scan Document := do
  let negative ← sign
  let x : Float ← firstOf
    [do literal "inf"; return 1.0 / 0.0, do literal "nan"; return 0.0 / 0.0]
  return .float (if negative then -x else x)

/-! ## Any scalar -/

def number : Scan Document := firstOf
  [date,
   decimalFloat,
   specialFloat,
   basedInteger "0x" 16 isHexDigit,
   basedInteger "0o" 8 fun c => '0' ≤ c && c ≤ '7',
   basedInteger "0b" 2 fun c => c == '0' || c == '1',
   decimalInteger]

def scalar : Scan Document := firstOf
  [Document.text <$> string,
   do literal "true"; return .bool true,
   do literal "false"; return .bool false,
   number]

end InformerHub.Toml
