import InformerHub.Document
import InformerHub.Text.Numeral
import InformerHub.Toml.Scan

/-!
# Dates

A date, a time of day, or both with an offset.  In the data model of the format a date is a table
of one entry, a text under a reserved key; so is every table that has the reserved key first.
`Document.dated?` turns these tables into the normal text of their date, and refuses a document
where the text is no date.
-/

namespace InformerHub

namespace Toml

open Scan

/-- The key under which a table holds a date. -/
def dateKey : String := "$__toml_private_datetime"

/-- How far the hours of a date go. -/
structure DateBounds where
  hour : Nat
  offsetHour : Nat
  offsetMinute : Nat

namespace DateBounds

/-- For a date that stands in a file without quotes. -/
def plain : DateBounds := ⟨23, 23, 59⟩

/-- For the text under the reserved key. -/
def quoted : DateBounds := ⟨24, 99, 99⟩

end DateBounds

/-- A number of two digits with zeros in front. -/
def twoDigits (n : Nat) : List Char :=
  (if n < 10 then ['0'] else []) ++ Nat.toDigits 10 n

/-- A number of exactly `n` digits between two bounds, with its text. -/
def boundedNumber (n low high : Nat) : Scan (Nat × List Char) := do
  let ds ← exactly n (satisfy Char.isDigit)
  let v := Text.digitsToNat ds
  guard (low ≤ v && v ≤ high)
  return (v, ds)

def daysIn (year month : Nat) : Nat :=
  if month = 2 then
    if year % 4 = 0 ∧ (year % 100 ≠ 0 ∨ year % 400 = 0) then 29 else 28
  else if month ∈ [4, 6, 9, 11] then 30 else 31

def day : Scan (List Char) := do
  let (y, ys) ← boundedNumber 4 0 9999
  char '-'
  let (m, ms) ← boundedNumber 2 1 12
  char '-'
  let (_, ds) ← boundedNumber 2 1 (daysIn y m)
  return ys ++ '-' :: ms ++ '-' :: ds

/-- The part of a second: nine places, the rest is cut off. -/
def secondFraction : Scan (List Char) := do
  char '.'
  let d ← satisfy Char.isDigit
  let ds := (d :: (← takeWhile Char.isDigit)).take 9
  match (ds.reverse.dropWhile (· == '0')).reverse with
  | [] => return []
  | ds => return '.' :: ds

def timeOfDay (b : DateBounds) : Scan (List Char) := do
  let (_, hs) ← boundedNumber 2 0 b.hour
  char ':'
  let (_, ms) ← boundedNumber 2 0 59
  char ':'
  let (_, ss) ← boundedNumber 2 0 60
  return hs ++ ':' :: ms ++ ':' :: ss ++ (← maybe secondFraction).getD []

/-- An offset of at most a day, which has a plus when it is zero. -/
def offset (b : DateBounds) : Scan (List Char) := firstOf
  [do discard (satisfy fun c => c == 'Z' || c == 'z'); return ['Z'],
   do
    let s ← satisfy fun c => c == '+' || c == '-'
    let (h, _) ← boundedNumber 2 0 b.offsetHour
    char ':'
    let (m, _) ← boundedNumber 2 0 b.offsetMinute
    let minutes := 60 * h + m
    guard (minutes ≤ 24 * 60)
    return (if minutes = 0 then '+' else s) :: twoDigits (minutes / 60) ++
      ':' :: twoDigits (minutes % 60)]

/-- The normal text of a date. -/
def dateText (b : DateBounds) : Scan (List Char) := firstOf
  [do
    let d ← day
    let t ← maybe do
      discard (satisfy fun c => c == 'T' || c == 't' || c == ' ')
      let t ← timeOfDay b
      return 'T' :: t ++ (← maybe (offset b)).getD []
    return d ++ t.getD [],
   timeOfDay b]

/-- A date without quotes. -/
def date : Scan Document := do
  return .table [(dateKey, .text (String.ofList (← dateText .plain)))]

/-- The normal text of a date in quotes. -/
def quotedDate? (s : String) : Option String :=
  match dateText .quoted s.toList with
  | some (cs, []) => some (String.ofList cs)
  | _ => none

end Toml

mutual

/-- The document with every date as its text. -/
def Document.dated? : Document → Option Document
  | .list items => Document.list <$> datedItems? items
  | .table es =>
    match es.head? with
    | some (key, value) =>
      if key = Toml.dateKey then
        match value with
        | .text s => Document.text <$> Toml.quotedDate? s
        | _ => none
      else Document.table <$> datedEntries? es
    | none => some (.table [])
  | d => some d

def datedItems? : List Document → Option (List Document)
  | [] => some []
  | d :: ds => do return (← d.dated?) :: (← datedItems? ds)

def datedEntries? : List (String × Document) → Option (List (String × Document))
  | [] => some []
  | (key, d) :: es => do return (key, ← d.dated?) :: (← datedEntries? es)

end

end InformerHub
