/-!
# Scanning text

A scanner takes a value off the front of a text, or refuses the text.  Repetition is bounded by
the length of what is left, which no repetition can exceed since every turn takes a character.
-/

namespace InformerHub.Toml

/-- Takes a value off the front of a text. -/
abbrev Scan := StateT (List Char) Option

namespace Scan

variable {α : Type}

/-- The text that is left. -/
def rest : Scan (List Char) := get

/-- The next character, which stays in place. -/
def peek? : Scan (Option Char) := return (← get).head?

/-- Takes the next character. -/
def next : Scan Char := fun cs =>
  match cs with
  | [] => none
  | c :: cs => some (c, cs)

/-- Takes the next character if it passes a test. -/
def satisfy (p : Char → Bool) : Scan Char := do
  let c ← next
  guard (p c)
  return c

/-- Takes one given character. -/
def char (c : Char) : Scan Unit := discard (satisfy (· == c))

/-- Takes a given text. -/
def literal (s : String) : Scan Unit := s.toList.forM char

/-- Takes the longest run of characters that pass a test. -/
def takeWhile (p : Char → Bool) : Scan (List Char) := fun cs => some (cs.span p)

/-- The first scanner that takes the text. -/
def orElse (a : Scan α) (b : Scan α) : Scan α := fun cs =>
  match a cs with
  | some r => some r
  | none => b cs

/-- The first of several scanners that takes the text. -/
def firstOf : List (Scan α) → Scan α
  | [] => failure
  | p :: ps => orElse p (firstOf ps)

/-- What a scanner takes, or nothing if it refuses. -/
def maybe (p : Scan α) : Scan (Option α) := orElse (some <$> p) (pure none)

/-- Whether a scanner takes the text; if it refuses nothing is taken. -/
def test (p : Scan Unit) : Scan Bool := return (← maybe p).isSome

/-- Takes at most `n` values, as many as there are. -/
def upTo : Nat → Scan α → Scan (List α)
  | 0, _ => pure []
  | n + 1, p => do
    match ← maybe p with
    | none => return []
    | some a => return a :: (← upTo n p)

/-- Takes as many values as there are. -/
def many (p : Scan α) : Scan (List α) := do
  upTo (← rest).length p

/-- Exactly `n` values. -/
def exactly : Nat → Scan α → Scan (List α)
  | 0, _ => pure []
  | n + 1, p => do return (← p) :: (← exactly n p)

end Scan

end InformerHub.Toml
