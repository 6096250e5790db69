import InformerHub.Error

/-!
# Outcomes

How a task ends: with nothing to report, with an error, or by a panic, which carries a text and no
error value.
-/

namespace InformerHub

inductive Outcome where
  | finished
  | failed (error : Error)
  | panicked (text : String)
  deriving DecidableEq, Repr, Inhabited

namespace Outcome

/-- The panic of a counter that leaves its range at the top. -/
def addOverflow : Outcome := .panicked "attempt to add with overflow"

/-- The panic of a counter that leaves its range at the bottom. -/
def subtractOverflow : Outcome := .panicked "attempt to subtract with overflow"

/-- The panic of an instant that would lie too far ahead. -/
def instantOverflow : Outcome := .panicked "overflow when adding duration to instant"

/-- The panic of a ticker without a period. -/
def zeroPeriod : Outcome := .panicked "\x60period\x60 must be non-zero."

end Outcome

end InformerHub
