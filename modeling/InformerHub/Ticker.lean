import InformerHub.Duration

/-!
# Tickers

A ticker is due once per period.  A tick that is taken late by more than the tolerance delays all
later ones; a smaller delay is not carried over.  With a period that no timer reaches it is due at
the horizon.
-/

namespace InformerHub

structure Ticker where
  /-- When the next tick is due. -/
  due : Nat
  period : Nat
  deriving DecidableEq, Repr, Inhabited

namespace Ticker

/-- How late a tick may be taken without a delay of the next ones: five milliseconds. -/
def tolerance : Nat := Duration.ofMillis 5

/-- The ticker after a tick taken at `now`. -/
def take (t : Ticker) (now : Nat) : Ticker :=
  let late := Duration.horizon < t.period || t.due + tolerance < now
  { t with due := if late then Duration.timerEnd now t.period else t.due + t.period }

end Ticker

end InformerHub
