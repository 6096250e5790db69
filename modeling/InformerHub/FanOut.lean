import InformerHub.Log
import InformerHub.SortedMap
import InformerHub.Text.Quoted
import InformerHub.Text.Shape

/-!
# Fan-out to dynamic handlers

A fan-out is one registration on an informer that passes every event on to handlers that come and
go.  Each of them is kept under a key of its own: the name it asked for and the number of
registrations before it, which is never used twice.
-/

namespace InformerHub

/-- The key of a dynamic handler. -/
structure HandlerKey where
  name : String
  epoch : Nat
  deriving DecidableEq, Repr, Inhabited

namespace HandlerKey

def text (k : HandlerKey) : String := k.name ++ "-" ++ toString k.epoch

/-- The key with its parts. -/
def describe (k : HandlerKey) : String :=
  Text.record "HandlerKey" [("name", Text.quoted k.name), ("epoch", toString k.epoch)]

/-- By name, then by epoch. -/
instance : Ord HandlerKey :=
  ⟨fun a b => compareLex (compareOn HandlerKey.name) (compareOn HandlerKey.epoch) a b⟩

instance : Std.TransOrd HandlerKey :=
  inferInstanceAs (Std.TransCmp
    (compareLex (compareOn HandlerKey.name) (compareOn HandlerKey.epoch)))

instance : Std.LawfulEqOrd HandlerKey where
  eq_of_compare {a b} h := by
    have h' : (compareOn HandlerKey.name a b).then (compareOn HandlerKey.epoch a b) = .eq := h
    rw [Ordering.then_eq_eq] at h'
    have hn : a.name = b.name := Std.LawfulEqCmp.eq_of_compare h'.1
    have he : a.epoch = b.epoch := Std.LawfulEqCmp.eq_of_compare h'.2
    cases a
    cases b
    simp_all
  compare_self {a} := Std.ReflCmp.compare_self

end HandlerKey

/-- Why a handler is not taken in. -/
inductive Refusal where
  /-- The scope of the fan-out was cancelled. -/
  | stopped
  /-- The token of the registration was cancelled. -/
  | cancelled
  /-- There is no runtime that could watch the token. -/
  | noRuntime
  deriving DecidableEq, Repr, Inhabited

namespace Refusal

/-- The first reason against a registration. -/
def find? (scopeCancelled tokenCancelled inside : Bool) : Option Refusal :=
  if scopeCancelled then some .stopped
  else if tokenCancelled then some .cancelled
  else if inside then none
  else some .noRuntime

def record (resource name : String) : Refusal → LogRecord
  | .stopped => .ofFanOut resource name .warn "Dynamic informer stopped, handler not registered" []
  | .cancelled =>
    .ofFanOut resource name .debug "Registration cancelled before it started" []
  | .noRuntime => .ofFanOut resource name .warn "No tokio runtime, handler not registered" []

end Refusal

/-- The dynamic handlers behind one registration. -/
structure FanOut (H : Type) where
  handlers : SortedMap HandlerKey H
  /-- The epoch of the next handler. -/
  nextEpoch : Nat
  /-- The registration on the informer. -/
  registration : Nat

namespace FanOut

variable {H : Type}

/-- A fan-out without handlers. -/
def new (registration : Nat) : FanOut H := ⟨∅, 0, registration⟩

/-- Adds a handler under a fresh key. -/
def join (f : FanOut H) (name : String) (h : H) : FanOut H × HandlerKey :=
  let key : HandlerKey := ⟨name, f.nextEpoch⟩
  ({ f with handlers := f.handlers.insert key h, nextEpoch := f.nextEpoch + 1 }, key)

/-- Takes the handler of a key away.  The second part says whether there was one. -/
def leave (f : FanOut H) (key : HandlerKey) : FanOut H × Bool :=
  ({ f with handlers := f.handlers.erase key }, f.handlers.contains key)

end FanOut

end InformerHub
