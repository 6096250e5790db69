/-!
# Conditions

A record's status is a list of conditions, each the observed state of one aspect.  `set` writes
one of them and keeps its transition time while the status stays the same, so the time says when
the status last changed.  The type `τ` of times is left open: nothing here computes with a time.
-/

namespace InformerHub

inductive ConditionStatus where
  | holds
  | fails
  | unknown
  deriving DecidableEq, Repr, Inhabited

/-- How bad a failing condition is.  Conditions that do not fail are unrated. -/
inductive Severity where
  | unrated
  | error
  | warning
  | info
  deriving DecidableEq, Repr, Inhabited

/-- The observed state of one aspect of a record. -/
structure Condition (τ : Type) where
  /-- The aspect. -/
  kind : String
  status : ConditionStatus
  severity : Severity
  reason : String
  message : String
  /-- When the status last changed. -/
  transition : τ
  deriving DecidableEq, Repr

/-- A record that carries conditions. -/
class Conditioned (β : Type) (τ : outParam Type) where
  conditions : β → List (Condition τ)
  withConditions : β → List (Condition τ) → β

namespace Condition

variable {τ : Type}

/-- The first condition of a kind. -/
def get? (cs : List (Condition τ)) (kind : String) : Option (Condition τ) :=
  cs.find? fun c => c.kind = kind

/-- The condition `c` as it is written over `old`. -/
def carryOver (old c : Condition τ) : Condition τ :=
  if old.status = c.status then { c with transition := old.transition } else c

/-- Writes `c` over the first condition of its kind. -/
def overwrite (c : Condition τ) : List (Condition τ) → List (Condition τ)
  | [] => []
  | d :: ds => if d.kind = c.kind then carryOver d c :: ds else d :: overwrite c ds

/-- Orders by kind; conditions of one kind keep their order. -/
def sortByKind (cs : List (Condition τ)) : List (Condition τ) :=
  cs.mergeSort fun a b => decide (a.kind ≤ b.kind)

/-- Writes a condition: in place if there is one of its kind, else as a new entry of the list in
the order of kinds. -/
def set (cs : List (Condition τ)) (c : Condition τ) : List (Condition τ) :=
  match get? cs c.kind with
  | some _ => overwrite c cs
  | none => sortByKind (cs ++ [c])

/-- The condition of a kind that holds, as observed at `now`. -/
def holding (kind : String) (now : τ) : Condition τ :=
  ⟨kind, .holds, .unrated, "", "", now⟩

/-- The condition of a kind that fails, as observed at `now`. -/
def failing (kind reason : String) (severity : Severity) (message : String) (now : τ) :
    Condition τ :=
  ⟨kind, .fails, severity, reason, message, now⟩

def isTrue (cs : List (Condition τ)) (kind : String) : Bool :=
  match get? cs kind with
  | some c => c.status == .holds
  | none => false

end Condition

end InformerHub
