import InformerHub.Scenario.Object

/-!
# Calls on a list of conditions

One change of or question to a list of conditions as data, and its answer.
-/

namespace InformerHub.Scenario

inductive ConditionCall where
  | set (condition : Condition Moment)
  | markTrue (kind : String)
  | markFalse (kind reason : String) (severity : Severity) (message : String)
  | get (kind : String)
  | isTrue (kind : String)
  deriving Repr

inductive ConditionAnswer where
  | done
  | condition (condition : Option (Condition Moment))
  | truth (value : Bool)
  deriving Repr

/-- The list after a call at clock reading `now`, and the answer. -/
def ConditionCall.run (now : Nat) (cs : List (Condition Moment)) :
    ConditionCall → List (Condition Moment) × ConditionAnswer
  | .set c => (Condition.set cs c, .done)
  | .markTrue kind => (Condition.set cs (.holding kind (.reading now)), .done)
  | .markFalse kind reason severity message =>
    (Condition.set cs (.failing kind reason severity message (.reading now)), .done)
  | .get kind => (cs, .condition (Condition.get? cs kind))
  | .isTrue kind => (cs, .truth (Condition.isTrue cs kind))

end InformerHub.Scenario
