import InformerHub.Condition
import InformerHub.Document
import InformerHub.Timestamp

/-!
# Conditions as documents

A condition is a table with its kind, its status and its transition time; severity, reason and
message may be left out.  `Condition.ofDocument?` refuses what breaks this form.
-/

namespace InformerHub

namespace ConditionStatus

def text : ConditionStatus → String
  | .holds => "True"
  | .fails => "False"
  | .unknown => "Unknown"

end ConditionStatus

namespace Severity

def text : Severity → String
  | .unrated => "None"
  | .error => "Error"
  | .warning => "Warning"
  | .info => "Info"

end Severity

namespace Document

/-- The word that names one of several choices: a text, or a table whose only entry has that name
and no content. -/
def choice? : Document → Option String
  | .text s => some s
  | .table [(s, .null)] => some s
  | _ => none

def text? : Document → Option String
  | .text s => some s
  | _ => none

/-- An integer from zero to below a bound. -/
def below? (bound : Nat) : Document → Option Nat
  | .integer n => if 0 ≤ n ∧ n < bound then some n.toNat else none
  | _ => none

/-- The fields of a record: the entries of a table, or the items of a list that is not too long. -/
def fields? (names : List String) : Document → Option (List (String × Document))
  | .table es => some es
  | .list items => if items.length ≤ names.length then some (names.zip items) else none
  | _ => none

/-- An entry that may be left out. -/
def lookupOr? {α : Type} (default : α) (read : Document → Option α) (name : String)
    (es : List (String × Document)) : Option α :=
  match lookup? name es with
  | some d => read d
  | none => some default

end Document

def ConditionStatus.ofDocument? (d : Document) : Option ConditionStatus := do
  match ← d.choice? with
  | "True" => some .holds
  | "False" => some .fails
  | "Unknown" => some .unknown
  | _ => none

def Severity.ofDocument? (d : Document) : Option Severity := do
  match ← d.choice? with
  | "None" => some .unrated
  | "Error" => some .error
  | "Warning" => some .warning
  | "Info" => some .info
  | _ => none

/-- Both parts must be there, and nothing else. -/
def Timestamp.ofDocument? (d : Document) : Option Timestamp := do
  let names := ["secs_since_epoch", "nanos_since_epoch"]
  let es ← d.fields? names
  guard (es.all fun e => names.contains e.1)
  let seconds ← (← Document.lookup? "secs_since_epoch" es).below? UInt64.size
  let nanos ← (← Document.lookup? "nanos_since_epoch" es).below? UInt32.size
  guard (seconds + nanos / Duration.nanosPerSecond < UInt64.size)
  Timestamp.ofParts? seconds nanos

def Condition.ofDocument? (d : Document) : Option (Condition Timestamp) := do
  let es ← d.fields? ["type", "status", "severity", "reason", "message", "last_transition_time"]
  let kind ← (← Document.lookup? "type" es).text?
  let status ← ConditionStatus.ofDocument? (← Document.lookup? "status" es)
  let severity ← Document.lookupOr? .unrated Severity.ofDocument? "severity" es
  let reason ← Document.lookupOr? "" Document.text? "reason" es
  let message ← Document.lookupOr? "" Document.text? "message" es
  let transition ← Timestamp.ofDocument? (← Document.lookup? "last_transition_time" es)
  return { kind, status, severity, reason, message, transition }

end InformerHub
