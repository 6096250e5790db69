import InformerHub.Informer
import InformerHub.Reflector

/-!
# Runs of an informer

How an informer carries out what its list and watch loop wants done.  A run begins only once;
each effect of the loop either says something or changes the store and begins the batch that tells
of it.  What is said about a batch comes before it, but for the end of the first one.
-/

namespace InformerHub.Informer

variable {α H : Type}

/-- The first turn of a run: the loop before its first list, or an error if there was a run
before. -/
def beginRun (inf : Informer α H) (resource : String) (policy : BackoffPolicy)
    (period : Option Nat) (now : Nat) :
    Informer α H × Except Error (Reflector × List (Reflector.Effect α)) :=
  let (inf, first) := inf.start
  (inf, if first then .ok (Reflector.begin resource policy period now)
    else .error (.alreadyStarted resource))

/-- The informer after an effect, with the batch to deliver if there is one, and what is said
before that. -/
def carryOut [Object α] (inf : Informer α H) (resource : String) :
    Reflector.Effect α → Informer α H × List LogRecord
  | .log r => (inf, [r])
  | .relist items =>
    let (inf, events) := inf.relist items
    (inf, [inf.logBatch resource events])
  | .change c =>
    let (inf, event) := inf.change c
    let said := logChange resource c event
    (inf, if event.isSome then [said, inf.logBatch resource 1] else [said])
  | .resync =>
    let (inf, events) := inf.resync
    (inf, [logResync resource events, inf.logBatch resource events])

/-- What is said when an informer that was `before` has carried out an effect. -/
def logsAfter (before inf : Informer α H) (resource : String) : List LogRecord :=
  if inf.synced && !before.synced then [inf.logSynced resource] else []

end InformerHub.Informer
