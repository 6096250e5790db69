import InformerHub.Barrier
import InformerHub.Condition
import InformerHub.Retry
import InformerHub.Store

/-!
# Reporting readiness on bindings

When the barrier reports, every binding that uses the connection's secret gets the outcome as a
condition.  Bindings are taken one after the other from a snapshot; a binding whose condition says
so already is left alone, any other is written with the policy's attempts, and a binding that
cannot be written does not keep the next one from its turn.
-/

namespace InformerHub

/-- The aspect that the condition describes. -/
def informersSynced : String := "InformersSynced"

/-- The index from secrets to the bindings that use them. -/
def bySecret : String := "by-kubeconfig-secret"

namespace Readiness

variable {τ : Type}

/-- The condition that shows an outcome, as observed at `now`. -/
def condition (r : Readiness) (now : τ) : Condition τ :=
  match r with
  | .ready => .holding informersSynced now
  | .degraded waited => .failing informersSynced "" .error
      ("Informers did not sync within " ++ Duration.text waited) now

end Readiness

namespace Report

/-- A write under way: the binding as it was read, as it is to be written, and the attempts. -/
structure Write (β : Type) where
  read : β
  updated : β
  attempts : Retry

end Report

structure Report (β : Type) where
  secretKey : String
  readiness : Readiness
  policy : BackoffPolicy
  /-- Bindings whose turn is to come. -/
  remaining : List β
  /-- None when all bindings have had their turn. -/
  writing : Option (Report.Write β)
  /-- The number of bindings in the snapshot. -/
  total : Nat
  written : Nat

namespace Report

variable {β τ : Type} [Object β] [Conditioned β τ] [DecidableEq τ]

/-- The binding with the outcome as its condition. -/
def updated (r : Readiness) (now : τ) (b : β) : β :=
  Conditioned.withConditions b (Condition.set (Conditioned.conditions b) (r.condition now))

/-- Whether the outcome changes a binding's conditions. -/
def changes (r : Readiness) (now : τ) (b : β) : Bool :=
  Condition.set (Conditioned.conditions b) (r.condition now) != Conditioned.conditions b

def record (level : LogLevel) (message : String) (fields : List (String × String)) : LogRecord :=
  ⟨.status, level, message, fields⟩

/-- What is said when all bindings have had their turn. -/
def summary (r : Report β) : LogRecord :=
  record .info "Binding status reported"
    [("secret_key", r.secretKey), ("readiness", r.readiness.text),
      ("bindings", toString r.total), ("written", toString r.written)]

/-- Turns to the next binding that the outcome changes, at clock reading `now`. -/
def advance (r : Report β) (now : τ) : List β → Report β × List LogRecord
  | [] =>
    let r := { r with remaining := [], writing := none }
    (r, [r.summary])
  | b :: bs =>
    if changes r.readiness now b then
      ({ r with
        remaining := bs
        writing := some ⟨b, updated r.readiness now b, .begin r.policy⟩ }, [])
    else
      let (r, logs) := advance r now bs
      (r, record .debug "Binding status unchanged" [("binding", keyOf b)] :: logs)

/-- A report on the bindings of a snapshot. -/
def begin (secretKey : String) (policy : BackoffPolicy) (readiness : Readiness)
    (bindings : List β) (now : τ) : Report β × List LogRecord :=
  advance {
    secretKey, readiness, policy
    remaining := []
    writing := none
    total := bindings.length
    written := 0 } now bindings

/-- A report on the bindings of a store that use the secret, if there is a snapshot of them. -/
def onStore (secretKey : String) (policy : BackoffPolicy) (readiness : Readiness)
    (store : Store β) (now : τ) : Except Error (Report β × List LogRecord) :=
  (store.byIndex bySecret secretKey).map fun bindings =>
    begin secretKey policy readiness bindings now

/-- The snapshot cannot be taken. -/
def logUnlisted (secretKey : String) (e : Error) : LogRecord :=
  record .error "Failed to list service bindings" [("secret_key", secretKey), ("error", e.message)]

/-- What follows a signal about the write under way. -/
def step (r : Report β) (signal : Retry.Signal) (now : τ) : Report β × List LogRecord :=
  match r.writing with
  | none => (r, [])
  | some w =>
    let (attempts, logs) := w.attempts.step signal
    match attempts.phase with
    | .ended .finished =>
      let (r, more) := { r with written := r.written + 1 }.advance now r.remaining
      (r, logs ++ more)
    | .ended (.failed e) =>
      let failure := Error.statusUpdate (keyOf w.read) e
      let (r, more) := r.advance now r.remaining
      (r, logs ++ record .warn "Failed to update service binding"
        [("binding", keyOf w.read), ("error", failure.message)] :: more)
    | _ => ({ r with writing := some { w with attempts } }, logs)

/-- The panic that ends a report, if one does. -/
def panic? (r : Report β) : Option String :=
  match r.writing with
  | some w => match w.attempts.phase with
    | .ended (.panicked t) => some t
    | _ => none
  | none => none

/-- A reporter in a few words, given the resource of its bindings. -/
def describeReporter (secretKey resource : String) : String :=
  Text.openRecord "BindingStatusReporter"
    [("secret_key", Text.quoted secretKey), ("bindings", Text.quoted resource)]

end Report

end InformerHub
