import InformerHub.Scenario.Act

/-!
# Calls of a hook

A scripted hook records the call, and after its delay its return.  A reporter goes through the
bindings one by one; each write is a call of its client, cut off at the policy's timeout.
-/

namespace InformerHub.Scenario.SceneM

/-- What a table says of a name, zero if nothing. -/
def countOf (table : List (String × Nat)) (name : String) : Nat := (table.lookup name).getD 0

/-- Asks the client to write a binding. -/
def beginWrite (k : Nat) (report : Report Obj) (binding : Obj) : SceneM HookCall := do
  let c ← row Scene.clients (← row Scene.reporters k).client
  record (.client c.id) (.writeBegun (keyOf binding) binding.conditions)
  return .writing k report (← after (countOf c.delays binding.name))
    (← alarm report.policy.timeout)

/-- The end of a write. -/
def endWrite (k : Nat) (binding : Obj) : SceneM Retry.Signal := do
  let client := (← row Scene.reporters k).client
  let c ← row Scene.clients client
  let failing := countOf c.failures binding.name
  if failing = 0 then
    record (.client c.id) (.written (keyOf binding))
    match c.writeBack with
    | none => pure ()
    | some i =>
      let inf ← informer i
      setInformer i { inf with store := (inf.store.upsert binding).1 }
    return .succeeded
  else
    updateClient client fun c =>
      { c with failures := (binding.name, failing - 1) :: c.failures }
    record (.client c.id) (.writeFailed (keyOf binding))
    return .failed (.fatal ("conflict on " ++ binding.name))

/-- Goes on with a report: with the attempt or the pause that is its turn, or with its end. -/
def follow (k : Nat) (report : Report Obj) (logs : List LogRecord) : SceneM HookCall := do
  logs.forM log
  if let some text := report.panic? then throw text
  match report.writing with
  | none => return .returned
  | some w =>
    match w.attempts.phase with
    | .pausing delay => return .pausing k report (← alarm delay)
    | _ => beginWrite k report w.updated

/-- The time at which a condition is observed now. -/
def observedNow : SceneM Moment := do return .reading (← get).now

/-- Passes a signal about the present write on to its report. -/
def reported (k : Nat) (report : Report Obj) (s : Retry.Signal) : SceneM HookCall := do
  let (report, logs) := report.step s (← observedNow)
  follow k report logs

def beginHook (hook : HookRef) (readiness : Readiness) : SceneM HookCall := do
  match hook with
  | .scripted k =>
    let h ← row Scene.hooks k
    record (.hook h.id) (.hookCalled readiness)
    if let some text := h.panic then throw text
    if h.delay = 0 then return .returned
    else return .sleeping k (← after h.delay)
  | .reporter k =>
    let r ← row Scene.reporters k
    let store := (← informer r.bindings).store
    match Report.onStore r.secretKey r.policy readiness store (← observedNow) with
    | .error e =>
      log (Report.logUnlisted r.secretKey e)
      return .returned
    | .ok (report, logs) => follow k report logs

/-- A turn of a call.  None if there is nothing to do. -/
def hookTurn (hook : HookRef) (readiness : Readiness) (c : HookCall) :
    SceneM (Option HookCall) := do
  let now ← instant
  match c with
  | .notBegun => return some (← beginHook hook readiness)
  | .sleeping k alarm =>
    if alarm.due ≤ now then
      record (.hook (← row Scene.hooks k).id) .hookReturned
      return some .returned
    else return none
  | .writing k report answer limit =>
    match report.writing with
    | none => return some .returned
    | some w =>
      if answer.due ≤ now then return some (← reported k report (← endWrite k w.updated))
      else if limit.due ≤ now then return some (← reported k report .timedOut)
      else return none
  | .pausing k report alarm =>
    if alarm.due ≤ now then
      spend
      return some (← reported k report .pauseOver)
    else return none
  | .returned => return none

end InformerHub.Scenario.SceneM
