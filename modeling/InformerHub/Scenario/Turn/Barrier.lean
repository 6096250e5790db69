import InformerHub.Scenario.Turn.Hook

/-!
# A barrier's turn

While a heartbeat waits, all its waiters are asked at once, and each looks at its caches in its own
way.  At the deadline they are asked for what they have; then the barrier waits for the last of the
answers.
-/

namespace InformerHub.Scenario.SceneM

/-! ## Waiting for caches -/

def factoryStatus (factory : Nat) : SceneM (List (String × Bool)) := do
  let s ← get
  let f ← row Scene.factories factory
  return f.factory.syncStatus fun i => (s.informers.getD i default).informer.synced

/-- A wait for a factory as far as it has come. -/
def pollOf (factory : Nat) (name : String) : SyncWait → SceneM CacheWait
  | .ended status => return .answered name status
  | wait => return .polling factory wait (← takePlace)

/-- A turn of a wait that `token` cancels.  None if there is nothing to do. -/
def cacheTurn (token : Nat) (w : CacheWait) : SceneM (Option CacheWait) := do
  let now ← instant
  let cancelled ← isCancelled token
  match w with
  | .notBegun (.factory k) =>
    let f := (← row Scene.factories k).factory
    some <$> pollOf k f.name (SyncWait.look f.pollInterval now (← factoryStatus k))
  | .notBegun (.scripted k) => return some (.watching k)
  | .polling k wait _ =>
    let f := (← row Scene.factories k).factory
    match wait.turn f.pollInterval now cancelled (← factoryStatus k) with
    | none => return none
    | some wait =>
      spend
      some <$> pollOf k f.name wait
  | .watching k =>
    let u ← row Scene.waiters k
    if u.instant || SyncWait.allSynced u.status then return some (.answered u.name u.status)
    else if cancelled then return some (.lingering k (← after u.cancelDelay))
    else return none
  | .lingering k alarm =>
    if alarm.due ≤ now then
      let u ← row Scene.waiters k
      return some (.answered u.name u.status)
    else return none
  | .answered .. => return none

/-- What has not synced, if all waits are over. -/
def pendingOf (waits : List CacheWait) : Option (List String) := do
  let answers ← waits.mapM fun
    | .answered name status => some (name, status)
    | _ => none
  return answers.flatMap fun (name, status) => SyncWait.unsynced name status

/-! ## Turns -/

def carryOutBeat (barrier : Nat) : Heartbeat.Effect → SceneM Unit
  | .log r => log r
  | .publish s => do
    updateBarrier barrier fun b => b.publish s
    wake (.readied barrier)

/-- Steps the loop of a barrier.  `r` is the run after the step, but for the loop. -/
def beat (t : Nat) (r : BarrierRun) (h : Heartbeat) (s : Heartbeat.Signal) : SceneM Bool := do
  let (h, effects) := h.step s
  effects.forM (carryOutBeat r.barrier)
  setActivity t (.beating { r with beat := some h, place := ← takePlace })
  requeue t
  return true

/-- Asks all waiters of a barrier, with a token of their own that the shutdown cancels too. -/
def askWaiters (r : BarrierRun) : SceneM BarrierRun := do
  let s ← get
  let (cancellation, waitToken) := s.cancellation.child r.shutdown
  set { s with cancellation }
  let waiters := (← row Scene.barriers r.barrier).waiters
  return { r with waits := waiters.map .notBegun, waitToken, overdue := false }

/-- The signal that the loop of a barrier is due, if any. -/
def dueSignal (r : BarrierRun) (h : Heartbeat) (answers : Option (List String)) (returned : Bool) :
    SceneM (Option Heartbeat.Signal) := do
  return h.due? (← instant) (← isCancelled r.shutdown) answers returned

/-- A turn of the waits of a heartbeat. -/
def waitTurn (t : Nat) (r : BarrierRun) (h : Heartbeat) : SceneM Bool := do
  let turns ← r.waits.mapM (cacheTurn r.waitToken)
  let waits := List.zipWith Option.getD turns r.waits
  let r' := { r with waits }
  if turns.any Option.isSome then
    setActivity t (.beating r')
    return true
  match ← dueSignal r h (pendingOf waits) false with
  | some s =>
    modify fun s => { s with cancellation := s.cancellation.release r.waitToken }
    beat t r' h s
  | none =>
    if !r.overdue && h.overdue (← instant) then
      cancel r.waitToken
      setActivity t (.beating { r' with overdue := true })
      return true
    else return false

/-- A turn of a barrier.  The result says whether there was anything to do. -/
def barrierTurn (t : Nat) (r : BarrierRun) : SceneM Bool := do
  match r.beat with
  | none =>
    let b ← row Scene.barriers r.barrier
    let (h, effects) := Heartbeat.begin b.barrier.interval b.waiters.length (← instant)
    effects.forM (carryOutBeat r.barrier)
    setActivity t (.beating { r with beat := some h, place := ← takePlace })
    requeue t
    return true
  | some h =>
    if let .ended o := h.phase then
      finish t (.outcome o)
      return true
    if (← exhausted) && r.needsShare (← instant) then
      defer t
      return false
    match h.phase with
    | .ticking =>
      match ← dueSignal r h none false with
      | some (.tick now) =>
        spend
        beat t (← askWaiters r) h (.tick now)
      | some s => beat t r h s
      | none => return false
    | .waiting _ => waitTurn t r h
    | .reporting readiness =>
      match ← dueSignal r h none false with
      | some s => beat t { r with call := .notBegun } h s
      | none =>
        match ← hookTurn (← row Scene.barriers r.barrier).hook readiness r.call with
        | none => return false
        | some .returned =>
          match ← dueSignal r h none true with
          | some s => beat t { r with call := .notBegun } h s
          | none => return false
        | some call =>
          setActivity t (.beating { r with call })
          return true
    | .ended _ => return false

end InformerHub.Scenario.SceneM
