import InformerHub.Scenario.Perform

/-!
# An informer's turn

An informer that has a turn finds out which signal its loop is due, if any: the shutdown first, and
then whatever its phase waits for.  It steps the loop, carries out the effects, and waits anew.
-/

namespace InformerHub.Scenario.SceneM

/-- Carries out an effect of an informer's loop. -/
def carryOut (react : Step → SceneM Reply) (i : Nat) (e : Reflector.Effect Obj) : SceneM Unit := do
  let u ← row Scene.informers i
  let (inf, logs) := u.informer.carryOut u.resource e
  setInformer i inf
  logs.forM log
  if !inf.deliveries.isEmpty then drain react i
  (Informer.logsAfter u.informer (← informer i) u.resource).forM log

/-! ## Calls of the source -/

/-- Asks the source for a list.  Without a source the answer is there at once. -/
def beginList (r : InformerRun) (timeout : Nat) : SceneM Pending := do
  match (← row Scene.informers r.informer).source with
  | none => return .list 1 (← after 0) (← alarm timeout)
  | some k =>
    let s ← row Scene.sources k
    let n := s.lists + 1
    updateSource k fun s => { s with lists := n }
    record (.source s.id) (.listCalled n)
    return .list n (← after s.listDelay) (← alarm timeout)

/-- The answer to list number `n`. -/
def answerList (r : InformerRun) (n : Nat) : SceneM (Reflector.Signal Obj) := do
  match (← row Scene.informers r.informer).source with
  | none => return .listed [] (toString n)
  | some k =>
    let (s, answer) := (← row Scene.sources k).listed n
    updateSource k fun _ => s
    match answer with
    | .ok (items, version) => return .listed items version
    | .error e => return .listFailed e

/-- Asks the source for a watch. -/
def beginWatch (r : InformerRun) (version : String) : SceneM Pending := do
  match (← row Scene.informers r.informer).source with
  | none => return .moment (← after 0)
  | some k =>
    let s ← row Scene.sources k
    record (.source s.id) (.watchCalled version)
    return .moment (← after s.watchDelay)

/-- A new feed.  If it comes from a source, the source's older one gets nothing more. -/
def openFeed (source : Option Nat) : SceneM Nat := do
  let s ← get
  let f := s.feeds.size
  set { s with feeds := s.feeds.push .new }
  match source with
  | none => pure ()
  | some k =>
    discard (closeFeed k)
    updateSource k fun s => { s with feed := some f, watches := s.watches + 1 }
  return f

/-- The answer to a watch, and what to wait for after it. -/
def answerWatch (r : InformerRun) : SceneM (Reflector.Signal Obj × Pending) := do
  let source := (← row Scene.informers r.informer).source
  match source with
  | none => return (.opened, .feed (← openFeed none))
  | some k =>
    let (s, answer) := (← row Scene.sources k).watched
    updateSource k fun _ => s
    match answer with
    | .ok () => return (.opened, .feed (← openFeed source))
    | .error e => return (.openFailed e, .nothing)

/-- The next signal from a feed.  An empty one has ended. -/
def readFeed (f : Nat) : SceneM (Reflector.Signal Obj) := do
  match (← row Scene.feeds f).queue with
  | x :: rest =>
    updateFeed f fun feed => { feed with queue := rest }
    match x with
    | .ok c => return .changed c
    | .error e => return .streamFailed e
  | [] => return .streamEnded

/-- Whether the time of what a run waits for is up, and whether there is something from its
source. -/
def standing (r : InformerRun) : SceneM (Bool × Bool) := do
  let now ← instant
  match r.pending with
  | .nothing => return (false, false)
  | .moment alarm => return (alarm.due ≤ now, alarm.due ≤ now)
  | .list _ answer limit => return (limit.due ≤ now, answer.due ≤ now)
  | .feed f =>
    let feed ← row Scene.feeds f
    return (false, !feed.queue.isEmpty || feed.closed)

/-! ## Turns -/

/-- The end of a run.  A run that a factory started reports a failure and counts as finished. -/
def finishInformer (t : Nat) (r : InformerRun) (o : Outcome) : SceneM Unit :=
  match o, r.label with
  | .failed e, some label => do
    log ⟨.task, .error, "spawned task: " ++ label ++ " stopped or encountered an error: " ++
      e.describe, []⟩
    finish t (.outcome .finished)
  | _, _ => finish t (.outcome o)

/-- Gives up the feed that a run reads. -/
def leaveFeed (r : InformerRun) : SceneM Unit :=
  match r.pending with
  | .feed f => updateFeed f fun feed => { feed with unread := true }
  | _ => pure ()

/-- Steps the loop of a run, which then waits for what `pending` says. -/
def signal (react : Step → SceneM Reply) (t : Nat) (r : InformerRun) (loop : Reflector)
    (s : Reflector.Signal Obj) (pending : Pending) : SceneM Unit := do
  let (loop, effects) := loop.step s
  effects.forM (carryOut react r.informer)
  if pending = .nothing then leaveFeed r
  setActivity t (.informing { r with loop := some loop, pending })
  requeue t

/-- The first turn of a run. -/
def beginInformer (react : Step → SceneM Reply) (t : Nat) (r : InformerRun) : SceneM Unit := do
  let u ← row Scene.informers r.informer
  let (inf, loop) := u.informer.beginRun u.resource u.policy u.resync (← instant)
  setInformer r.informer inf
  match loop with
  | .ok (loop, effects) =>
    effects.forM (carryOut react r.informer)
    setActivity t (.informing { r with loop := some loop })
    requeue t
  | .error e => finishInformer t r (.failed e)

/-- Gives the next resync a place, unless it has one. -/
def awaitResync (t : Nat) (r : InformerRun) (loop : Reflector) : SceneM InformerRun := do
  match loop.phase with
  | .watching _ =>
    if loop.resync.isNone || r.resyncPlace.isSome then return r
    let r := { r with resyncPlace := some (← takePlace) }
    setActivity t (.informing r)
    return r
  | _ => return r

/-- Takes what has come from the source. -/
def takeArrival (react : Step → SceneM Reply) (t : Nat) (r : InformerRun) (loop : Reflector) :
    SceneM Unit := do
  match r.pending with
  | .nothing => pure ()
  | .list n _ _ => signal react t r loop (← answerList r n) .nothing
  | .moment _ =>
    let (s, pending) ← answerWatch r
    signal react t r loop s pending
  | .feed f =>
    let s ← readFeed f
    spend
    match s with
    | .changed c => signal react t r loop (.changed c) r.pending
    | s => signal react t r loop s .nothing

/-- Takes the shutdown, or what a timer brings. -/
def takeOwn (react : Step → SceneM Reply) (t : Nat) (r : InformerRun) (loop : Reflector)
    (s : Reflector.Signal Obj) : SceneM Unit := do
  match s with
  | .resyncDue _ =>
    spend
    signal react t { r with resyncPlace := none } loop s r.pending
  | .backoffOver =>
    spend
    signal react t r loop s .nothing
  | _ => signal react t r loop s .nothing

/-- Asks the source, or sets a timer, for what the phase is to wait for.  None if there is nothing
to ask. -/
def inquire (r : InformerRun) (loop : Reflector) : SceneM (Option Pending) := do
  match loop.phase with
  | .backingOff delay => return some (.moment (← alarm delay))
  | .listing => some <$> beginList r loop.policy.timeout
  | .opening version => some <$> beginWatch r version
  | .watching _ | .ended _ => return none

/-- A turn of a run.  The result says whether there was anything to do. -/
def informerTurn (react : Step → SceneM Reply) (t : Nat) (r : InformerRun) : SceneM Bool := do
  match r.loop with
  | none =>
    beginInformer react t r
    return true
  | some loop =>
    if let .ended o := loop.phase then
      finishInformer t r o
      return true
    if ← exhausted then
      defer t
      return false
    let cancelled ← isCancelled r.token
    let r ← if cancelled then pure r else awaitResync t r loop
    let (timeUp, arrived) ← standing r
    match loop.due? (← instant) cancelled true timeUp arrived with
    | some (.own s) =>
      takeOwn react t r loop s
      return true
    | some .arrival =>
      takeArrival react t r loop
      return true
    | none =>
      if r.pending ≠ .nothing then return false
      match ← inquire r loop with
      | some pending =>
        setActivity t (.informing { r with pending })
        return true
      | none => return false

end InformerHub.Scenario.SceneM
