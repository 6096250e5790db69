import InformerHub.Scenario.Clock

/-!
# Playing a scenario

A scenario is a list of directives.  Each is carried out, then every task runs until it waits, and
the reply tells the time and what was recorded since the reply before.
-/

namespace InformerHub.Scenario

/-- What is shown after a directive. -/
structure Answer where
  /-- In milliseconds since the start. -/
  time : Nat
  reply : Reply
  entries : List Entry
  deriving Repr, Inhabited

namespace SceneM

/-- Carries out a step.  A panic inside it is its reply. -/
def take (step : Step) : SceneM Reply :=
  tryCatch (react step) fun text => do
    abandonDeliveries
    return .panicked text

/-- Calls a hook and waits for its return. -/
def report (hook : String) (readiness : Readiness) : SceneM Reply := do
  let t ← spawn none (.reporting (← findHook hook) readiness .notBegun)
  settle
  await t
  match ← endingOf t with
  | some (.outcome (.panicked text)) => return .panicked text
  | _ => return .reported

/-- Whether a goal is reached. -/
def reached : Goal → SceneM Bool
  | .synced i => return (← informer (← resolve i).1).synced
  | .lists k n => return decide (n ≤ (← row Scene.sources (← findSource k)).lists)
  | .watches k n => return decide (n ≤ (← row Scene.sources (← findSource k)).watches)
  | .heard h n => return decide (n ≤ (← row Scene.recorders (← findRecorder h)).heard.length)

/-- The time between two looks at a goal, in milliseconds. -/
def glance : Nat := 10

/-- Looks at a goal at most `n` times, until it is reached or the time is past the limit.  A look
comes before whatever else is due at its time. -/
def glances (goal : Goal) (limit : Nat) : Nat → SceneM Bool
  | 0 => return false
  | n + 1 => do
    if ← reached goal then return true
    let now := (← get).now
    if limit ≤ now then return false
    advance (now + glance - 1)
    modify fun s => { s with now := now + glance }
    glances goal limit n

/-- Waits for a goal during some milliseconds. -/
def eventually (goal : Goal) (within : Nat) : SceneM Reply := do
  let found ← glances goal ((← get).now + within) (within / glance + 2)
  advance (← get).now
  return .truth found

def carryOutDirective : Directive → SceneM Reply
  | .take step => take step
  | .advance millis => do
    advance (Duration.ceilMillis (Duration.timerEnd (← instant) (Duration.ofMillis millis)))
    return .nothing
  | .report hook readiness => tryCatch (report hook readiness) fun text => return .panicked text
  | .eventually goal within => tryCatch (eventually goal within) fun text => return .panicked text

/-- Carries out a directive and shows what came of it. -/
def play (d : Directive) : SceneM Answer := do
  let reply ← carryOutDirective d
  settle
  let s ← get
  set { s with entries := #[] }
  return ⟨s.now, reply, s.entries.toList⟩

end SceneM

def Directive.depth : Directive → Nat
  | .take step => step.depth
  | _ => 0

/-- How deeply the reactions of a whole scenario nest. -/
def nestingOf (directives : List Directive) : Nat :=
  (directives.map Directive.depth).foldl max 0

/-- The answers to a scenario, one for each directive. -/
def play (logLimit : Option LogLevel) (directives : List Directive) : List Answer :=
  match (directives.mapM SceneM.play).run (Scene.new logLimit (nestingOf directives)) with
  | .ok answers _ => answers
  | .error _ _ => []

end InformerHub.Scenario
