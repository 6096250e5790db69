import Mathlib.Data.List.Basic
import Mathlib.Logic.Function.Basic
import InformerHub.Drain
import InformerHub.Factory
import InformerHub.Proofs.Launch

/-!
# How a connection winds up

`Windup` is one call that runs a connection, together with everything that it waits for in the end:
the heartbeat, the controllers, and the tasks of its factories.  A task ends at any time and in any
way.  Others may use the factories as well: ask for informers, start them, and wait for the tasks
that a factory holds, which then belong to that wait.

> The call returns after the shutdown, when the heartbeat, all controllers that it started and all
> tasks of its factories have ended, but for tasks that another wait had taken over.  It fails with
> the panic of the heartbeat or else of the first controller in order that panicked
> (`returns_last`).

`Step` lists what a turn of the call can do (`step_turn`), `Still` why it can do nothing.  `Kept`
says how far the call has come in each phase, and where the tasks of its factories are.  That the
call returns follows from the number of turns that are `left` after the shutdown.
-/

namespace InformerHub

namespace Connection

/-- How many phases have passed. -/
@[simp] def Phase.rank : Phase → Nat
  | .gated => 0
  | .running => 1
  | .joiningHeartbeat => 2
  | .joiningControllers _ => 3
  | .stoppingFactories => 4
  | .ended _ => 5

/-- How many controllers are still to be waited for. -/
def unjoined (c : Connection) : Nat :=
  match c.phase with
  | .gated | .running | .joiningHeartbeat => c.started
  | .joiningControllers n => n
  | .stoppingFactories | .ended _ => 0

theorem phase_join_ne_ended (c : Connection) (n : Nat) (o : Outcome) :
    (c.join n).phase ≠ .ended o := by
  unfold join
  by_cases h : n = 0 <;> simp [h]

theorem unjoined_join (c : Connection) (n : Nat) : (c.join n).unjoined = n := by
  unfold join unjoined
  by_cases h : n = 0 <;> simp [h]

theorem phase_join_ne_joining_zero (c : Connection) (n : Nat) :
    (c.join n).phase ≠ .joiningControllers 0 := by
  unfold join
  by_cases h : n = 0 <;> simp [h]

end Connection

open Connection (Effect panicOf)

/-- A connection as it was built. -/
structure Plan where
  secretKey : String
  factories : List Nat
  /-- The number of controllers. -/
  controllers : Nat
  workers : Nat

/-- A call that runs a connection. -/
structure Windup where
  plan : Plan
  barrier : Barrier
  shutDown : Bool
  /-- Whether the call has had its first turn. -/
  begun : Bool
  connection : Connection
  /-- How each task has ended, if it has. -/
  ends : Nat → Option Outcome
  /-- The task that is spawned next. -/
  next : Nat
  /-- The task that runs the heartbeat, once the call has begun. -/
  heartbeat : Nat
  /-- The tasks of the controllers that were started, in their order. -/
  controllers : List Nat
  /-- Those that have not been waited for. -/
  remaining : List Nat
  factories : Nat → Factory Nat
  /-- The tasks that a factory holds until somebody waits for them. -/
  held : Nat → List Nat
  /-- All tasks that a factory has spawned. -/
  spawned : Nat → List Nat
  /-- The tasks that other waits have taken over. -/
  elsewhere : List Nat
  drain : Drain

namespace Windup

inductive Act where
  | shutDown
  /-- The barrier shows a state. -/
  | publish (state : BarrierState)
  /-- A task ends that has not ended. -/
  | ends (task : Nat) (outcome : Outcome)
  /-- The informer of a resource is asked for, and made under a number if there is none. -/
  | obtain (factory : Nat) (resource itemType : String) (informer : Nat)
  /-- Somebody starts a factory, if the call does not wait for the factories. -/
  | start (factory : Nat)
  /-- Another wait takes over the tasks of a factory. -/
  | take (factory : Nat)
  /-- The call takes a turn: whether it looks at the shutdown before the barrier. -/
  | turn (cancelFirst : Bool)

/-! ## Acts -/

def startFactory (s : Windup) (f : Nat) : Windup :=
  let (factory, unstarted) := (s.factories f).start
  let tasks := List.range' s.next unstarted.length
  { s with
    factories := Function.update s.factories f factory
    held := Function.update s.held f (s.held f ++ tasks)
    spawned := Function.update s.spawned f (s.spawned f ++ tasks)
    next := s.next + unstarted.length }

def carryOut (s : Windup) : Effect → Windup
  | .log _ => s
  | .startFactories => s.plan.factories.foldl startFactory s
  | .startHeartbeat => { s with heartbeat := s.next, next := s.next + 1 }
  | .startControllers _ =>
    let tasks := List.range' s.next s.plan.controllers
    { s with controllers := tasks, remaining := tasks, next := s.next + s.plan.controllers }

/-- The connection before its first turn, and what it does then. -/
def beginning (plan : Plan) : Connection × List Effect :=
  Connection.begin plan.secretKey plan.factories.length plan.controllers plan.workers

/-- The call after the connection got a signal. -/
def signal (s : Windup) (signal : Connection.Signal) : Windup :=
  let (connection, effects) := s.connection.step signal
  let remaining := match signal with
    | .controllerEnded _ => s.remaining.tail
    | _ => s.remaining
  effects.foldl carryOut { s with connection, remaining }

/-- A turn of the wait for the factories. -/
def drainTurn (s : Windup) : Windup :=
  match s.drain.next? with
  | none => s
  | some (.take f) =>
    { s with held := Function.update s.held f [], drain := s.drain.take (s.held f) }
  | some (.join t) => if (s.ends t).isSome then { s with drain := s.drain.join } else s

def turn (s : Windup) (cancelFirst : Bool) : Windup :=
  if s.begun then
    match s.connection.due? (s.barrier.awaitReady? s.shutDown cancelFirst) s.shutDown
        (s.ends s.heartbeat) (s.remaining.head?.bind s.ends) s.drain.isOver with
    | some signal => s.signal signal
    | none => if s.connection.phase = .stoppingFactories then s.drainTurn else s
  else (beginning s.plan).2.foldl carryOut { s with begun := true }

def perform (s : Windup) : Act → Windup
  | .shutDown => { s with shutDown := true }
  | .publish state => { s with barrier := s.barrier.publish state }
  | .ends task outcome =>
    if task < s.next ∧ s.ends task = none then
      { s with ends := Function.update s.ends task (some outcome) }
    else s
  | .obtain f resource itemType informer =>
    { s with factories :=
        Function.update s.factories f ((s.factories f).obtain resource itemType informer).1 }
  | .start f => if s.connection.phase = .stoppingFactories then s else s.startFactory f
  | .take f =>
    { s with held := Function.update s.held f [], elsewhere := s.elsewhere ++ s.held f }
  | .turn cancelFirst => s.turn cancelFirst

/-- Before the call, with factories that have spawned nothing. -/
def new (plan : Plan) (barrier : Barrier) (factories : Nat → Factory Nat) : Windup where
  plan
  barrier
  shutDown := false
  begun := false
  connection := (beginning plan).1
  ends := fun _ => none
  next := 0
  heartbeat := 0
  controllers := []
  remaining := []
  factories
  held := fun _ => []
  spawned := fun _ => []
  elsewhere := []
  drain := .of plan.factories

def run (s : Windup) (acts : List Act) : Windup := acts.foldl perform s

/-- What the call has returned, if it has. -/
def outcome? (s : Windup) : Option Outcome :=
  match s.connection.phase with
  | .ended o => some o
  | _ => none

/-- The text of a task's panic, if it has ended by one. -/
def panic? (s : Windup) (task : Nat) : Option String := (s.ends task).bind panicOf

/-! ## What a turn can do -/

variable {s s' : Windup}

/-- Why there is nothing to do. -/
def Still (s : Windup) : Prop :=
  s.begun = true ∧ match s.connection.phase with
    | .gated | .running => s.shutDown = false
    | .joiningHeartbeat => s.ends s.heartbeat = none
    | .joiningControllers _ => ∀ k rest, s.remaining = k :: rest → s.ends k = none
    | .stoppingFactories => ∃ t tasks, s.drain.tasks = t :: tasks ∧ s.ends t = none
    | .ended _ => True

/-- All that a turn can do. -/
inductive Step (s : Windup) : Windup → Prop
  | idle (h : Still s) : Step s s
  | begins (h : s.begun = false) :
    Step s ((beginning s.plan).2.foldl carryOut { s with begun := true })
  | opens (hb : s.begun = true) (h : s.connection.phase = .gated) : Step s { s with
      connection := { s.connection with phase := .running, started := s.connection.controllers }
      controllers := List.range' s.next s.plan.controllers
      remaining := List.range' s.next s.plan.controllers
      next := s.next + s.plan.controllers }
  | misses (hb : s.begun = true) (h : s.connection.phase = .gated) :
    Step s { s with connection := { s.connection with phase := .running } }
  | stops (hb : s.begun = true) (h : s.connection.phase = .running) (hs : s.shutDown = true) :
    Step s { s with connection := { s.connection with phase := .joiningHeartbeat } }
  | joinsHeartbeat (hb : s.begun = true) (h : s.connection.phase = .joiningHeartbeat) {o : Outcome}
      (ho : s.ends s.heartbeat = some o) : Step s { s with
      connection := { s.connection with heartbeat := o }.join s.connection.started }
  | joinsController (hb : s.begun = true) {n : Nat}
      (h : s.connection.phase = .joiningControllers n) {k : Nat} {rest : List Nat}
      (hk : s.remaining = k :: rest) {o : Outcome} (ho : s.ends k = some o) : Step s { s with
      connection := { s.connection with
        controllerEnds := s.connection.controllerEnds ++ [o] }.join (n - 1)
      remaining := rest }
  | takes (hb : s.begun = true) (h : s.connection.phase = .stoppingFactories) {f : Nat}
      {later : List Nat} (ht : s.drain.tasks = []) (hl : s.drain.later = f :: later) :
    Step s { s with held := Function.update s.held f [], drain := ⟨f, s.held f, later⟩ }
  | joins (hb : s.begun = true) (h : s.connection.phase = .stoppingFactories) {t : Nat}
      {tasks : List Nat} (ht : s.drain.tasks = t :: tasks) (he : (s.ends t).isSome = true) :
    Step s { s with drain := ⟨s.drain.factory, tasks, s.drain.later⟩ }
  | returns (hb : s.begun = true) (h : s.connection.phase = .stoppingFactories)
      (ht : s.drain.tasks = []) (hl : s.drain.later = []) : Step s { s with
      connection := { s.connection with
        phase := .ended (Connection.result s.connection.heartbeat s.connection.controllerEnds) } }

theorem foldl_carryOut_logControllerEnd (s : Windup) (c : Connection) (o : Outcome) :
    (c.logControllerEnd o).foldl carryOut s = s := by
  unfold Connection.logControllerEnd
  split <;> rfl

theorem step_drainTurn (hb : s.begun = true) (hp : s.connection.phase = .stoppingFactories)
    (hover : s.drain.isOver = false) : Step s s.drainTurn := by
  unfold drainTurn
  cases ht : s.drain.tasks with
  | cons t tasks =>
    have hn : s.drain.next? = some (.join t) := by simp [Drain.next?, ht]
    rw [hn]
    dsimp only
    split
    next he =>
      rw [Drain.join, ht]
      exact .joins hb hp ht he
    next he =>
      refine .idle ⟨hb, ?_⟩
      rw [hp]
      exact ⟨t, tasks, ht, Option.not_isSome_iff_eq_none.mp he⟩
  | nil =>
    cases hl : s.drain.later with
    | cons f later =>
      have hn : s.drain.next? = some (.take f) := by simp [Drain.next?, ht, hl]
      rw [hn]
      dsimp only
      rw [Drain.take, hl]
      exact .takes hb hp ht hl
    | nil => exact absurd hover (by simp [Drain.isOver, Drain.next?, ht, hl])

/-- A turn does one of the things that are listed. -/
theorem step_turn (s : Windup) (cancelFirst : Bool) : Step s (s.turn cancelFirst) := by
  unfold turn
  cases hb : s.begun with
  | false =>
    rw [if_neg (by simp)]
    exact .begins hb
  | true =>
    rw [if_pos rfl]
    unfold Connection.due?
    cases hp : s.connection.phase with
    | gated =>
      cases hg : s.barrier.awaitReady? s.shutDown cancelFirst with
      | none =>
        have hs : s.shutDown = false := by
          have hnone := Barrier.isSome_awaitReady?.symm.trans (congrArg Option.isSome hg)
          exact (Bool.or_eq_false_iff.mp hnone).2
        exact .idle ⟨hb, by rw [hp]; exact hs⟩
      | some ready =>
        cases ready with
        | true =>
          simp only [Option.map_some, if_true, signal, Connection.step, hp]
          exact .opens hb hp
        | false =>
          simp only [Option.map_some, Bool.false_eq_true, if_false, signal, Connection.step, hp]
          exact .misses hb hp
    | running =>
      cases hs : s.shutDown with
      | false => exact .idle ⟨hb, by rw [hp]; exact hs⟩
      | true =>
        simp only [if_true, signal, Connection.step, hp]
        exact .stops hb hp hs
    | joiningHeartbeat =>
      cases ho : s.ends s.heartbeat with
      | none => exact .idle ⟨hb, by rw [hp]; exact ho⟩
      | some o =>
        simp only [Option.map_some, signal, Connection.step, hp]
        exact .joinsHeartbeat hb hp ho
    | joiningControllers n =>
      cases hk : s.remaining with
      | nil =>
        refine .idle ⟨hb, ?_⟩
        rw [hp]
        exact fun k rest hk' => absurd (hk.symm.trans hk') (by simp)
      | cons k rest =>
        cases ho : s.ends k with
        | none =>
          simp only [List.head?_cons, Option.bind_some, ho]
          refine .idle ⟨hb, ?_⟩
          rw [hp]
          intro k' rest' hk'
          obtain ⟨rfl, -⟩ := List.cons.inj (hk.symm.trans hk')
          exact ho
        | some o =>
          simp only [List.head?_cons, Option.bind_some, ho, Option.map_some, signal,
            Connection.step, hp, foldl_carryOut_logControllerEnd, hk, List.tail_cons]
          exact .joinsController hb hp hk ho
    | stoppingFactories =>
      cases hover : s.drain.isOver with
      | false => exact step_drainTurn hb hp hover
      | true =>
        simp only [if_true, signal, Connection.step, hp]
        have hn : s.drain.next? = none := Option.isNone_iff_eq_none.mp hover
        unfold Drain.next? at hn
        split at hn
        next => exact absurd hn (by simp)
        next => exact absurd hn (by simp)
        next ht hl => exact .returns hb hp ht hl
    | ended o => exact .idle ⟨hb, by rw [hp]; exact trivial⟩

/-! ## What the call has waited for -/

/-- How far the call has come. -/
structure Joined (s : Windup) : Prop where
  begun : s.begun = false → s.connection.phase = .gated
  members : s.connection.controllers = s.plan.controllers
  started : s.connection.started = s.controllers.length
  gated : s.connection.phase = .gated → s.controllers = []
  shutDown : 2 ≤ s.connection.phase.rank → s.shutDown = true
  heartbeat : 3 ≤ s.connection.phase.rank → s.ends s.heartbeat = some s.connection.heartbeat
  waited : ∃ waited, s.controllers = waited ++ s.remaining ∧
    waited.map s.ends = s.connection.controllerEnds.map some
  remaining : s.remaining.length = s.connection.unjoined
  joining : s.connection.phase ≠ .joiningControllers 0

/-- Where the tasks of the factories are. -/
structure Stocked (s : Windup) : Prop where
  held : ∀ f, ∀ t ∈ s.held f, t ∈ s.spawned f
  later : ∀ f ∈ s.drain.later, f ∈ s.plan.factories
  drained : ∀ t ∈ s.drain.tasks, ∃ f ∈ s.plan.factories, t ∈ s.spawned f
  whereabouts : ∀ f, ∀ t ∈ s.spawned f,
    t ∈ s.held f ∨ t ∈ s.elsewhere ∨ t ∈ s.drain.tasks ∨ (s.ends t).isSome = true
  untouched : s.connection.phase.rank < 4 → s.drain = .of s.plan.factories
  taken : s.connection.phase = .stoppingFactories →
    ∀ f ∈ s.plan.factories, f ∈ s.drain.later ∨ s.held f = []

theorem joined_new (plan : Plan) (barrier : Barrier) (factories : Nat → Factory Nat) :
    Joined (new plan barrier factories) where
  begun _ := rfl
  members := rfl
  started := rfl
  gated _ := rfl
  shutDown h := absurd h (Nat.not_succ_le_zero 1)
  heartbeat h := absurd h (Nat.not_succ_le_zero 2)
  waited := ⟨[], rfl, rfl⟩
  remaining := rfl
  joining h := Connection.Phase.noConfusion h

theorem stocked_new (plan : Plan) (barrier : Barrier) (factories : Nat → Factory Nat) :
    Stocked (new plan barrier factories) where
  held _ _ h := absurd h List.not_mem_nil
  later _ h := h
  drained _ h := absurd h List.not_mem_nil
  whereabouts _ _ h := absurd h List.not_mem_nil
  untouched _ := rfl
  taken h := Connection.Phase.noConfusion h

/-- What the factories do is nothing to the wait for the other tasks. -/
theorem Joined.aside (h : Joined s) (barrier : Barrier) (factories : Nat → Factory Nat)
    (held spawned : Nat → List Nat) (elsewhere : List Nat) (next : Nat) (drain : Drain) :
    Joined { s with barrier, factories, held, spawned, elsewhere, next, drain } :=
  ⟨h.begun, h.members, h.started, h.gated, h.shutDown, h.heartbeat, h.waited, h.remaining,
    h.joining⟩

theorem Joined.startFactory (h : Joined s) (f : Nat) : Joined (s.startFactory f) :=
  h.aside ..

theorem mem_update_append {g : Nat → List Nat} {f k t : Nat} {tasks : List Nat} :
    t ∈ Function.update g f (g f ++ tasks) k ↔ t ∈ g k ∨ k = f ∧ t ∈ tasks := by
  by_cases hk : k = f
  · subst hk
    rw [Function.update_self, List.mem_append]
    simp
  · rw [Function.update_of_ne hk]
    simp [hk]

theorem mem_update_nil {g : Nat → List Nat} {f k t : Nat} :
    t ∈ Function.update g f [] k ↔ k ≠ f ∧ t ∈ g k := by
  by_cases hk : k = f
  · subst hk
    rw [Function.update_self]
    simp
  · rw [Function.update_of_ne hk]
    simp [hk]

/-- A factory that starts while nobody waits for it. -/
theorem Stocked.startFactory (h : Stocked s) (hp : s.connection.phase ≠ .stoppingFactories)
    (f : Nat) : Stocked (s.startFactory f) := by
  refine ⟨fun g t ht => ?_, h.later, fun t ht => ?_, fun g t ht => ?_, h.untouched,
    fun hs => absurd hs hp⟩
  · exact mem_update_append.mpr ((mem_update_append.mp ht).imp_left (h.held g t))
  · obtain ⟨g, hg, htg⟩ := h.drained t ht
    exact ⟨g, hg, mem_update_append.mpr (Or.inl htg)⟩
  · rcases mem_update_append.mp ht with ht | ht
    · exact (h.whereabouts g t ht).imp_left fun ht => mem_update_append.mpr (Or.inl ht)
    · exact Or.inl (mem_update_append.mpr (Or.inr ht))

/-- Factories that start change nothing but what is in stock. -/
theorem foldl_startFactory_eq (fs : List Nat) : ∀ s : Windup, ∃ factories held spawned next,
    fs.foldl startFactory s = { s with factories, held, spawned, next } := by
  induction fs with
  | nil => exact fun s => ⟨s.factories, s.held, s.spawned, s.next, rfl⟩
  | cons f fs ih => exact fun s => ih (s.startFactory f)

theorem Stocked.startFactories (fs : List Nat) : ∀ {s : Windup}, Stocked s →
    s.connection.phase ≠ .stoppingFactories → Stocked (fs.foldl Windup.startFactory s) := by
  induction fs with
  | nil => exact fun h _ => h
  | cons f fs ih => exact fun h hp => ih (h.startFactory hp f) hp

/-- What the first turn changes. -/
theorem begins_eq (s : Windup) : ∃ factories held spawned next heartbeat,
    (beginning s.plan).2.foldl carryOut { s with begun := true } =
      { s with begun := true, factories, held, spawned, next, heartbeat } := by
  obtain ⟨factories, held, spawned, next, he⟩ :=
    foldl_startFactory_eq s.plan.factories { s with begun := true }
  refine ⟨factories, held, spawned, next + 1, next, ?_⟩
  show carryOut (s.plan.factories.foldl startFactory { s with begun := true }) .startHeartbeat = _
  rw [he]
  rfl

/-! ## What an act keeps -/

/-- The state of a call at any time. -/
structure Kept (s : Windup) : Prop where
  joined : Joined s
  stocked : Stocked s

theorem kept_take (h : Kept s) (f : Nat) : Kept (s.perform (.take f)) := by
  obtain ⟨hj, hs⟩ := h
  refine ⟨hj.aside .., fun g t ht => ?_, hs.later, hs.drained, fun g t ht => ?_, hs.untouched,
    fun hp g hg => ?_⟩
  · exact hs.held g t (mem_update_nil.mp ht).2
  · show t ∈ Function.update s.held f [] g ∨ t ∈ s.elsewhere ++ s.held f ∨ _
    rcases hs.whereabouts g t ht with ht | ht | ht
    · by_cases hg : g = f
      · exact Or.inr (Or.inl (List.mem_append_right _ (hg ▸ ht)))
      · exact Or.inl (mem_update_nil.mpr ⟨hg, ht⟩)
    · exact Or.inr (Or.inl (List.mem_append_left _ ht))
    · exact Or.inr (Or.inr ht)
  · refine (hs.taken hp g hg).imp_right fun hnil => ?_
    show Function.update s.held f [] g = []
    exact List.eq_nil_iff_forall_not_mem.mpr fun t ht =>
      List.not_mem_nil (hnil ▸ (mem_update_nil.mp ht).2)

/-- What has ended remains so. -/
theorem ends_perform {t : Nat} {o : Outcome} (h : s.ends t = some o) (task : Nat)
    (outcome : Outcome) : (s.perform (.ends task outcome)).ends t = some o := by
  unfold perform
  dsimp only
  split
  next hn =>
    show Function.update s.ends task (some outcome) t = some o
    have hne : t ≠ task := by
      rintro rfl
      exact absurd (hn.2.symm.trans h) (by simp)
    rw [Function.update_of_ne hne]
    exact h
  next => exact h

theorem kept_ends (h : Kept s) (task : Nat) (outcome : Outcome) :
    Kept (s.perform (.ends task outcome)) := by
  by_cases hn : task < s.next ∧ s.ends task = none
  · have hmono : ∀ t o, s.ends t = some o →
        Function.update s.ends task (some outcome) t = some o := fun t o ht => by
      have he := ends_perform ht task outcome
      rw [show s.perform (.ends task outcome) = _ from if_pos hn] at he
      exact he
    obtain ⟨hj, hs⟩ := h
    obtain ⟨waited, hcontrollers, hwaited⟩ := hj.waited
    have hsame : waited.map (Function.update s.ends task (some outcome)) = waited.map s.ends := by
      refine List.map_congr_left fun t ht => ?_
      obtain ⟨o, -, ho⟩ := List.mem_map.mp (hwaited ▸ List.mem_map_of_mem ht)
      rw [← ho]
      exact hmono t o ho.symm
    rw [show s.perform (.ends task outcome) = _ from if_pos hn]
    refine ⟨⟨hj.begun, hj.members, hj.started, hj.gated, hj.shutDown,
      fun hr => hmono _ _ (hj.heartbeat hr), ⟨waited, hcontrollers, hsame.trans hwaited⟩,
      hj.remaining, hj.joining⟩,
      ⟨hs.held, hs.later, hs.drained, fun f t ht => ?_, hs.untouched, hs.taken⟩⟩
    refine (hs.whereabouts f t ht).imp_right fun h => h.imp_right fun h => h.imp_right fun he => ?_
    obtain ⟨o, ho⟩ := Option.isSome_iff_exists.mp he
    exact Option.isSome_iff_exists.mpr ⟨o, hmono t o ho⟩
  · rw [show s.perform (.ends task outcome) = s from if_neg hn]
    exact h

theorem kept_begins (h : Kept s) (hb : s.begun = false) :
    Kept ((beginning s.plan).2.foldl carryOut { s with begun := true }) := by
  obtain ⟨hj, hs⟩ := h
  have hp := hj.begun hb
  constructor
  · obtain ⟨factories, held, spawned, next, heartbeat, he⟩ := begins_eq s
    rw [he]
    exact ⟨fun _ => hp, hj.members, hj.started, hj.gated, hj.shutDown,
      fun hr => absurd hr (by simp [hp]), hj.waited, hj.remaining,
      hj.joining⟩
  · have hs' : Stocked { s with begun := true } :=
      ⟨hs.held, hs.later, hs.drained, hs.whereabouts, hs.untouched, hs.taken⟩
    obtain ⟨hheld, hlater, hdrained, hwhere, huntouched, htaken⟩ :=
      hs'.startFactories s.plan.factories (by simp [hp])
    exact ⟨hheld, hlater, hdrained, hwhere, huntouched, htaken⟩

/-- A step keeps what was waited for. -/
theorem joined_step (h : Joined s) (st : Step s s') (hb : s.begun = true) : Joined s' := by
  -- nothing has to be shown about calls that have not begun
  have hbegun : ∀ {p : Prop}, s.begun = false → p := fun hb' =>
    absurd (hb.symm.trans hb') (by simp)
  cases st with
  | idle => exact h
  | begins hb' => exact hbegun hb'
  | opens _ hp =>
    obtain ⟨waited, hcontrollers, hwaited⟩ := h.waited
    rw [h.gated hp] at hcontrollers
    obtain ⟨rfl, -⟩ := List.append_eq_nil_iff.mp hcontrollers.symm
    have hlength : (List.range' s.next s.plan.controllers).length = s.connection.controllers := by
      rw [List.length_range', h.members]
    exact ⟨hbegun, h.members, hlength.symm, fun hg => Connection.Phase.noConfusion hg,
      fun hr => absurd hr (by simp),
      fun hr => absurd hr (by simp), ⟨[], rfl, hwaited⟩, hlength,
      fun hn => Connection.Phase.noConfusion hn⟩
  | misses _ hp =>
    refine ⟨hbegun, h.members, h.started, fun hg => Connection.Phase.noConfusion hg,
      fun hr => absurd hr (by simp),
      fun hr => absurd hr (by simp), h.waited, ?_,
      fun hn => Connection.Phase.noConfusion hn⟩
    exact h.remaining.trans (by simp [Connection.unjoined, hp])
  | stops _ hp hs =>
    refine ⟨hbegun, h.members, h.started, fun hg => Connection.Phase.noConfusion hg, fun _ => hs,
      fun hr => absurd hr (by simp), h.waited, ?_,
      fun hn => Connection.Phase.noConfusion hn⟩
    exact h.remaining.trans (by simp [Connection.unjoined, hp])
  | @joinsHeartbeat _ hp o ho =>
    refine ⟨hbegun, h.members, h.started, fun hg => absurd hg (Connection.phase_join_ne _ _),
      fun _ => h.shutDown (by simp [hp]), fun _ => ho, h.waited, ?_,
      Connection.phase_join_ne_joining_zero _ _⟩
    rw [Connection.unjoined_join]
    exact h.remaining.trans (by simp [Connection.unjoined, hp])
  | @joinsController _ n hp k rest hk o ho =>
    obtain ⟨waited, hcontrollers, hwaited⟩ := h.waited
    rw [hk] at hcontrollers
    have hlength := h.remaining
    rw [hk, List.length_cons, show s.connection.unjoined = n by simp [Connection.unjoined, hp]]
      at hlength
    have hr : s.connection.phase.rank = 3 := by simp [hp]
    refine ⟨hbegun, h.members, h.started, fun hg => absurd hg (Connection.phase_join_ne _ _),
      fun _ => h.shutDown (by omega), fun _ => h.heartbeat (by omega),
      ⟨waited ++ [k], ?_, ?_⟩, ?_, Connection.phase_join_ne_joining_zero _ _⟩
    · rw [List.append_assoc]
      exact hcontrollers
    · show (waited ++ [k]).map s.ends = (s.connection.controllerEnds ++ [o]).map some
      rw [List.map_append, List.map_append, hwaited, List.map_singleton, ho]
      rfl
    · rw [Connection.unjoined_join]
      show rest.length = n - 1
      omega
  | takes _ hp ht hl => exact h.aside ..
  | joins _ hp ht he => exact h.aside ..
  | returns _ hp ht hl =>
    have hr : s.connection.phase.rank = 4 := by simp [hp]
    refine ⟨hbegun, h.members, h.started, fun hg => Connection.Phase.noConfusion hg,
      fun _ => h.shutDown (by omega), fun _ => h.heartbeat (by omega), h.waited, ?_,
      fun hn => Connection.Phase.noConfusion hn⟩
    exact h.remaining.trans (by simp [Connection.unjoined, hp])

/-- A change of the connection up to its last phase is nothing to the factories. -/
theorem Stocked.goes_on (h : Stocked s) (hr : s.connection.phase.rank < 4) (c : Connection)
    (controllers remaining : List Nat) (next : Nat) :
    Stocked { s with connection := c, controllers, remaining, next } := by
  have hdrain := h.untouched hr
  refine ⟨h.held, h.later, h.drained, h.whereabouts, fun _ => hdrain, fun _ f hf => Or.inl ?_⟩
  show f ∈ s.drain.later
  rw [hdrain]
  exact hf

/-- A step keeps track of the tasks of the factories. -/
theorem stocked_step (h : Stocked s) (st : Step s s') (hb : s.begun = true) : Stocked s' := by
  cases st with
  | idle => exact h
  | begins hb' => exact absurd (hb.symm.trans hb') (by simp)
  | opens _ hp => exact h.goes_on (by simp [hp]) ..
  | misses _ hp => exact h.goes_on (by simp [hp]) ..
  | stops _ hp hs => exact h.goes_on (by simp [hp]) ..
  | joinsHeartbeat _ hp ho => exact h.goes_on (by simp [hp]) ..
  | joinsController _ hp hk ho => exact h.goes_on (by simp [hp]) ..
  | @takes _ hp f later ht hl =>
    have hf : f ∈ s.plan.factories := h.later f (hl ▸ List.mem_cons_self ..)
    refine ⟨fun g t hg => h.held g t (mem_update_nil.mp hg).2,
      fun g hg => h.later g (hl ▸ List.mem_cons_of_mem _ hg),
      fun t hmem => ⟨f, hf, h.held f t hmem⟩, fun g t hg => ?_,
      fun hr => absurd hr (by simp [hp]), fun _ g hg => ?_⟩
    · show t ∈ Function.update s.held f [] g ∨ _ ∨ t ∈ s.held f ∨ _
      rcases h.whereabouts g t hg with hg | hg | hg | hg
      · by_cases hgf : g = f
        · exact Or.inr (Or.inr (Or.inl (hgf ▸ hg)))
        · exact Or.inl (mem_update_nil.mpr ⟨hgf, hg⟩)
      · exact Or.inr (Or.inl hg)
      · exact absurd hg (ht ▸ List.not_mem_nil)
      · exact Or.inr (Or.inr (Or.inr hg))
    · show g ∈ later ∨ Function.update s.held f [] g = []
      by_cases hgf : g = f
      · rw [hgf, Function.update_self]
        exact Or.inr rfl
      · rw [Function.update_of_ne hgf]
        refine (h.taken hp g hg).imp_left fun hmem => ?_
        rw [hl] at hmem
        exact (List.mem_cons.mp hmem).resolve_left hgf
  | @joins _ hp t tasks ht he =>
    refine ⟨h.held, h.later, fun u hu => h.drained u (ht ▸ List.mem_cons_of_mem _ hu),
      fun g u hu => ?_, fun hr => absurd hr (by simp [hp]), h.taken⟩
    show u ∈ s.held g ∨ _ ∨ u ∈ tasks ∨ _
    rcases h.whereabouts g u hu with hu | hu | hu | hu
    · exact Or.inl hu
    · exact Or.inr (Or.inl hu)
    · rcases List.mem_cons.mp (ht ▸ hu) with rfl | hu
      · exact Or.inr (Or.inr (Or.inr he))
      · exact Or.inr (Or.inr (Or.inl hu))
    · exact Or.inr (Or.inr (Or.inr hu))
  | returns _ hp ht hl =>
    exact ⟨h.held, h.later, h.drained, h.whereabouts,
      fun hr => absurd hr (by simp),
      fun hp => Connection.Phase.noConfusion hp⟩

theorem kept_turn (h : Kept s) (cancelFirst : Bool) : Kept (s.turn cancelFirst) := by
  cases hb : s.begun with
  | false =>
    rw [show s.turn cancelFirst = _ from if_neg (by simp [hb])]
    exact kept_begins h hb
  | true =>
    have st := step_turn s cancelFirst
    exact ⟨joined_step h.joined st hb, stocked_step h.stocked st hb⟩

theorem kept_start (h : Kept s) (f : Nat) : Kept (s.perform (.start f)) := by
  by_cases hp : s.connection.phase = .stoppingFactories
  · rw [show s.perform (.start f) = s from if_pos hp]
    exact h
  · rw [show s.perform (.start f) = s.startFactory f from if_neg hp]
    exact ⟨h.joined.startFactory f, h.stocked.startFactory hp f⟩

theorem kept_perform (h : Kept s) (a : Act) : Kept (s.perform a) := by
  obtain ⟨hj, hs⟩ := h
  cases a with
  | shutDown =>
    exact ⟨⟨hj.begun, hj.members, hj.started, hj.gated, fun _ => rfl, hj.heartbeat, hj.waited,
      hj.remaining, hj.joining⟩,
      ⟨hs.held, hs.later, hs.drained, hs.whereabouts, hs.untouched, hs.taken⟩⟩
  | publish | obtain =>
    exact ⟨hj.aside .., ⟨hs.held, hs.later, hs.drained, hs.whereabouts, hs.untouched, hs.taken⟩⟩
  | ends task outcome => exact kept_ends ⟨hj, hs⟩ task outcome
  | start f => exact kept_start ⟨hj, hs⟩ f
  | take f => exact kept_take ⟨hj, hs⟩ f
  | turn cancelFirst => exact kept_turn ⟨hj, hs⟩ cancelFirst

theorem kept_run (acts : List Act) : ∀ {s : Windup}, Kept s → Kept (s.run acts) := by
  induction acts with
  | nil => exact fun h => h
  | cons a acts ih => exact fun h => ih (kept_perform h a)

/-! ## What a step leaves as it is -/

theorem perform_ends_eq (s : Windup) (task : Nat) (outcome : Outcome) :
    ∃ ends, s.perform (.ends task outcome) = { s with ends } := by
  unfold perform
  dsimp only
  split
  · exact ⟨_, rfl⟩
  · exact ⟨s.ends, rfl⟩

theorem perform_start_eq (s : Windup) (f : Nat) : ∃ factories held spawned next,
    s.perform (.start f) = { s with factories, held, spawned, next } := by
  unfold perform
  dsimp only
  split
  · exact ⟨s.factories, s.held, s.spawned, s.next, rfl⟩
  · exact ⟨_, _, _, _, rfl⟩

/-- Once the call has begun, neither what it was built from nor the shutdown changes with a turn. -/
structure SameCall (s s' : Windup) : Prop where
  plan : s'.plan = s.plan
  shutDown : s'.shutDown = s.shutDown
  begun : s'.begun = true
  elsewhere : s'.elsewhere = s.elsewhere

theorem sameCall_step (st : Step s s') : SameCall s s' := by
  cases st with
  | idle h => exact ⟨rfl, rfl, h.1, rfl⟩
  | begins _ =>
    obtain ⟨_, _, _, _, _, he⟩ := begins_eq s
    rw [he]
    exact ⟨rfl, rfl, rfl, rfl⟩
  | opens hb | misses hb | stops hb | joinsHeartbeat hb | joinsController hb | takes hb | joins hb
  | returns hb => exact ⟨rfl, rfl, hb, rfl⟩

theorem sameCall_turn (s : Windup) (cancelFirst : Bool) : SameCall s (s.turn cancelFirst) :=
  sameCall_step (step_turn s cancelFirst)

theorem plan_perform (s : Windup) (a : Act) : (s.perform a).plan = s.plan := by
  cases a with
  | shutDown | publish | obtain | take => rfl
  | ends task outcome =>
    obtain ⟨_, he⟩ := perform_ends_eq s task outcome
    rw [he]
  | start f =>
    obtain ⟨_, _, _, _, he⟩ := perform_start_eq s f
    rw [he]
  | turn cancelFirst => exact (sameCall_turn s cancelFirst).plan

theorem plan_run (acts : List Act) : ∀ s : Windup, (s.run acts).plan = s.plan := by
  induction acts with
  | nil => exact fun s => rfl
  | cons a acts ih => exact fun s => (ih (s.perform a)).trans (plan_perform s a)

/-- As long as nobody else waits for tasks, none is taken over. -/
theorem elsewhere_run (acts : List Act) (h : ∀ f, .take f ∉ acts) :
    ∀ s : Windup, (s.run acts).elsewhere = s.elsewhere := by
  induction acts with
  | nil => exact fun s => rfl
  | cons a acts ih =>
    intro s
    refine (ih (fun f hf => h f (List.mem_cons_of_mem _ hf)) (s.perform a)).trans ?_
    cases a with
    | shutDown | publish | obtain => rfl
    | ends task outcome =>
      obtain ⟨_, he⟩ := perform_ends_eq s task outcome
      rw [he]
    | start f =>
      obtain ⟨_, _, _, _, he⟩ := perform_start_eq s f
      rw [he]
    | take f => exact absurd (List.mem_cons_self ..) (h f)
    | turn cancelFirst => exact (sameCall_turn s cancelFirst).elsewhere

/-! ## The return -/

theorem outcome?_eq_some {o : Outcome} :
    s.outcome? = some o ↔ s.connection.phase = .ended o := by
  unfold outcome?
  cases s.connection.phase <;> simp

/-- A call that returns has waited for its factories, and nothing is left of that wait. -/
theorem returns_of_step (st : Step s s') {o : Outcome} (hnot : s.outcome? = none)
    (ho : s'.outcome? = some o) : s.connection.phase = .stoppingFactories ∧
      s.drain.tasks = [] ∧ s.drain.later = [] ∧
      o = Connection.result s.connection.heartbeat s.connection.controllerEnds := by
  have hp' := outcome?_eq_some.mp ho
  cases st with
  | idle => exact absurd (hnot.symm.trans ho) (by simp)
  | begins _ =>
    obtain ⟨_, _, _, _, _, he⟩ := begins_eq s
    rw [he] at ho
    exact absurd (hnot.symm.trans ho) (by simp)
  | opens _ hp | misses _ hp | stops _ hp => exact Connection.Phase.noConfusion hp'
  | joinsHeartbeat | joinsController => exact absurd hp' (Connection.phase_join_ne_ended _ _ o)
  | takes _ hp | joins _ hp => exact absurd (hp.symm.trans hp') (by simp)
  | returns _ hp ht hl => exact ⟨hp, ht, hl, (Connection.Phase.ended.inj hp').symm⟩

/-- Only a turn of the call makes it return. -/
theorem exists_turn_of_returns {a : Act} {o : Outcome} (hnot : s.outcome? = none)
    (ho : (s.perform a).outcome? = some o) : ∃ cancelFirst, a = .turn cancelFirst := by
  cases a with
  | turn cancelFirst => exact ⟨cancelFirst, rfl⟩
  | shutDown | publish | obtain | take => exact absurd (hnot.symm.trans ho) (by simp)
  | ends task outcome =>
    obtain ⟨_, he⟩ := perform_ends_eq s task outcome
    rw [he] at ho
    exact absurd (hnot.symm.trans ho) (by simp)
  | start f =>
    obtain ⟨_, _, _, _, he⟩ := perform_start_eq s f
    rw [he] at ho
    exact absurd (hnot.symm.trans ho) (by simp)

/-- When the call can return, nothing that it had to wait for goes on. -/
theorem Kept.all_ended (h : Kept s) (hp : s.connection.phase = .stoppingFactories)
    (ht : s.drain.tasks = []) (hl : s.drain.later = []) :
    s.shutDown = true ∧ s.ends s.heartbeat = some s.connection.heartbeat ∧
      s.controllers.map s.ends = s.connection.controllerEnds.map some ∧
      ∀ f ∈ s.plan.factories, ∀ t ∈ s.spawned f, (s.ends t).isSome = true ∨ t ∈ s.elsewhere := by
  have hr : s.connection.phase.rank = 4 := by simp [hp]
  obtain ⟨waited, hcontrollers, hwaited⟩ := h.joined.waited
  have hnil : s.remaining = [] := by
    have hlength := h.joined.remaining
    rw [show s.connection.unjoined = 0 by simp [Connection.unjoined, hp]] at hlength
    exact List.eq_nil_of_length_eq_zero hlength
  rw [hnil, List.append_nil] at hcontrollers
  refine ⟨h.joined.shutDown (by omega), h.joined.heartbeat (by omega), hcontrollers ▸ hwaited,
    fun f hf t hmem => ?_⟩
  have hheld : s.held f = [] :=
    (h.stocked.taken hp f hf).resolve_left (hl ▸ List.not_mem_nil)
  rcases h.stocked.whereabouts f t hmem with hmem | hmem | hmem | hmem
  · exact absurd hmem (hheld ▸ List.not_mem_nil)
  · exact Or.inr hmem
  · exact absurd hmem (ht ▸ List.not_mem_nil)
  · exact Or.inl hmem

/-- The first panic among some tasks is the first among the ways in which they ended. -/
theorem findSome?_panicOf {tasks : List Nat} {outcomes : List Outcome}
    (h : tasks.map s.ends = outcomes.map some) :
    outcomes.findSome? panicOf = tasks.findSome? s.panic? := by
  have hpanic : ∀ t, s.panic? t = (s.ends t).bind panicOf := fun _ => rfl
  calc outcomes.findSome? panicOf
      = (outcomes.map some).findSome? fun o => o.bind panicOf := by
        rw [List.findSome?_map]
        rfl
    _ = tasks.findSome? s.panic? := by
        rw [← h, List.findSome?_map]
        rfl

/-- The result of a call, read off the ways in which its tasks have ended. -/
theorem result_cases {heartbeat : Outcome} {outcomes : List Outcome} {tasks : List Nat}
    (h : tasks.map s.ends = (heartbeat :: outcomes).map some) :
    (Connection.result heartbeat outcomes = .finished ↔ ∀ t ∈ tasks, s.panic? t = none) ∧
    ∀ text, Connection.result heartbeat outcomes = .failed (.taskPanicked text) ↔
      ∃ before t after, tasks = before ++ t :: after ∧ (∀ u ∈ before, s.panic? u = none) ∧
        s.panic? t = some text := by
  unfold Connection.result
  rw [findSome?_panicOf h]
  constructor
  · rw [← List.findSome?_eq_none_iff]
    cases tasks.findSome? s.panic? <;> simp
  · intro text
    have hsome : tasks.findSome? s.panic? = some text ↔ ∃ before t after,
        tasks = before ++ t :: after ∧ (∀ u ∈ before, s.panic? u = none) ∧
          s.panic? t = some text := by
      rw [List.findSome?_eq_some_iff]
      simp only [and_comm]
    rw [← hsome]
    cases tasks.findSome? s.panic? <;> simp

/-! ## The way to the return -/

/-- A task that the call has to wait for and that goes on. -/
def Awaits (s : Windup) (t : Nat) : Prop :=
  s.ends t = none ∧
    (t = s.heartbeat ∨ t ∈ s.controllers ∨ ∃ f ∈ s.plan.factories, t ∈ s.spawned f)

/-- A call that has nothing to do after the shutdown has returned, or it waits for a task. -/
theorem Kept.still_cases (h : Kept s) (hs : s.shutDown = true) (hstill : Still s) :
    (∃ o, s.outcome? = some o) ∨ ∃ t, s.Awaits t := by
  obtain ⟨-, hstill⟩ := hstill
  cases hp : s.connection.phase with
  | gated | running =>
    rw [hp] at hstill
    exact absurd (hs.symm.trans hstill) (by simp)
  | joiningHeartbeat =>
    rw [hp] at hstill
    exact Or.inr ⟨s.heartbeat, hstill, Or.inl rfl⟩
  | joiningControllers n =>
    rw [hp] at hstill
    have hlength := h.joined.remaining
    rw [show s.connection.unjoined = n by simp [Connection.unjoined, hp]] at hlength
    obtain ⟨waited, hcontrollers, -⟩ := h.joined.waited
    cases hk : s.remaining with
    | nil =>
      rw [hk, List.length_nil] at hlength
      exact absurd hp (hlength ▸ h.joined.joining)
    | cons k rest =>
      have hmem : k ∈ s.controllers := by
        rw [hcontrollers, hk]
        exact List.mem_append_right _ (List.mem_cons_self ..)
      exact Or.inr ⟨k, hstill k rest hk, Or.inr (Or.inl hmem)⟩
  | stoppingFactories =>
    rw [hp] at hstill
    obtain ⟨t, tasks, ht, he⟩ := hstill
    exact Or.inr ⟨t, he, Or.inr (Or.inr (h.stocked.drained t (ht ▸ List.mem_cons_self ..)))⟩
  | ended o => exact Or.inl ⟨o, outcome?_eq_some.mpr hp⟩

/-- The most turns that the wait for the factories can take. -/
def drainLeft (s : Windup) : Nat :=
  s.drain.tasks.length + s.drain.later.length + (s.drain.later.flatMap s.held).length

/-- The most turns that can be left. -/
def left (s : Windup) : Nat :=
  s.drainLeft + match s.connection.phase with
    | .gated => 4 + s.plan.controllers + s.remaining.length
    | .running => 3 + s.remaining.length
    | .joiningHeartbeat => 2 + s.remaining.length
    | .joiningControllers _ => 1 + s.remaining.length
    | .stoppingFactories => 1
    | .ended _ => 0

theorem length_flatMap_update_le (held : Nat → List Nat) (f : Nat) (fs : List Nat) :
    (fs.flatMap (Function.update held f [])).length ≤ (fs.flatMap held).length := by
  induction fs with
  | nil => exact Nat.le_refl _
  | cons g fs ih =>
    have hg : (Function.update held f [] g).length ≤ (held g).length := by
      by_cases hgf : g = f
      · rw [hgf, Function.update_self]
        exact Nat.zero_le _
      · rw [Function.update_of_ne hgf]
    rw [List.flatMap_cons, List.flatMap_cons, List.length_append, List.length_append]
    omega

/-- A turn with something to do leaves fewer. -/
theorem left_step (st : Step s s') (hb : s.begun = true) : Still s ∨ s'.left < s.left := by
  cases st with
  | idle hstill => exact Or.inl hstill
  | begins hb' => exact absurd (hb.symm.trans hb') (by simp)
  | opens _ hp =>
    refine Or.inr ?_
    simp only [left, drainLeft, hp, List.length_range']
    omega
  | misses _ hp | stops _ hp =>
    refine Or.inr ?_
    simp only [left, drainLeft, hp]
    omega
  | joinsHeartbeat _ hp ho =>
    refine Or.inr ?_
    by_cases hzero : s.connection.started = 0 <;>
      simp only [left, drainLeft, hp, Connection.join, hzero, if_true, if_false] <;> omega
  | @joinsController _ n hp k rest hk o ho =>
    refine Or.inr ?_
    by_cases hzero : n - 1 = 0 <;>
      simp only [left, drainLeft, hp, hk, List.length_cons, Connection.join, hzero, if_true,
        if_false] <;> omega
  | @takes _ hp f later ht hl =>
    have hlater := length_flatMap_update_le s.held f later
    refine Or.inr ?_
    simp only [left, drainLeft, hp, ht, hl, List.length_nil, List.length_cons, List.flatMap_cons,
      List.length_append]
    omega
  | joins _ hp ht he =>
    refine Or.inr ?_
    simp only [left, drainLeft, hp, ht, List.length_cons]
    omega
  | returns _ hp ht hl =>
    refine Or.inr ?_
    simp only [left, drainLeft, hp]
    omega

/-- After the shutdown a call that has begun takes finitely many turns until it has returned or
waits for a task. -/
theorem settles (cancelFirst : Bool) (n : Nat) : ∀ {s : Windup}, Kept s → s.begun = true →
    s.shutDown = true → s.left ≤ n → ∃ k, let s' := s.run (List.replicate k (.turn cancelFirst));
      (∃ o, s'.outcome? = some o) ∨ ∃ t, s'.Awaits t := by
  induction n with
  | zero =>
    intro s h hb hs hle
    refine ⟨0, h.still_cases hs ((left_step (step_turn s cancelFirst) hb).resolve_right ?_)⟩
    omega
  | succ n ih =>
    intro s h hb hs hle
    rcases left_step (step_turn s cancelFirst) hb with hstill | hlt
    · exact ⟨0, h.still_cases hs hstill⟩
    · have hsame := sameCall_turn s cancelFirst
      obtain ⟨k, hk⟩ :=
        ih (kept_turn h cancelFirst) hsame.begun (hsame.shutDown.trans hs) (by omega)
      exact ⟨k + 1, hk⟩

/-- A connection that is run, among others that use its factories.

* The call returns only after the shutdown, when the heartbeat, all controllers that it started and
  all tasks that its factories have spawned have ended, but for those that another wait had taken
  over; if there is no other wait there are none of these.
* It succeeds if neither the heartbeat nor a controller has panicked.  Else its error is the first
  panic among the heartbeat and the controllers in their order.  How the tasks of the factories have
  ended plays no part.
* After the shutdown it takes finitely many turns until it has returned or waits for one of these
  tasks, which goes on. -/
theorem returns_last (plan : Plan) (barrier : Barrier) (factories : Nat → Factory Nat)
    (acts : List Act) :
    let s := (new plan barrier factories).run acts
    (∀ a o, s.outcome? = none → (s.perform a).outcome? = some o →
      s.shutDown = true ∧ (s.ends s.heartbeat).isSome = true ∧
      (∀ k ∈ s.controllers, (s.ends k).isSome = true) ∧
      (∀ f ∈ plan.factories, ∀ t ∈ s.spawned f, (s.ends t).isSome = true ∨ t ∈ s.elsewhere) ∧
      (o = .finished ↔ ∀ t ∈ s.heartbeat :: s.controllers, s.panic? t = none) ∧
      ∀ text, o = .failed (.taskPanicked text) ↔ ∃ before t after,
        s.heartbeat :: s.controllers = before ++ t :: after ∧
        (∀ u ∈ before, s.panic? u = none) ∧ s.panic? t = some text) ∧
    ((∀ f, .take f ∉ acts) → s.elsewhere = []) ∧
    (s.shutDown = true → ∀ cancelFirst, ∃ n,
      let s' := s.run (List.replicate n (.turn cancelFirst))
      (∃ o, s'.outcome? = some o) ∨ ∃ t, s'.ends t = none ∧
        (t = s'.heartbeat ∨ t ∈ s'.controllers ∨ ∃ f ∈ plan.factories, t ∈ s'.spawned f)) := by
  intro s
  have h : Kept s :=
    kept_run acts ⟨joined_new plan barrier factories, stocked_new plan barrier factories⟩
  have hplan : s.plan = plan := plan_run acts _
  refine ⟨fun a o hnot ho => ?_, fun htake => elsewhere_run acts htake _, fun hs cancelFirst => ?_⟩
  · obtain ⟨cancelFirst, rfl⟩ := exists_turn_of_returns hnot ho
    obtain ⟨hp, ht, hl, rfl⟩ := returns_of_step (step_turn s cancelFirst) hnot ho
    obtain ⟨hshut, hheart, hcontrollers, hstock⟩ := h.all_ended hp ht hl
    have hends : (s.heartbeat :: s.controllers).map s.ends =
        (s.connection.heartbeat :: s.connection.controllerEnds).map some :=
      congrArg₂ List.cons hheart hcontrollers
    obtain ⟨hfinished, hfailed⟩ := result_cases hends
    refine ⟨hshut, by rw [hheart]; rfl, fun k hk => ?_, hplan ▸ hstock, hfinished, hfailed⟩
    obtain ⟨o, -, ho⟩ := List.mem_map.mp (hcontrollers ▸ List.mem_map_of_mem hk)
    rw [← ho]
    rfl
  · obtain ⟨n, hn⟩ : ∃ n, (∃ o, (s.run (List.replicate n (.turn cancelFirst))).outcome? = some o) ∨
        ∃ t, (s.run (List.replicate n (.turn cancelFirst))).Awaits t := by
      cases hb : s.begun with
      | true => exact settles cancelFirst s.left h hb hs (Nat.le_refl _)
      | false =>
        have hsame := sameCall_turn s cancelFirst
        obtain ⟨n, hn⟩ := settles cancelFirst _ (kept_turn h cancelFirst) hsame.begun
          (hsame.shutDown.trans hs) (Nat.le_refl _)
        exact ⟨n + 1, hn⟩
    refine ⟨n, hn.imp_right fun ⟨t, hgoes, ht⟩ => ⟨t, hgoes, ?_⟩⟩
    rwa [plan_run, hplan] at ht

/-- A call with one factory and no controllers, shut down before its barrier is ready.  While it
joins the heartbeat, another wait takes over the task of its factory. -/
def overtaken : Windup :=
  (new ⟨"ns/s", [0], 0, 1⟩ ⟨1, .initializing, 0, false⟩ fun _ => .new "provider" .standard).run
    [.obtain 0 "pods" "Pod" 0, .turn false, .shutDown, .turn false, .turn false, .take 0,
      .ends 1 .finished, .turn false, .turn false]

/-- The call returns although the task goes on. -/
theorem returns_early : overtaken.outcome? = none ∧
    (overtaken.perform (.turn false)).outcome? = some .finished ∧
    overtaken.spawned 0 = [0] ∧ overtaken.ends 0 = none := by
  decide

end Windup

end InformerHub
