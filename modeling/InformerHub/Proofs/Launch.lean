import Mathlib.Data.List.Nodup
import Mathlib.Data.List.Perm.Basic
import InformerHub.Connection
import InformerHub.Proofs.Supervision

/-!
# A connection starts its controllers once

Two tasks share a barrier: its loop, which publishes states for ever, and the connection's own task,
which waits for the first readiness and then spawns the controllers.  `Launch` is a run of both
together with the controllers' first turns.  Tasks take their turns in any order; time passes only
while neither the connection nor a spawned controller has anything to do.

> If the first ready heartbeat comes before the shutdown, each controller is started once, at that
> instant, with the configured number of workers.  If the shutdown comes first, none is ever started
> (`started_once`).

`Supervision.Turn` says what the loop can do, and `readied_turn` what that is for the latch.
`Connection.Turn` says what the connection can do.  `Stage` is the invariant: the connection is
gated, or has spawned its controllers, or has been shut down without them.
-/

namespace InformerHub

/-! ## The latch -/

namespace Supervision

variable {s : Supervision}

/-- The time of a mark that shows readiness. -/
def readyAt? : Nat × Mark → Option Nat
  | (t, .published .ready) => some t
  | _ => none

/-- When a heartbeat ended ready for the first time. -/
def firstReady (s : Supervision) : Option Nat := s.marks.findSome? readyAt?

theorem firstReady_note (s : Supervision) (m : Mark) :
    (s.note m).firstReady = s.firstReady.or (readyAt? (s.now, m)) := by
  unfold firstReady note
  rw [List.findSome?_append, List.findSome?_singleton]

theorem mem_marks_of_firstReady {t : Nat} (h : s.firstReady = some t) :
    (t, .published .ready) ∈ s.marks := by
  obtain ⟨mark, hmark, ht⟩ := List.exists_of_findSome?_eq_some h
  unfold readyAt? at ht
  split at ht
  next =>
    obtain rfl := Option.some.inj ht
    exact hmark
  next => exact absurd ht (by simp)

/-- The latch of the barrier is set as soon as a heartbeat has ended ready. -/
structure Latched (s : Supervision) : Prop where
  latch : s.barrier.readyOnce = s.firstReady.isSome
  past : ∀ t, s.firstReady = some t → t ≤ s.now

/-- What a turn of the loop does to the latch: nothing, or a heartbeat ends ready. -/
theorem readied_turn (s : Supervision) (answers : Option (List String)) (returned : Bool) :
    (s.turn answers returned).now = s.now ∧ (s.turn answers returned).shutDown = s.shutDown ∧
    ((s.turn answers returned).firstReady = s.firstReady ∧
        (s.turn answers returned).barrier.readyOnce = s.barrier.readyOnce ∨
      s.shutDown = false ∧ (s.turn answers returned).firstReady = s.firstReady.or (some s.now) ∧
        (s.turn answers returned).barrier.readyOnce = true) := by
  have hsame : ∀ {s' : Supervision} {m : Mark}, readyAt? (s'.now, m) = none →
      (s'.note m).firstReady = s'.firstReady := fun hm => by
    rw [firstReady_note, hm, Option.or_none]
  have hready : ∀ s' : Supervision,
      (s'.note (.published .ready)).firstReady = s'.firstReady.or (some s'.now) :=
    fun s' => firstReady_note s' _
  have ht := turn_cases s answers returned
  generalize s.turn answers returned = s' at ht ⊢
  cases ht with
  | idle | stops | breaks | returns => exact ⟨rfl, rfl, Or.inl ⟨rfl, rfl⟩⟩
  | waits => exact ⟨rfl, rfl, Or.inl ⟨hsame rfl, Bool.or_false _⟩⟩
  | calls => exact ⟨rfl, rfl, Or.inl ⟨hsame rfl, rfl⟩⟩
  | settles _ hs => exact ⟨rfl, rfl, Or.inr ⟨hs, hready _, Bool.or_true _⟩⟩
  | @decides d r _ hs =>
    cases r with
    | ready => exact ⟨rfl, rfl, Or.inr ⟨hs, hready _, Bool.or_true _⟩⟩
    | degraded waited => exact ⟨rfl, rfl, Or.inl ⟨hsame rfl, Bool.or_false _⟩⟩

end Supervision

namespace Barrier

variable {b : Barrier} {cancelled cancelFirst : Bool}

/-- A wait that is not cancelled ends as soon as the barrier has been ready. -/
theorem awaitReady?_of_readyOnce (h : b.readyOnce = true) (cancelFirst : Bool) :
    b.awaitReady? false cancelFirst = some true := by
  simp [awaitReady?, h]

theorem isSome_awaitReady? :
    (b.awaitReady? cancelled cancelFirst).isSome = (b.readyOnce || cancelled) := by
  unfold awaitReady?
  cases b.readyOnce <;> cases cancelled <;> cases cancelFirst <;> rfl

theorem readyOnce_of_awaitReady? (h : b.awaitReady? cancelled cancelFirst = some true) :
    b.readyOnce = true := by
  unfold awaitReady? at h
  split at h
  next hr => exact (Bool.and_eq_true_iff.mp hr).1
  next => split at h <;> simp at h

theorem cancelled_of_awaitReady? (h : b.awaitReady? cancelled cancelFirst = some false) :
    cancelled = true := by
  unfold awaitReady? at h
  split at h
  next => simp at h
  next => split at h <;> simp_all

end Barrier

/-! ## What a connection can do -/

namespace Connection

/-- The connection after a turn of its task, and what it does. -/
def turn (c : Connection) (gate : Option Bool) (shutDown : Bool)
    (heartbeat controller : Option Outcome) (factoriesStopped : Bool) :
    Connection × List Effect :=
  match c.due? gate shutDown heartbeat controller factoriesStopped with
  | some signal => c.step signal
  | none => (c, [])

/-- Effects that start no controllers. -/
def Quiet (effects : List Effect) : Prop := ∀ workers, .startControllers workers ∉ effects

/-- All that a turn can do, given how the wait for the barrier has ended. -/
inductive Turn (c : Connection) (gate : Option Bool) : Connection × List Effect → Prop
  | idle (h : c.phase = .gated → gate = none) : Turn c gate (c, [])
  | opens {log : LogRecord} (h : c.phase = .gated) (hg : gate = some true) :
    Turn c gate ({ c with phase := .running, started := c.controllers },
      [.log log, .startControllers c.workers])
  | misses {effects : List Effect} (h : c.phase = .gated) (hg : gate = some false)
      (he : Quiet effects) : Turn c gate ({ c with phase := .running }, effects)
  | proceeds {c' : Connection} {effects : List Effect} (h : c.phase ≠ .gated)
      (h' : c'.phase ≠ .gated) (hc : c'.controllers = c.controllers) (hw : c'.workers = c.workers)
      (he : Quiet effects) : Turn c gate (c', effects)

theorem quiet_nil : Quiet [] := fun _ h => absurd h List.not_mem_nil

theorem quiet_log (log : LogRecord) : Quiet [.log log] := fun _ h => by simp at h

theorem quiet_logControllerEnd (c : Connection) (o : Outcome) : Quiet (c.logControllerEnd o) := by
  unfold logControllerEnd
  split
  · exact quiet_log _
  · exact quiet_nil

theorem phase_join_ne (c : Connection) (n : Nat) : (c.join n).phase ≠ .gated := by
  unfold join
  split <;> simp

/-- A turn does one of the things that are listed. -/
theorem turn_cases (c : Connection) (gate : Option Bool) (shutDown : Bool)
    (heartbeat controller : Option Outcome) (factoriesStopped : Bool) :
    Turn c gate (c.turn gate shutDown heartbeat controller factoriesStopped) := by
  unfold turn due?
  cases hp : c.phase with
  | gated =>
    cases gate with
    | none => exact .idle fun _ => rfl
    | some ready =>
      cases ready with
      | true =>
        simp only [Option.map_some, if_true, step, hp]
        exact .opens hp rfl
      | false =>
        simp only [Option.map_some, Bool.false_eq_true, if_false, step, hp]
        exact .misses hp rfl (quiet_log _)
  | running =>
    cases shutDown with
    | false => exact .idle fun h => by simp [hp] at h
    | true =>
      simp only [if_true, step, hp]
      exact .proceeds (by simp [hp]) (by simp) rfl rfl quiet_nil
  | joiningHeartbeat =>
    cases heartbeat with
    | none => exact .idle fun h => by simp [hp] at h
    | some o =>
      simp only [Option.map_some, step, hp]
      exact .proceeds (by simp [hp]) (phase_join_ne _ _) rfl rfl quiet_nil
  | joiningControllers n =>
    cases controller with
    | none => exact .idle fun h => by simp [hp] at h
    | some o =>
      simp only [Option.map_some, step, hp]
      exact .proceeds (by simp [hp]) (phase_join_ne _ _) rfl rfl (quiet_logControllerEnd c o)
  | stoppingFactories =>
    cases factoriesStopped with
    | false => exact .idle fun h => by simp [hp] at h
    | true =>
      simp only [if_true, step, hp]
      exact .proceeds (by simp [hp]) (by simp) rfl rfl (quiet_log _)
  | ended o => exact .idle fun h => by simp [hp] at h

end Connection

/-! ## The run -/

/-- A controller that is to run with a number of workers. -/
structure ControllerTask where
  controller : Nat
  workers : Nat
  deriving DecidableEq, Repr

/-- A connection, its barrier, and its controllers. -/
structure Launch where
  loop : Supervision
  connection : Connection
  /-- Controllers that have been spawned and have not had their first turn. -/
  spawned : List ControllerTask
  /-- The controllers that were started, and when, the first one first. -/
  starts : List (Nat × ControllerTask)
  /-- When the shutdown came. -/
  shutAt : Option Nat

namespace Launch

inductive Act where
  /-- Time passes, if neither the connection nor a controller has anything to do. -/
  | pass (time : Nat)
  | shutDown
  /-- The loop of the barrier takes a turn. -/
  | turn (answers : Option (List String)) (returned : Bool)
  /-- The connection takes a turn: whether it looks at the shutdown first, how the heartbeat and the
  next controller have ended, and whether the factories have stopped. -/
  | supervise (cancelFirst : Bool) (heartbeat controller : Option Outcome) (factoriesStopped : Bool)
  /-- A controller takes its first turn. -/
  | begins (controller : Nat)

/-- How the connection's wait for the barrier has ended, if it has. -/
def gate (s : Launch) (cancelFirst : Bool) : Option Bool :=
  s.loop.barrier.awaitReady? s.loop.shutDown cancelFirst

/-- Whether the connection has a controller to spawn or to give up, or a controller to begin. -/
def busy (s : Launch) : Bool :=
  (s.connection.phase == .gated && (s.gate false).isSome) || !s.spawned.isEmpty

def carryOut (s : Launch) : Connection.Effect → Launch
  | .startControllers workers =>
    let tasks := (List.range s.connection.controllers).map fun k => ⟨k, workers⟩
    { s with spawned := s.spawned ++ tasks }
  | _ => s

def supervise (s : Launch) (cancelFirst : Bool) (heartbeat controller : Option Outcome)
    (factoriesStopped : Bool) : Launch :=
  let after := s.connection.turn (s.gate cancelFirst) s.loop.shutDown heartbeat controller
    factoriesStopped
  after.2.foldl carryOut { s with connection := after.1 }

def begins (s : Launch) (controller : Nat) : Launch :=
  match s.spawned.find? fun task => task.controller = controller with
  | some task =>
    { s with spawned := s.spawned.erase task, starts := s.starts ++ [(s.loop.now, task)] }
  | none => s

def perform (s : Launch) : Act → Launch
  | .pass time => if s.busy then s else { s with loop := s.loop.perform (.pass time) }
  | .shutDown =>
    { s with loop := s.loop.perform .shutDown, shutAt := s.shutAt.or (some s.loop.now) }
  | .turn answers returned => { s with loop := s.loop.turn answers returned }
  | .supervise cancelFirst heartbeat controller factoriesStopped =>
    s.supervise cancelFirst heartbeat controller factoriesStopped
  | .begins controller => s.begins controller

/-- A connection that begins with a number of factories and controllers. -/
def begin (b : Barrier) (waiters now : Nat) (secretKey : String)
    (factories controllers workers : Nat) : Launch :=
  let (connection, effects) := Connection.begin secretKey factories controllers workers
  effects.foldl carryOut ⟨.begin b waiters now, connection, [], [], none⟩

def run (s : Launch) (acts : List Act) : Launch := acts.foldl perform s

/-! ## What holds at every time -/

/-- Every controller, started at one instant. -/
def complete (t controllers workers : Nat) : List (Nat × ControllerTask) :=
  (List.range controllers).map fun k => (t, ⟨k, workers⟩)

theorem nodup_complete (t controllers workers : Nat) :
    ((complete t controllers workers).map Prod.snd).Nodup := by
  unfold complete
  rw [List.map_map]
  refine List.Nodup.map ?_ List.nodup_range
  intro k k' h
  exact congrArg ControllerTask.controller h

theorem mem_complete {t controllers workers : Nat} {start : Nat × ControllerTask} :
    start ∈ complete t controllers workers ↔
      start.1 = t ∧ start.2.controller < controllers ∧ start.2.workers = workers := by
  unfold complete
  rw [List.mem_map]
  constructor
  · rintro ⟨k, hk, rfl⟩
    exact ⟨rfl, List.mem_range.mp hk, rfl⟩
  · rintro ⟨rfl, hk, rfl⟩
    exact ⟨start.2.controller, List.mem_range.mpr hk, rfl⟩

/-- How far the start of the controllers has come. -/
inductive Stage (n workers : Nat) (s : Launch) : Prop
  /-- The connection waits, and time has not passed since the barrier was ready. -/
  | gated (hphase : s.connection.phase = .gated) (hspawned : s.spawned = [])
      (hstarts : s.starts = []) (hnow : ∀ t, s.loop.firstReady = some t → s.loop.now = t)
  | launched (t : Nat) (hphase : s.connection.phase ≠ .gated) (hready : s.loop.firstReady = some t)
      (hall : (s.starts ++ s.spawned.map (Prod.mk t)).Perm (complete t n workers))
      (hnow : s.spawned ≠ [] → s.loop.now = t)
  /-- The shutdown came first, or at the instant of the first readiness. -/
  | withheld (u : Nat) (hphase : s.connection.phase ≠ .gated) (hspawned : s.spawned = [])
      (hstarts : s.starts = []) (hshut : s.shutAt = some u)
      (hready : ∀ t, s.loop.firstReady = some t → t = u)

structure Kept (n workers : Nat) (s : Launch) : Prop where
  forAll : s.connection.controllers = n
  withWorkers : s.connection.workers = workers
  latched : s.loop.Latched
  shut : s.shutAt.isSome = s.loop.shutDown
  shutPast : ∀ u, s.shutAt = some u → u ≤ s.loop.now
  /-- After the shutdown no heartbeat ends ready. -/
  order : ∀ t u, s.loop.firstReady = some t → s.shutAt = some u → t ≤ u
  stage : Stage n workers s

variable {n workers : Nat} {s : Launch}

/-! ## One act -/

theorem readyOnce_of_not_busy (h : s.busy = false) (hphase : s.connection.phase = .gated) :
    s.loop.barrier.readyOnce = false := by
  unfold busy gate at h
  rw [Barrier.isSome_awaitReady?, hphase] at h
  obtain ⟨hgate, -⟩ := Bool.or_eq_false_iff.mp h
  exact (Bool.or_eq_false_iff.mp hgate).1

theorem spawned_of_not_busy (h : s.busy = false) : s.spawned = [] := by
  unfold busy at h
  obtain ⟨-, hspawned⟩ := Bool.or_eq_false_iff.mp h
  simpa using hspawned

theorem kept_pass (h : Kept n workers s) (time : Nat) :
    Kept n workers (s.perform (.pass time)) := by
  show Kept n workers (if s.busy then s else { s with loop := s.loop.perform (.pass time) })
  split
  next => exact h
  next hbusy =>
    have hbusy : s.busy = false := Bool.eq_false_iff.mpr hbusy
    have hpast : ∀ t, s.loop.firstReady = some t → t ≤ s.loop.now + time := by
      intro t ht
      have := h.latched.past t ht
      omega
    have hshut : ∀ u, s.shutAt = some u → u ≤ s.loop.now + time := by
      intro u hu
      have := h.shutPast u hu
      omega
    refine ⟨h.forAll, h.withWorkers, ⟨h.latched.latch, hpast⟩, h.shut, hshut, h.order, ?_⟩
    cases h.stage with
    | gated hphase hspawned hstarts _ =>
      -- it waits for a barrier that has not been ready
      refine .gated hphase hspawned hstarts fun t ht => ?_
      have hlatch := h.latched.latch
      rw [readyOnce_of_not_busy hbusy hphase] at hlatch
      have hsome : s.loop.firstReady = some t := ht
      rw [hsome] at hlatch
      exact absurd hlatch (by simp)
    | launched t hphase hready hall _ =>
      exact .launched t hphase hready hall fun hne => absurd (spawned_of_not_busy hbusy) hne
    | withheld u hphase hspawned hstarts hu hready =>
      exact .withheld u hphase hspawned hstarts hu hready

theorem kept_shutDown (h : Kept n workers s) : Kept n workers (s.perform .shutDown) := by
  have hcases : ∀ u, s.shutAt.or (some s.loop.now) = some u → s.shutAt = some u ∨
      s.shutAt = none ∧ u = s.loop.now := by
    intro u hu
    cases hs : s.shutAt with
    | none =>
      rw [hs] at hu
      exact Or.inr ⟨rfl, (Option.some.inj hu).symm⟩
    | some u' =>
      rw [hs] at hu
      exact Or.inl hu
  refine ⟨h.forAll, h.withWorkers, ⟨h.latched.latch, h.latched.past⟩, ?_, ?_, ?_, ?_⟩
  · show (s.shutAt.or (some s.loop.now)).isSome = true
    cases s.shutAt <;> rfl
  · intro u hu
    rcases hcases u hu with hold | ⟨-, rfl⟩
    · exact h.shutPast u hold
    · exact Nat.le_refl _
  · intro t u ht hu
    rcases hcases u hu with hold | ⟨-, rfl⟩
    · exact h.order t u ht hold
    · exact h.latched.past t ht
  · cases h.stage with
    | gated hphase hspawned hstarts hnow => exact .gated hphase hspawned hstarts hnow
    | launched t hphase hready hall hnow => exact .launched t hphase hready hall hnow
    | withheld u hphase hspawned hstarts hu hready =>
      refine .withheld u hphase hspawned hstarts ?_ hready
      show s.shutAt.or (some s.loop.now) = some u
      rw [hu]
      rfl

/-- The loop goes on, and the latch stays as it is. -/
theorem Kept.of_loop (h : Kept n workers s) {loop : Supervision} (hnow : loop.now = s.loop.now)
    (hshut : loop.shutDown = s.loop.shutDown) (hfirst : loop.firstReady = s.loop.firstReady)
    (hlatch : loop.barrier.readyOnce = s.loop.barrier.readyOnce) :
    Kept n workers { s with loop } := by
  refine ⟨h.forAll, h.withWorkers, ⟨?_, ?_⟩, ?_, ?_, ?_, ?_⟩
  · rw [hfirst, hlatch]
    exact h.latched.latch
  · rw [hfirst, hnow]
    exact h.latched.past
  · exact h.shut.trans hshut.symm
  · rw [hnow]
    exact h.shutPast
  · rw [hfirst]
    exact h.order
  · cases h.stage with
    | gated hphase hspawned hstarts hprompt =>
      refine .gated hphase hspawned hstarts ?_
      rw [hfirst, hnow]
      exact hprompt
    | launched t hphase hready hall hprompt =>
      exact .launched t hphase (hfirst.trans hready) hall fun hne => hnow.trans (hprompt hne)
    | withheld u hphase hspawned hstarts hu hready =>
      refine .withheld u hphase hspawned hstarts hu ?_
      rw [hfirst]
      exact hready

theorem kept_turn (h : Kept n workers s) (answers : Option (List String)) (returned : Bool) :
    Kept n workers (s.perform (.turn answers returned)) := by
  obtain ⟨hnow, hshut, ⟨hfirst, hlatch⟩ | ⟨hs, hfirst, hlatch⟩⟩ :=
    Supervision.readied_turn s.loop answers returned
  · exact h.of_loop hnow hshut hfirst hlatch
  · cases hold : s.loop.firstReady with
    | some t =>
      -- it was ready before, so this changes nothing
      rw [hold] at hfirst
      have hset : s.loop.barrier.readyOnce = true := by
        rw [h.latched.latch, hold]
        rfl
      exact h.of_loop hnow hshut (hfirst.trans hold.symm) (hlatch.trans hset.symm)
    | none =>
      rw [hold, Option.none_or] at hfirst
      have hopen : s.shutAt = none := by
        have := h.shut
        rw [hs] at this
        simpa using this
      have hfirst' : ∀ t, (s.loop.turn answers returned).firstReady = some t →
          s.loop.now = t := by
        intro t ht
        rw [hfirst] at ht
        exact Option.some.inj ht
      refine ⟨h.forAll, h.withWorkers, ⟨?_, ?_⟩, h.shut.trans hshut.symm, ?_, ?_, ?_⟩
      · show (s.loop.turn answers returned).barrier.readyOnce = _
        rw [hlatch, show (s.perform (.turn answers returned)).loop.firstReady = _ from hfirst]
        rfl
      · intro t ht
        show t ≤ (s.loop.turn answers returned).now
        rw [hnow, hfirst' t ht]
      · intro u hu
        exact absurd (hopen.symm.trans hu) (by simp)
      · intro t u _ hu
        exact absurd (hopen.symm.trans hu) (by simp)
      · cases h.stage with
        | gated hphase hspawned hstarts _ =>
          exact .gated hphase hspawned hstarts fun t ht => hnow.trans (hfirst' t ht)
        | launched t _ hready => exact absurd (hold.symm.trans hready) (by simp)
        | withheld u _ _ _ hu => exact absurd (hopen.symm.trans hu) (by simp)

theorem foldl_carryOut_quiet {effects : List Connection.Effect} (h : Connection.Quiet effects) :
    ∀ s : Launch, effects.foldl carryOut s = s := by
  induction effects with
  | nil => exact fun s => rfl
  | cons e effects ih =>
    intro s
    have hrest : Connection.Quiet effects := fun w hw => h w (List.mem_cons_of_mem e hw)
    have he : s.carryOut e = s := by
      cases e with
      | startControllers w => exact absurd List.mem_cons_self (h w)
      | log | startFactories | startHeartbeat => rfl
    rw [List.foldl_cons, he]
    exact ih hrest s

theorem kept_supervise (h : Kept n workers s) (cancelFirst : Bool)
    (heartbeat controller : Option Outcome) (factoriesStopped : Bool) :
    Kept n workers (s.supervise cancelFirst heartbeat controller factoriesStopped) := by
  unfold supervise
  have ht := Connection.turn_cases s.connection (s.gate cancelFirst) s.loop.shutDown heartbeat
    controller factoriesStopped
  generalize s.connection.turn (s.gate cancelFirst) s.loop.shutDown heartbeat controller
    factoriesStopped = after at ht ⊢
  cases ht with
  | idle => exact h
  | opens hphase hgate =>
    have hset : s.loop.firstReady.isSome = true := by
      rw [← h.latched.latch]
      exact Barrier.readyOnce_of_awaitReady? hgate
    obtain ⟨t, hready⟩ := Option.isSome_iff_exists.mp hset
    refine ⟨h.forAll, h.withWorkers, h.latched, h.shut, h.shutPast, h.order, ?_⟩
    cases h.stage with
    | gated _ hspawned hstarts hnow =>
      refine .launched t (by simp [carryOut]) hready ?_ fun _ => hnow t hready
      show (s.starts ++ (s.spawned ++ (List.range s.connection.controllers).map
        fun k => (⟨k, s.connection.workers⟩ : ControllerTask)).map (Prod.mk t)).Perm _
      rw [hstarts, hspawned, h.forAll, h.withWorkers, List.nil_append, List.nil_append,
        List.map_map]
      exact .refl _
    | launched _ hne => exact absurd hphase hne
    | withheld _ hne => exact absurd hphase hne
  | misses hphase hgate hquiet =>
    dsimp only
    rw [foldl_carryOut_quiet hquiet]
    refine ⟨h.forAll, h.withWorkers, h.latched, h.shut, h.shutPast, h.order, ?_⟩
    have hshut : s.shutAt.isSome = true := by
      rw [h.shut]
      exact Barrier.cancelled_of_awaitReady? hgate
    obtain ⟨u, hu⟩ := Option.isSome_iff_exists.mp hshut
    cases h.stage with
    | gated _ hspawned hstarts hnow =>
      -- if it is ready all the same, both have come at this instant
      refine .withheld u (by simp) hspawned hstarts hu fun t ht => ?_
      have hle := h.order t u ht hu
      have hpast := h.shutPast u hu
      have hprompt := hnow t ht
      omega
    | launched _ hne => exact absurd hphase hne
    | withheld _ hne => exact absurd hphase hne
  | proceeds hphase hphase' hcontrollers hworkers hquiet =>
    dsimp only
    rw [foldl_carryOut_quiet hquiet]
    refine ⟨hcontrollers.trans h.forAll, hworkers.trans h.withWorkers, h.latched, h.shut,
      h.shutPast, h.order, ?_⟩
    cases h.stage with
    | gated hgated => exact absurd hgated hphase
    | launched t _ hready hall hnow => exact .launched t hphase' hready hall hnow
    | withheld u _ hspawned hstarts hu hready =>
      exact .withheld u hphase' hspawned hstarts hu hready

theorem kept_begins (h : Kept n workers s) (k : Nat) : Kept n workers (s.begins k) := by
  unfold begins
  split
  next task hfind =>
    have hmem : task ∈ s.spawned := List.mem_of_find?_eq_some hfind
    have hne : s.spawned ≠ [] := List.ne_nil_of_mem hmem
    refine ⟨h.forAll, h.withWorkers, h.latched, h.shut, h.shutPast, h.order, ?_⟩
    cases h.stage with
    | gated _ hspawned => exact absurd hspawned hne
    | withheld _ _ hspawned => exact absurd hspawned hne
    | launched t hphase hready hall hnow =>
      refine .launched t hphase hready ?_ fun _ => hnow hne
      have hsplit : (s.spawned.map (Prod.mk t)).Perm
          ((t, task) :: (s.spawned.erase task).map (Prod.mk t)) :=
        (List.perm_cons_erase hmem).map (Prod.mk t)
      show (s.starts ++ [(s.loop.now, task)] ++ (s.spawned.erase task).map (Prod.mk t)).Perm _
      rw [hnow hne, List.append_assoc]
      exact (hsplit.symm.append_left s.starts).trans hall
  next => exact h

theorem kept_perform (h : Kept n workers s) (a : Act) : Kept n workers (s.perform a) := by
  cases a with
  | pass time => exact kept_pass h time
  | shutDown => exact kept_shutDown h
  | turn answers returned => exact kept_turn h answers returned
  | supervise cancelFirst heartbeat controller factoriesStopped =>
    exact kept_supervise h cancelFirst heartbeat controller factoriesStopped
  | begins k => exact kept_begins h k

theorem kept_run (acts : List Act) : ∀ {s : Launch}, Kept n workers s →
    Kept n workers (s.run acts) := by
  induction acts with
  | nil => exact fun h => h
  | cons a acts ih => exact fun h => ih (kept_perform h a)

theorem kept_begin {interval : Nat} {b : Barrier} (hb : Barrier.new interval = .ok b)
    (waiters now : Nat) (secretKey : String) (factories : Nat) :
    Kept n workers (begin b waiters now secretKey factories n workers) := by
  rw [Supervision.new_eq hb]
  let s : Launch := begin ⟨interval, .initializing, 0, false⟩ waiters now secretKey factories n workers
  have hfirst : ∀ t, s.loop.firstReady ≠ some t := by
    intro t ht
    have hnone : s.loop.firstReady = none := rfl
    exact absurd (hnone.symm.trans ht) (by simp)
  have hshut : ∀ u, s.shutAt ≠ some u := by
    intro u hu
    have hnone : s.shutAt = none := rfl
    exact absurd (hnone.symm.trans hu) (by simp)
  exact ⟨rfl, rfl, ⟨rfl, fun t ht => absurd ht (hfirst t)⟩, rfl, fun u hu => absurd hu (hshut u),
    fun t u _ hu => absurd hu (hshut u), .gated rfl rfl rfl fun t ht => absurd ht (hfirst t)⟩

/-! ## Once the connection is past its gate -/

theorem run_append (s : Launch) (acts more : List Act) :
    s.run (acts ++ more) = (s.run acts).run more :=
  List.foldl_append

/-- The connection is past its gate and spawns nothing more; who has begun does not begin again. -/
theorem past_supervise (hphase : s.connection.phase ≠ .gated) (cancelFirst : Bool)
    (heartbeat controller : Option Outcome) (factoriesStopped : Bool) :
    let s' := s.supervise cancelFirst heartbeat controller factoriesStopped
    s'.connection.phase ≠ .gated ∧ s'.spawned = s.spawned ∧ s'.starts = s.starts := by
  unfold supervise
  have ht := Connection.turn_cases s.connection (s.gate cancelFirst) s.loop.shutDown heartbeat
    controller factoriesStopped
  generalize s.connection.turn (s.gate cancelFirst) s.loop.shutDown heartbeat controller
    factoriesStopped = after at ht ⊢
  cases ht with
  | idle => exact ⟨hphase, rfl, rfl⟩
  | opens h => exact absurd h hphase
  | misses h => exact absurd h hphase
  | proceeds _ hphase' _ _ hquiet =>
    dsimp only
    rw [foldl_carryOut_quiet hquiet]
    exact ⟨hphase', rfl, rfl⟩

theorem past_perform (hphase : s.connection.phase ≠ .gated) (a : Act) :
    (s.perform a).connection.phase ≠ .gated ∧ (s.perform a).spawned.Sublist s.spawned ∧
      (s.spawned = [] → (s.perform a).starts = s.starts) := by
  cases a with
  | pass time =>
    show (if s.busy then s else { s with loop := s.loop.perform (.pass time) } :
      Launch).connection.phase ≠ .gated ∧ _
    simp only [perform]
    split <;> exact ⟨hphase, .refl _, fun _ => rfl⟩
  | shutDown => exact ⟨hphase, .refl _, fun _ => rfl⟩
  | turn answers returned => exact ⟨hphase, .refl _, fun _ => rfl⟩
  | supervise cancelFirst heartbeat controller factoriesStopped =>
    obtain ⟨hphase', hspawned, hstarts⟩ :=
      past_supervise hphase cancelFirst heartbeat controller factoriesStopped
    refine ⟨hphase', ?_, fun _ => hstarts⟩
    show (s.supervise cancelFirst heartbeat controller factoriesStopped).spawned.Sublist _
    rw [hspawned]
  | begins k =>
    show (s.begins k).connection.phase ≠ .gated ∧ (s.begins k).spawned.Sublist s.spawned ∧
      (s.spawned = [] → (s.begins k).starts = s.starts)
    unfold begins
    split
    next task hfind =>
      refine ⟨hphase, List.erase_sublist, fun hnil => ?_⟩
      rw [hnil] at hfind
      simp at hfind
    next => exact ⟨hphase, .refl _, fun _ => rfl⟩

/-- When all that was spawned has begun, no act starts anything. -/
theorem starts_run_of_spawned_nil (acts : List Act) : ∀ {s : Launch},
    s.connection.phase ≠ .gated → s.spawned = [] → (s.run acts).starts = s.starts := by
  induction acts with
  | nil => exact fun _ _ => rfl
  | cons a acts ih =>
    intro s hphase hnil
    obtain ⟨hphase', hspawned, hstarts⟩ := past_perform hphase a
    rw [hnil] at hspawned
    exact (ih hphase' (List.sublist_nil.mp hspawned)).trans (hstarts hnil)

/-- No two controllers that were started or are to begin are the same. -/
theorem Kept.nodup (h : Kept n workers s) : (s.starts.map Prod.snd ++ s.spawned).Nodup := by
  cases h.stage with
  | gated _ hspawned hstarts | withheld _ _ hspawned hstarts =>
    rw [hspawned, hstarts]
    exact List.nodup_nil
  | launched t _ _ hall =>
    have hperm := hall.map Prod.snd
    rw [List.map_append, List.map_map] at hperm
    have hid : s.spawned.map (Prod.snd ∘ Prod.mk t) = s.spawned := List.map_id s.spawned
    rw [hid] at hperm
    exact hperm.nodup_iff.mpr (nodup_complete t n workers)

/-- What is to begin is one of the connection's controllers. -/
theorem Kept.spawned (h : Kept n workers s) :
    ∀ task ∈ s.spawned, task.controller < n ∧ task.workers = workers := by
  intro task htask
  cases h.stage with
  | gated _ hspawned | withheld _ _ hspawned =>
    rw [hspawned] at htask
    exact absurd htask List.not_mem_nil
  | launched t _ _ hall =>
    have hmem : (t, task) ∈ complete t n workers :=
      hall.mem_iff.mp (List.mem_append_right _ (List.mem_map_of_mem htask))
    exact (mem_complete.mp hmem).2

/-- A controller that has had its first turn is not to begin any more. -/
theorem not_spawned_begins (h : Kept n workers s) (k : Nat) :
    ∀ task ∈ (s.begins k).spawned, task.controller ≠ k := by
  unfold begins
  split
  next task hfind =>
    intro other hother hk
    have htask : task ∈ s.spawned := List.mem_of_find?_eq_some hfind
    have hkey : task.controller = k := by simpa using List.find?_some hfind
    have hmem : other ∈ s.spawned := List.mem_of_mem_erase hother
    -- one controller is spawned once, and always with the same number of workers
    have hsame : other = task := by
      obtain ⟨_, hw⟩ := h.spawned other hmem
      obtain ⟨_, hw'⟩ := h.spawned task htask
      cases other
      cases task
      simp_all
    rw [hsame] at hother
    exact (List.nodup_append.mp h.nodup).2.1.not_mem_erase hother
  next hnone =>
    intro other hother hk
    have := List.find?_eq_none.mp hnone other hother
    exact this (by simpa using hk)

/-- Whoever is given its first turn at some time is not to begin after that. -/
theorem not_spawned_run {k : Nat} (acts : List Act) : ∀ {s : Launch}, Kept n workers s →
    s.connection.phase ≠ .gated →
    .begins k ∈ acts ∨ (∀ task ∈ s.spawned, task.controller ≠ k) →
    ∀ task ∈ (s.run acts).spawned, task.controller ≠ k := by
  induction acts with
  | nil =>
    rintro s - - (hmem | hgone)
    · exact absurd hmem List.not_mem_nil
    · exact hgone
  | cons a acts ih =>
    intro s h hphase hk
    obtain ⟨hphase', hspawned, -⟩ := past_perform hphase a
    refine ih (kept_perform h a) hphase' ?_
    rcases hk with hmem | hgone
    · rcases List.mem_cons.mp hmem with rfl | hlater
      · exact Or.inr (not_spawned_begins h k)
      · exact Or.inl hlater
    · exact Or.inr fun task htask => hgone task (hspawned.subset htask)

/-! ## The result -/

theorem loop_foldl_carryOut (effects : List Connection.Effect) : ∀ s : Launch,
    (effects.foldl carryOut s).loop = s.loop := by
  induction effects with
  | nil => exact fun _ => rfl
  | cons e effects ih =>
    intro s
    have he : (s.carryOut e).loop = s.loop := by
      unfold carryOut
      split <;> rfl
    exact (ih (s.carryOut e)).trans he

/-- No act but a turn of the loop or the passing of time changes the latch, and those do as
`Supervision.readied_turn` says. -/
theorem readied_perform (s : Launch) (a : Act) :
    (s.perform a).loop.firstReady = s.loop.firstReady ∧
        (s.loop.shutDown = true → (s.perform a).loop.shutDown = true) ∨
      s.loop.shutDown = false ∧
        (s.perform a).loop.firstReady = s.loop.firstReady.or (some s.loop.now) := by
  cases a with
  | pass time =>
    simp only [perform]
    split <;> exact Or.inl ⟨rfl, id⟩
  | shutDown => exact Or.inl ⟨rfl, fun _ => rfl⟩
  | turn answers returned =>
    obtain ⟨-, hshut, ⟨hfirst, -⟩ | ⟨hs, hfirst, -⟩⟩ :=
      Supervision.readied_turn s.loop answers returned
    · exact Or.inl ⟨hfirst, fun hs => hshut.trans hs⟩
    · exact Or.inr ⟨hs, hfirst⟩
  | supervise cancelFirst heartbeat controller factoriesStopped =>
    have hloop : (s.supervise cancelFirst heartbeat controller factoriesStopped).loop = s.loop :=
      loop_foldl_carryOut _ _
    exact Or.inl ⟨congrArg Supervision.firstReady hloop,
      (congrArg Supervision.shutDown hloop).trans⟩
  | begins k =>
    have hloop : (s.begins k).loop = s.loop := by
      unfold begins
      split <;> rfl
    exact Or.inl ⟨congrArg Supervision.firstReady hloop,
      (congrArg Supervision.shutDown hloop).trans⟩

/-- The first readiness stays the first. -/
theorem firstReady_run {t : Nat} (acts : List Act) : ∀ {s : Launch},
    s.loop.firstReady = some t → (s.run acts).loop.firstReady = some t := by
  induction acts with
  | nil => exact fun h => h
  | cons a acts ih =>
    intro s h
    refine ih ?_
    rcases readied_perform s a with ⟨hsame, -⟩ | ⟨-, hor⟩
    · exact hsame.trans h
    · rw [hor, h]
      rfl

/-- After the shutdown the barrier does not become ready. -/
theorem firstReady_run_of_shutDown (acts : List Act) : ∀ {s : Launch},
    s.loop.shutDown = true → (s.run acts).loop.firstReady = s.loop.firstReady := by
  induction acts with
  | nil => exact fun _ => rfl
  | cons a acts ih =>
    intro s hs
    rcases readied_perform s a with ⟨hsame, hshut⟩ | ⟨hopen, -⟩
    · exact (ih (hshut hs)).trans hsame
    · exact absurd (hs.symm.trans hopen) (by simp)

/-- Whatever was started, was started when the barrier became ready. -/
theorem Kept.starts (h : Kept n workers s) : ∀ start ∈ s.starts,
    s.loop.firstReady = some start.1 ∧ start.2.controller < n ∧ start.2.workers = workers := by
  intro start hstart
  cases h.stage with
  | gated _ _ hstarts | withheld _ _ _ hstarts =>
    rw [hstarts] at hstart
    exact absurd hstart List.not_mem_nil
  | launched t _ hready hall =>
    obtain ⟨ht, hrest⟩ := mem_complete.mp (hall.mem_iff.mp (List.mem_append_left _ hstart))
    rw [ht]
    exact ⟨hready, hrest⟩

theorem Kept.controllers_nodup (h : Kept n workers s) :
    (s.starts.map fun start => start.2.controller).Nodup := by
  have hnodup : (s.starts.map Prod.snd).Nodup := (List.nodup_append.mp h.nodup).1
  have hmap : (s.starts.map Prod.snd).map ControllerTask.controller =
      s.starts.map fun start => start.2.controller := List.map_map ..
  rw [← hmap]
  have hworkers : ∀ task ∈ s.starts.map Prod.snd, task.workers = workers := by
    intro task htask
    obtain ⟨start, hstart, rfl⟩ := List.mem_map.mp htask
    exact (h.starts start hstart).2.2
  refine hnodup.map_on fun task htask task' htask' he => ?_
  have hw : task.workers = task'.workers :=
    (hworkers task htask).trans (hworkers task' htask').symm
  cases task
  cases task'
  simp_all

/-- When the barrier has been ready and nothing is left to do, all controllers were started. -/
theorem Kept.all_started (h : Kept n workers s) {t : Nat} (hready : s.loop.firstReady = some t)
    (hshut : s.shutAt ≠ some t) (hidle : s.busy = false ∨ t < s.loop.now) :
    s.connection.phase ≠ .gated ∧ s.spawned = [] ∧ s.starts.Perm (complete t n workers) := by
  cases h.stage with
  | gated hphase _ _ hnow =>
    rcases hidle with hidle | hlate
    · have hlatch := h.latched.latch
      rw [readyOnce_of_not_busy hidle hphase, hready] at hlatch
      exact absurd hlatch (by simp)
    · have := hnow t hready
      omega
  | withheld u _ _ _ hu hfirst =>
    rw [hfirst t hready] at hshut
    exact absurd hu hshut
  | launched t' hphase hready' hall hnow =>
    obtain rfl : t = t' := Option.some.inj (hready.symm.trans hready')
    have hspawned : s.spawned = [] := by
      rcases hidle with hidle | hlate
      · exact spawned_of_not_busy hidle
      · by_contra hne
        have := hnow hne
        omega
    rw [hspawned, List.map_nil, List.append_nil] at hall
    exact ⟨hphase, hspawned, hall⟩

/-- A turn takes the connection past its gate once the barrier has been ready. -/
theorem past_of_ready (h : Kept n workers s) {t : Nat} (hready : s.loop.firstReady = some t)
    (cancelFirst : Bool) (heartbeat controller : Option Outcome) (factoriesStopped : Bool) :
    (s.supervise cancelFirst heartbeat controller factoriesStopped).connection.phase ≠ .gated := by
  by_cases hphase : s.connection.phase = .gated
  · unfold supervise
    have ht := Connection.turn_cases s.connection (s.gate cancelFirst) s.loop.shutDown heartbeat
      controller factoriesStopped
    generalize s.connection.turn (s.gate cancelFirst) s.loop.shutDown heartbeat controller
      factoriesStopped = after at ht ⊢
    cases ht with
    | idle hno =>
      -- the wait is over, so there is something to do
      have hsome : (s.gate cancelFirst).isSome = true := by
        unfold gate
        rw [Barrier.isSome_awaitReady?, h.latched.latch, hready]
        rfl
      rw [hno hphase] at hsome
      exact absurd hsome (by simp)
    | opens => simp [carryOut]
    | misses _ _ hquiet =>
      dsimp only
      rw [foldl_carryOut_quiet hquiet]
      simp
    | proceeds hno => exact absurd hphase hno
  · exact (past_supervise hphase cancelFirst heartbeat controller factoriesStopped).1

/-- Once the barrier has been ready, a turn of the connection and then the first turns of all
controllers leave nothing to do, whatever happens before and in between. -/
theorem idle_of_turns (h : Kept n workers s) {t : Nat} (hready : s.loop.firstReady = some t)
    (before after : List Act) (cancelFirst : Bool) (heartbeat controller : Option Outcome)
    (factoriesStopped : Bool) (hall : ∀ k < n, .begins k ∈ after) :
    (s.run (before ++
      .supervise cancelFirst heartbeat controller factoriesStopped :: after)).busy = false := by
  rw [run_append]
  have hbefore : Kept n workers (s.run before) := kept_run before h
  have hready' := firstReady_run before hready
  generalize s.run before = s₁ at hbefore hready' ⊢
  have hphase := past_of_ready hbefore hready' cancelFirst heartbeat controller factoriesStopped
  have hkept := kept_supervise hbefore cancelFirst heartbeat controller factoriesStopped
  show ((s₁.supervise cancelFirst heartbeat controller factoriesStopped).run after).busy = false
  generalize s₁.supervise cancelFirst heartbeat controller factoriesStopped = s₂ at hphase hkept ⊢
  have hnone : (s₂.run after).spawned = [] := by
    refine List.eq_nil_iff_forall_not_mem.mpr fun task htask => ?_
    obtain ⟨hk, -⟩ := (kept_run after hkept).spawned task htask
    exact not_spawned_run after hkept hphase (Or.inl (hall _ hk)) task htask rfl
  have hpast : (s₂.run after).connection.phase ≠ .gated := by
    clear hall hnone hkept
    induction after generalizing s₂ with
    | nil => exact hphase
    | cons a after ih => exact ih _ (past_perform hphase a).1
  unfold busy
  rw [hnone]
  simp [hpast]

/-- **A connection starts its controllers once.**  Take a connection over a new barrier, and
whatever happens: its loop, the connection and the controllers take turns in any order, heartbeats
end ready or not, the shutdown comes, time passes while nothing else is to be done.

Whatever was started was started at the instant of the first ready heartbeat, each controller at
most once and with the configured number of workers.  Once the barrier has been ready, not shut down
at that instant, and time has passed or nothing is left to do, all controllers were started and none
is started again; and nothing is left to do after a turn of the connection and the first turns of
the controllers.  If it is shut down before it has been ready, none is ever started.  From the first
readiness on, a wait for it that is not cancelled ends at once, whatever the state is. -/
theorem started_once {interval : Nat} {b : Barrier} (hb : Barrier.new interval = .ok b)
    (waiters now : Nat) (secretKey : String) (factories n workers : Nat) (acts : List Act) :
    let s := (begin b waiters now secretKey factories n workers).run acts
    (∀ start ∈ s.starts, s.loop.firstReady = some start.1 ∧ start.2.controller < n ∧
      start.2.workers = workers) ∧
    (s.starts.map fun start => start.2.controller).Nodup ∧
    (∀ t, s.loop.firstReady = some t →
      (t, .published .ready) ∈ s.loop.marks ∧
      (s.shutAt ≠ some t → s.busy = false ∨ t < s.loop.now →
        s.starts.Perm (complete t n workers) ∧ ∀ more, (s.run more).starts = s.starts) ∧
      (∀ before after cancelFirst heartbeat controller factoriesStopped,
        (∀ k < n, .begins k ∈ after) →
        (s.run (before ++
          .supervise cancelFirst heartbeat controller factoriesStopped :: after)).busy = false) ∧
      ∀ more cancelFirst,
        (s.run more).loop.barrier.awaitReady? false cancelFirst = some true) ∧
    (s.loop.shutDown = true → s.loop.firstReady = none → ∀ more, (s.run more).starts = []) := by
  intro s
  have h : Kept n workers s := kept_run acts (kept_begin hb waiters now secretKey factories)
  refine ⟨h.starts, h.controllers_nodup, fun t hready => ⟨?_, ?_, ?_, ?_⟩, ?_⟩
  · exact Supervision.mem_marks_of_firstReady hready
  · intro hshut hidle
    obtain ⟨hphase, hspawned, hall⟩ := h.all_started hready hshut hidle
    exact ⟨hall, fun more => starts_run_of_spawned_nil more hphase hspawned⟩
  · exact idle_of_turns h hready
  · intro more cancelFirst
    refine Barrier.awaitReady?_of_readyOnce ?_ cancelFirst
    rw [(kept_run more h).latched.latch, firstReady_run more hready]
    rfl
  · intro hshut hnone more
    have hmore : (s.run more).loop.firstReady = none :=
      (firstReady_run_of_shutDown more hshut).trans hnone
    refine List.eq_nil_iff_forall_not_mem.mpr fun start hstart => ?_
    have hready := ((kept_run more h).starts start hstart).1
    exact absurd (hmore.symm.trans hready) (by simp)

/-- A heartbeat in vain, a recovery after which two controllers begin, another heartbeat in vain,
and the shutdown. -/
def recovered : List Act :=
  [.turn none false, .pass 5, .turn (some ["f/pods"]) false, .turn none false, .turn none true,
    .pass 5, .turn none false, .turn (some []) false, .pass 1, .supervise false none none false,
    .begins 1, .turn none false, .begins 0, .turn none true, .pass 10, .turn none false, .pass 5,
    .turn (some ["f/pods"]) false, .shutDown, .supervise true none none false]

/-- The shutdown comes while the first heartbeat waits. -/
def cutShort : List Act :=
  [.turn none false, .pass 2, .shutDown, .turn (some []) false, .supervise false none none false]

theorem started_once_recovered :
    let s := (begin ⟨10, .initializing, 0, false⟩ 1 0 "ns/s" 1 2 3).run recovered
    s.loop.firstReady = some 10 ∧ s.loop.barrier.state = .degraded 5 ∧
      s.starts.Perm [(10, ⟨0, 3⟩), (10, ⟨1, 3⟩)] ∧
      (∀ more, (s.run more).starts = s.starts) ∧
      (∀ more cancelFirst,
        (s.run more).loop.barrier.awaitReady? false cancelFirst = some true) ∧
      ∀ more, (((begin ⟨10, .initializing, 0, false⟩ 1 0 "ns/s" 1 2 3).run cutShort).run
        more).starts = [] := by
  intro s
  have hb : Barrier.new 10 = .ok ⟨10, .initializing, 0, false⟩ := rfl
  have hready : s.loop.firstReady = some 10 := by decide +kernel
  have hshut : s.shutAt ≠ some 10 := by decide +kernel
  have hlate : 10 < s.loop.now := by decide +kernel
  obtain ⟨-, -, hfirst, -⟩ := started_once hb 1 0 "ns/s" 1 2 3 recovered
  obtain ⟨-, hall, -, hlatch⟩ := hfirst 10 hready
  obtain ⟨hperm, hnone⟩ := hall hshut (Or.inr hlate)
  obtain ⟨-, -, -, hcut⟩ := started_once hb 1 0 "ns/s" 1 2 3 cutShort
  exact ⟨hready, by decide +kernel, hperm, hnone, hlatch,
    hcut (by decide +kernel) (by decide +kernel)⟩

end Launch

end InformerHub
