import Mathlib.Logic.Function.Basic
import InformerHub.Proofs.Steady
import InformerHub.Proofs.SyncLatch
import InformerHub.Proofs.Vigil

/-!
# A barrier that stays ready

`Fleet` is a run of a barrier together with the factories that it waits for and all their informers.
The loop, the waits, the factories and the informers take their turns in any order; time passes only
while a heartbeat that waits has nothing to do.

> Once a heartbeat has ended ready, every later one ends ready at the instant at which it begins,
> and the hook is not called again, for as long as no more informers are started (`stays_ready`).

The first ready heartbeat covers all informers that were running when it began: each wait has looked
at them after that (`Opening`).  What has synced remains so, whatever happens to an informer
(`Loop.synced_perform`), so from then on every wait is over as soon as it looks.  `Settled` says
this of the waits and `settled_perform` is its step; with it the loop is `Steady`
(`steady_perform`).  `Story` puts the two together.
-/

namespace InformerHub

/-- A barrier, the factories that it waits for, and their informers, each with items of its own
type. -/
structure Fleet (α : Nat → Type) where
  loop : Supervision
  factories : Nat → Factory Nat
  /-- Each factory that the barrier waits for, with the wait for it once it has begun. -/
  waits : List (Nat × Option SyncWait)
  informers : (i : Nat) → Loop (α i)
  /-- The informer that is made next. -/
  next : Nat
  /-- Whether the waits were cancelled because the deadline has come. -/
  hurried : Bool

namespace Fleet

inductive Act (α : Nat → Type) where
  /-- Time passes, unless a heartbeat that waits has anything to do. -/
  | pass (time : Nat)
  | shutDown
  /-- The loop takes a turn: whether the hook has returned if it was called. -/
  | turn (returned : Bool)
  /-- One of the waits takes a turn. -/
  | poll (wait : Nat)
  /-- The waits are cancelled if the deadline has come. -/
  | hurry
  /-- The informer of a resource is asked for, and made if there is none. -/
  | obtain (factory : Nat) (resource itemType : String)
  /-- All informers of a factory are started.  Each of them begins to run with a move of its own. -/
  | start (factory : Nat)
  /-- Anything happens to an informer: its lists and watches succeed or fail, it gives up. -/
  | move (informer : Nat) (m : Loop.Move (α informer))

variable {α : Nat → Type}

/-- The informers that have synced. -/
def synced (s : Fleet α) : List Nat :=
  (List.range s.next).filter fun i => (s.informers i).session.informer.synced

def cancelled (s : Fleet α) : Bool := s.hurried || s.loop.shutDown

def watch (s : Fleet α) (w : Nat × Option SyncWait) : Watch := ⟨s.factories w.1, w.2⟩

/-- What has not synced, if all waits are over. -/
def pending (s : Fleet α) : Option (List String) := Watch.answers (s.waits.map s.watch)

/-- Some wait can take a turn. -/
def stirs (s : Fleet α) : Bool :=
  s.waits.any fun w => ((s.watch w).turn? s.loop.now s.cancelled s.synced).isSome

/-- Whether a heartbeat waits and has anything to do. -/
def busy (s : Fleet α) : Bool :=
  match s.loop.beat.phase with
  | .waiting _ => s.stirs || s.pending.isSome || (!s.hurried && s.loop.beat.overdue s.loop.now)
  | _ => false

def pass (s : Fleet α) (time : Nat) : Fleet α :=
  if s.busy then s else { s with loop := s.loop.perform (.pass time) }

/-- The fleet after a turn of its loop, which asks all factories when a heartbeat begins. -/
def turn (s : Fleet α) (returned : Bool) : Fleet α :=
  let loop := s.loop.turn s.pending returned
  match s.loop.beat.phase, loop.beat.phase with
  | .ticking, .waiting _ =>
    { s with loop, waits := s.waits.map fun w => (w.1, none), hurried := false }
  | _, _ => { s with loop }

def poll (s : Fleet α) (k : Nat) : Fleet α :=
  match s.loop.beat.phase with
  | .waiting _ =>
    { s with
      waits := s.waits.modify k fun w =>
        (w.1, ((s.watch w).poll s.loop.now s.cancelled s.synced).wait) }
  | _ => s

/-- Something happens to a factory. -/
def onFactory (s : Fleet α) (k : Nat) (change : Factory Nat → Factory Nat) : Fleet α :=
  { s with factories := Function.update s.factories k (change (s.factories k)) }

section Perform

variable [∀ i, Object (α i)]

def perform (s : Fleet α) : Act α → Fleet α
  | .pass time => s.pass time
  | .shutDown => { s with loop := s.loop.perform .shutDown }
  | .turn returned => s.turn returned
  | .poll k => s.poll k
  | .hurry => { s with hurried := s.hurried || s.loop.beat.overdue s.loop.now }
  | .obtain k resource itemType =>
    { s.onFactory k fun f => (f.obtain resource itemType s.next).1 with next := s.next + 1 }
  | .start k => s.onFactory k fun f => f.start.1
  | .move i m => { s with informers := Function.update s.informers i ((s.informers i).perform m) }

end Perform

/-- A barrier that begins to run. -/
def begin (b : Barrier) (waiters : List Nat) (factories : Nat → Factory Nat)
    (informers : (i : Nat) → Loop (α i)) (next now : Nat) : Fleet α where
  loop := .begin b waiters.length now
  factories
  waits := waiters.map fun k => (k, none)
  informers
  next
  hurried := false

/-- The factories that the barrier waits for. -/
def waiters (s : Fleet α) : List Nat := s.waits.map Prod.fst

/-! ## What an act leaves as it is -/

variable {s : Fleet α} {origin : Nat → Factory Nat}

theorem mem_waiters {w : Nat × Option SyncWait} (h : w ∈ s.waits) : w.1 ∈ s.waiters :=
  List.mem_map_of_mem h

theorem pass_cases (s : Fleet α) (time : Nat) :
    s.pass time = s ∨
      s.busy = false ∧ s.pass time = { s with loop := s.loop.perform (.pass time) } := by
  unfold pass
  split
  next => exact Or.inl rfl
  next hb => exact Or.inr ⟨Bool.eq_false_iff.mpr hb, rfl⟩

/-- What a turn of the loop does to the rest. -/
theorem turn_cases (s : Fleet α) (returned : Bool) :
    s.turn returned = { s with loop := s.loop.turn s.pending returned } ∨
      s.loop.beat.phase = .ticking ∧ s.turn returned = { s with
        loop := s.loop.turn s.pending returned
        waits := s.waits.map fun w => (w.1, none)
        hurried := false } := by
  unfold turn
  dsimp only
  split
  next hp _ => exact Or.inr ⟨hp, rfl⟩
  next => exact Or.inl rfl

theorem poll_cases (s : Fleet α) (k : Nat) :
    s.poll k = s ∨ (∃ d, s.loop.beat.phase = .waiting d) ∧ s.poll k = { s with
      waits := s.waits.modify k fun w =>
        (w.1, ((s.watch w).poll s.loop.now s.cancelled s.synced).wait) } := by
  unfold poll
  split
  next d hp => exact Or.inr ⟨⟨d, hp⟩, rfl⟩
  next => exact Or.inl rfl

theorem loop_turn (s : Fleet α) (returned : Bool) :
    (s.turn returned).loop = s.loop.turn s.pending returned := by
  rcases turn_cases s returned with h | ⟨-, h⟩ <;> rw [h]

theorem loop_poll (s : Fleet α) (k : Nat) : (s.poll k).loop = s.loop := by
  rcases poll_cases s k with h | ⟨-, h⟩ <;> rw [h]

theorem waits_poll {d : Nat} (hp : s.loop.beat.phase = .waiting d) (k : Nat) :
    (s.poll k).waits = s.waits.modify k fun w =>
      (w.1, ((s.watch w).poll s.loop.now s.cancelled s.synced).wait) := by
  unfold poll
  rw [hp]

/-- A turn of the loop lets a wait be, or it is forgotten. -/
theorem mem_waits_turn {returned : Bool} {w : Nat × Option SyncWait}
    (h : w ∈ (s.turn returned).waits) : w ∈ s.waits ∨ w.2 = none := by
  rcases turn_cases s returned with he | ⟨-, he⟩
  · rw [he] at h
    exact Or.inl h
  · rw [he] at h
    obtain ⟨w₀, -, rfl⟩ := List.mem_map.mp h
    exact Or.inr rfl

/-- The same factories, and the same informers as far as they have synced. -/
structure SameStock (s s' : Fleet α) : Prop where
  factories : s'.factories = s.factories
  synced : s'.synced = s.synced

theorem sameStock_pass (s : Fleet α) (time : Nat) : SameStock s (s.pass time) := by
  rcases pass_cases s time with h | ⟨-, h⟩ <;> rw [h] <;> exact ⟨rfl, rfl⟩

theorem sameStock_turn (s : Fleet α) (returned : Bool) : SameStock s (s.turn returned) := by
  rcases turn_cases s returned with h | ⟨-, h⟩ <;> rw [h] <;> exact ⟨rfl, rfl⟩

theorem sameStock_poll (s : Fleet α) (k : Nat) : SameStock s (s.poll k) := by
  rcases poll_cases s k with h | ⟨-, h⟩ <;> rw [h] <;> exact ⟨rfl, rfl⟩

theorem waiters_poll (s : Fleet α) (k : Nat) : (s.poll k).waiters = s.waiters := by
  rcases poll_cases s k with h | ⟨-, h⟩
  · rw [h]
  · rw [h]
    refine List.ext_getElem? fun j => ?_
    simp only [waiters, List.getElem?_map, List.getElem?_modify]
    cases s.waits[j]? with
    | none => rfl
    | some w =>
      simp only [Option.map_some]
      split <;> rfl

theorem runs_onFactory {k i : Nat} (h : (s.factories k).Runs i) (j : Nat)
    (change : Factory Nat → Factory Nat)
    (hchange : (s.factories j).Runs i → (change (s.factories j)).Runs i) :
    ((s.onFactory j change).factories k).Runs i := by
  show (Function.update s.factories j _ k).Runs i
  by_cases hj : k = j
  · subst hj
    rw [Function.update_self]
    exact hchange h
  · rw [Function.update_of_ne hj]
    exact h

theorem mem_synced {i : Nat} :
    i ∈ s.synced ↔ i < s.next ∧ (s.informers i).session.informer.synced = true := by
  unfold synced
  rw [List.mem_filter, List.mem_range]

section Frame

variable [∀ i, Object (α i)]

theorem waiters_perform (s : Fleet α) (a : Act α) : (s.perform a).waiters = s.waiters := by
  cases a with
  | pass time =>
    show (s.pass time).waiters = _
    rcases pass_cases s time with h | ⟨-, h⟩
    · rw [h]
    · rw [h]
      rfl
  | turn returned =>
    show (s.turn returned).waiters = _
    rcases turn_cases s returned with h | ⟨-, h⟩
    · rw [h]
      rfl
    · rw [h]
      simp [waiters]
  | poll k => exact waiters_poll s k
  | shutDown | hurry | obtain | start | move => rfl

/-- What the loop does is something that a run of a barrier can do. -/
theorem loop_perform (s : Fleet α) (a : Act α) :
    (s.perform a).loop = s.loop ∨ ∃ b, (s.perform a).loop = s.loop.perform b := by
  cases a with
  | pass time =>
    show (s.pass time).loop = _ ∨ ∃ b, (s.pass time).loop = _
    rcases pass_cases s time with h | ⟨-, h⟩
    · exact Or.inl (congrArg loop h)
    · exact Or.inr ⟨.pass time, congrArg loop h⟩
  | shutDown => exact Or.inr ⟨.shutDown, rfl⟩
  | turn returned => exact Or.inr ⟨.turn s.pending returned, loop_turn s returned⟩
  | poll k => exact Or.inl (loop_poll s k)
  | hurry | obtain | start | move => exact Or.inl rfl

theorem marks_prefix_perform (s : Fleet α) (a : Act α) :
    s.loop.marks <+: (s.perform a).loop.marks := by
  rcases loop_perform s a with h | ⟨b, h⟩
  · rw [h]
  · rw [h]
    exact Supervision.marks_prefix_perform s.loop b

/-- An informer that was started is not stopped. -/
theorem runs_perform {k i : Nat} (h : (s.factories k).Runs i) (a : Act α) :
    ((s.perform a).factories k).Runs i := by
  cases a with
  | pass time => exact (sameStock_pass s time).factories ▸ h
  | turn returned => exact (sameStock_turn s returned).factories ▸ h
  | poll j => exact (sameStock_poll s j).factories ▸ h
  | shutDown | hurry | move => exact h
  | obtain j resource itemType =>
    exact runs_onFactory h j (fun f => (f.obtain resource itemType s.next).1)
      fun hr => hr.obtain resource itemType s.next
  | start j => exact runs_onFactory h j (fun f => f.start.1) fun hr => hr.start

/-- What has synced remains so. -/
theorem synced_perform {i : Nat} (h : i ∈ s.synced) (a : Act α) : i ∈ (s.perform a).synced := by
  cases a with
  | pass time => exact (sameStock_pass s time).synced ▸ h
  | turn returned => exact (sameStock_turn s returned).synced ▸ h
  | poll k => exact (sameStock_poll s k).synced ▸ h
  | shutDown | hurry | start => exact h
  | obtain k resource itemType =>
    obtain ⟨hlt, hi⟩ := mem_synced.mp h
    exact mem_synced.mpr ⟨Nat.lt_succ_of_lt hlt, hi⟩
  | move j m =>
    obtain ⟨hlt, hi⟩ := mem_synced.mp h
    refine mem_synced.mpr ⟨hlt, ?_⟩
    show (Function.update s.informers j _ i).session.informer.synced = true
    by_cases hj : i = j
    · subst hj
      rw [Function.update_self]
      exact Loop.synced_perform hi m
    · rw [Function.update_of_ne hj]
      exact hi

end Frame

/-! ## Waits that are over at once -/

/-- All informers that ran at the beginning have synced.  No wait pauses, and none has ended
badly. -/
structure Settled (origin : Nat → Factory Nat) (s : Fleet α) : Prop where
  synced : ∀ k ∈ s.waiters, ∀ i, (origin k).Runs i → i ∈ s.synced
  waits : ∀ w ∈ s.waits, w.2 = none ∨
    ∃ status, w.2 = some (.ended status) ∧ SyncWait.allSynced status = true

/-- No informer was started since. -/
def Within (origin : Nat → Factory Nat) (s : Fleet α) : Prop :=
  ∀ k ∈ s.waiters, ∀ i, (s.factories k).Runs i → (origin k).Runs i

/-- With nothing to wait for, a wait ends well as soon as it looks. -/
theorem ended_poll_of_settled (h : Settled origin s) (hw : Within origin s)
    {w : Nat × Option SyncWait} (hmem : w ∈ s.waits) :
    ∃ status, ((s.watch w).poll s.loop.now s.cancelled s.synced).wait = some (.ended status) ∧
      SyncWait.allSynced status = true := by
  have hall : SyncWait.allSynced ((s.watch w).status s.synced) = true :=
    Vigil.allSynced_status.mpr fun i hi =>
      h.synced w.1 (mem_waiters hmem) i (hw w.1 (mem_waiters hmem) i hi)
  rcases Watch.poll_cases (s.watch w) s.loop.now s.cancelled s.synced with
    ⟨he, hne⟩ | ⟨he, -⟩ | ⟨-, hbad⟩
  · rw [he]
    exact (h.waits w hmem).resolve_left hne
  · rw [he]
    exact ⟨_, rfl, hall⟩
  · exact absurd (hall.symm.trans hbad) (by simp)

theorem settled_poll (h : Settled origin s) (hw : Within origin s) (k : Nat) :
    Settled origin (s.poll k) where
  synced := by
    rw [waiters_poll, (sameStock_poll s k).synced]
    exact h.synced
  waits := by
    rcases poll_cases s k with he | ⟨-, he⟩
    · rw [he]
      exact h.waits
    · rw [he]
      intro w hmem
      obtain ⟨w₀, hmem₀, rfl | rfl⟩ := Vigil.mem_modify hmem
      · exact h.waits w hmem₀
      · exact Or.inr (ended_poll_of_settled h hw hmem₀)

theorem within_poll (h : Within origin s) (k : Nat) : Within origin (s.poll k) := by
  unfold Within
  rw [waiters_poll, (sameStock_poll s k).factories]
  exact h

/-- All answers are good. -/
theorem pending_of_settled (h : Settled origin s) {pending : List String}
    (hp : s.pending = some pending) : pending = [] := by
  refine (Watch.answers_eq_some hp).2.mpr fun w hw status hs => ?_
  obtain ⟨w₀, hmem, rfl⟩ := List.mem_map.mp hw
  rcases h.waits w₀ hmem with hn | ⟨status', hs', hgood⟩
  · exact absurd (hn.symm.trans hs) (by simp)
  · obtain rfl := SyncWait.ended.inj (Option.some.inj (hs'.symm.trans hs))
    exact hgood

/-- If all waits have looked there are answers. -/
theorem pending_of_looked (h : Settled origin s) (hlooked : ∀ w ∈ s.waits, w.2 ≠ none) :
    s.pending = some [] := by
  have hsome : s.pending.isSome = true := by
    refine Watch.isSome_answers fun w hw => ?_
    obtain ⟨w₀, hmem, rfl⟩ := List.mem_map.mp hw
    obtain ⟨status, hs, -⟩ := (h.waits w₀ hmem).resolve_left (hlooked w₀ hmem)
    exact ⟨status, hs⟩
  obtain ⟨pending, hp⟩ := Option.isSome_iff_exists.mp hsome
  rw [hp, pending_of_settled h hp]

/-- Time does not pass while a heartbeat waits. -/
theorem busy_of_settled (h : Settled origin s) {d : Nat} (hp : s.loop.beat.phase = .waiting d) :
    s.busy = true := by
  unfold busy
  rw [hp]
  by_cases hlooked : ∀ w ∈ s.waits, w.2 ≠ none
  · simp [pending_of_looked h hlooked]
  · push Not at hlooked
    obtain ⟨w, hmem, hw⟩ := hlooked
    have hstirs : s.stirs = true :=
      List.any_eq_true.mpr ⟨w, hmem, by simp [Watch.turn?, watch, hw]⟩
    simp [hstirs]

section Steady

open Supervision

variable [∀ i, Object (α i)] {before : List (Nat × Mark)} {wasReady : Bool}

theorem settled_perform (h : Settled origin s) (hw : Within origin s) (a : Act α) :
    Settled origin (s.perform a) := by
  have hsynced : ∀ k ∈ (s.perform a).waiters, ∀ i, (origin k).Runs i →
      i ∈ (s.perform a).synced := by
    rw [waiters_perform]
    exact fun k hk i hi => synced_perform (h.synced k hk i hi) a
  cases a with
  | poll k => exact settled_poll h hw k
  | pass time =>
    refine ⟨hsynced, fun w hmem => h.waits w ?_⟩
    rcases pass_cases s time with he | ⟨-, he⟩
    · exact he ▸ hmem
    · exact (congrArg waits he) ▸ hmem
  | turn returned =>
    exact ⟨hsynced, fun w hmem => (mem_waits_turn hmem).elim (h.waits w) Or.inl⟩
  | shutDown | hurry | obtain | start | move => exact ⟨hsynced, h.waits⟩

/-- A loop that stays ready does so with every act. -/
theorem steady_perform (h : Settled origin s) {report rest : List (Nat × Mark)} {times : List Nat}
    (hs : Steady before wasReady s.loop report times rest) (a : Act α) :
    ∃ report' times' rest', Steady before wasReady (s.perform a).loop report' times' rest' := by
  cases a with
  | pass time =>
    show ∃ report' times' rest', Steady before wasReady (s.pass time).loop report' times' rest'
    rcases pass_cases s time with he | ⟨hidle, he⟩
    · rw [he]
      exact ⟨report, times, rest, hs⟩
    · rw [he]
      refine ⟨report, times, rest, steady_pass hs (fun d hp => ?_) time⟩
      exact absurd (busy_of_settled h hp) (by simp [hidle])
  | shutDown => exact ⟨report, times, rest, steady_shutDown hs⟩
  | turn returned =>
    show ∃ report' times' rest', Steady before wasReady (s.turn returned).loop report' times' rest'
    rw [loop_turn]
    exact steady_turn hs (fun pending => pending_of_settled h) returned
  | poll k =>
    show ∃ report' times' rest', Steady before wasReady (s.poll k).loop report' times' rest'
    rw [loop_poll]
    exact ⟨report, times, rest, hs⟩
  | hurry | obtain | start | move => exact ⟨report, times, rest, hs⟩

end Steady

/-! ## The first ready heartbeat -/

/-- A heartbeat without an outcome.  A wait that has ended well covers the informers that ran when
the heartbeat began: they have synced. -/
structure Opening (origin : Nat → Factory Nat) (before : List (Nat × Mark)) (wasReady : Bool)
    (s : Fleet α) : Prop where
  marks : s.loop.marks = before
  phase : ∃ d, s.loop.beat.phase = .waiting d
  flag : s.loop.beat.ready = wasReady
  runs : ∀ k i, (origin k).Runs i → (s.factories k).Runs i
  ended : ∀ w ∈ s.waits, ∀ status, w.2 = some (.ended status) →
    SyncWait.allSynced status = true → ∀ i, (origin w.1).Runs i → i ∈ s.synced

/-- What becomes of a heartbeat. -/
inductive Story (origin : Nat → Factory Nat) (before : List (Nat × Mark)) (wasReady : Bool)
    (s : Fleet α) : Prop
  | opens (h : Opening origin before wasReady s)
  | cut (hm : s.loop.marks = before) (hs : s.loop.shutDown = true)
  | degrades {e waited : Nat}
    (h : before ++ [(e, .published (.degraded waited))] <+: s.loop.marks)
  | lasts {e : Nat} {report rest : List (Nat × Mark)} {times : List Nat} (h : Settled origin s)
    (hs : Supervision.Steady (before ++ [(e, .published .ready)]) wasReady s.loop report times rest)

theorem opening_of_began {returned : Bool} {start d : Nat}
    (h : (s.turn returned).loop.marks = s.loop.marks ++ [(start, .published (.waiting d))]) :
    Opening s.factories (s.loop.marks ++ [(start, .published (.waiting d))]) s.loop.beat.ready
      (s.turn returned) := by
  have hloop := loop_turn s returned
  have hmarks := h
  rw [hloop] at hmarks
  obtain ⟨hp, ⟨d', hp'⟩, hflag⟩ := Supervision.began_of_marks hmarks
  have hturn : s.turn returned = { s with
      loop := s.loop.turn s.pending returned
      waits := s.waits.map fun w => (w.1, none)
      hurried := false } := by
    unfold turn
    simp only [hp, hp']
  refine ⟨h, ⟨d', hloop ▸ hp'⟩, hloop ▸ hflag, ?_, fun w hw status hs => ?_⟩
  · rw [(sameStock_turn s returned).factories]
    exact fun _ _ => id
  · rw [hturn] at hw
    obtain ⟨w₀, -, rfl⟩ := List.mem_map.mp hw
    exact absurd hs (by simp)

section Story

variable {before : List (Nat × Mark)} {wasReady : Bool}

theorem opening_poll (h : Opening origin before wasReady s) (k : Nat) :
    Opening origin before wasReady (s.poll k) where
  marks := by
    rw [loop_poll]
    exact h.marks
  phase := by
    rw [loop_poll]
    exact h.phase
  flag := by
    rw [loop_poll]
    exact h.flag
  runs := by
    rw [(sameStock_poll s k).factories]
    exact h.runs
  ended := by
    rw [(sameStock_poll s k).synced]
    rcases poll_cases s k with he | ⟨-, he⟩
    · rw [he]
      exact h.ended
    · rw [he]
      intro w hmem status hs hgood i hi
      obtain ⟨w₀, hmem₀, rfl | rfl⟩ := Vigil.mem_modify hmem
      · exact h.ended w hmem₀ status hs hgood i hi
      · rcases Watch.ended_poll hs with hs | ⟨rfl, -⟩
        · exact h.ended w₀ hmem₀ status hs hgood i hi
        · -- it has looked at all that is running now
          exact Vigil.allSynced_status.mp hgood i (h.runs w₀.1 i hi)

/-- A turn of the loop leaves the heartbeat waiting, or it brings the outcome or the end. -/
theorem story_turn (h : Opening origin before wasReady s) (returned : Bool) :
    Story origin before wasReady (s.turn returned) := by
  obtain ⟨d, hp⟩ := h.phase
  have hturn : s.turn returned = { s with loop := s.loop.turn s.pending returned } :=
    (turn_cases s returned).resolve_right fun ht => by simp [hp] at ht
  rw [hturn]
  rcases Supervision.turn_of_waiting hp s.pending returned with
    ⟨-, he⟩ | ⟨hs, he⟩ | ⟨pending, hpending, hs, he⟩
  · rw [he]
    exact .opens h
  · rw [he]
    exact .cut h.marks hs
  · rw [he]
    rcases Supervision.isVerdict_verdict s.loop.timeout pending with hr | hr
    · obtain rfl := Supervision.eq_nil_of_verdict hr
      obtain ⟨hended, hgood⟩ := Watch.answers_eq_some hpending
      have hall : ∀ w ∈ s.waits, ∃ status, w.2 = some (.ended status) ∧
          SyncWait.allSynced status = true := by
        intro w hw
        obtain ⟨status, hs⟩ := hended _ (List.mem_map_of_mem hw)
        exact ⟨status, hs, hgood.mp rfl _ (List.mem_map_of_mem hw) status hs⟩
      rw [hr, ← h.flag]
      refine .lasts ⟨fun k hk i hi => ?_, fun w hw => Or.inr (hall w hw)⟩
        (Supervision.steady_first h.marks)
      obtain ⟨w, hw, rfl⟩ := List.mem_map.mp hk
      obtain ⟨status, hs, hgood⟩ := hall w hw
      exact h.ended w hw status hs hgood i hi
    · rw [hr, ← h.marks]
      exact .degrades List.prefix_rfl

variable [∀ i, Object (α i)]

theorem story_perform (h : Story origin before wasReady s) (hw : Within origin s) (a : Act α) :
    Story origin before wasReady (s.perform a) := by
  cases h with
  | opens h =>
    have hruns : ∀ k i, (origin k).Runs i → ((s.perform a).factories k).Runs i :=
      fun k i hi => runs_perform (h.runs k i hi) a
    have hsynced : ∀ w ∈ s.waits, ∀ status, w.2 = some (.ended status) →
        SyncWait.allSynced status = true → ∀ i, (origin w.1).Runs i → i ∈ (s.perform a).synced :=
      fun w hw status hs hgood i hi => synced_perform (h.ended w hw status hs hgood i hi) a
    cases a with
    | turn returned => exact story_turn h returned
    | poll k => exact .opens (opening_poll h k)
    | pass time =>
      show Story origin before wasReady (s.pass time)
      rcases pass_cases s time with he | ⟨-, he⟩
      · rw [he]
        exact .opens h
      · rw [he]
        exact .opens ⟨h.marks, h.phase, h.flag, h.runs, h.ended⟩
    | shutDown | hurry | obtain | start | move =>
      exact .opens ⟨h.marks, h.phase, h.flag, hruns, hsynced⟩
  | cut hm hs =>
    rcases loop_perform s a with he | ⟨b, he⟩
    · exact .cut (he ▸ hm) (he ▸ hs)
    · obtain ⟨hm', hs'⟩ := Supervision.marks_of_shutDown hs b
      exact .cut (he ▸ hm'.trans hm) (he ▸ hs')
  | degrades h => exact .degrades (h.trans (marks_prefix_perform s a))
  | lasts h hs =>
    obtain ⟨report, times, rest, hs⟩ := steady_perform h hs a
    exact .lasts (settled_perform h hw a) hs

theorem within_of_perform {a : Act α} (h : Within origin (s.perform a)) : Within origin s := by
  intro k hk i hi
  exact h k (by rwa [waiters_perform]) i (runs_perform hi a)

/-- As long as no informer is started the story goes on. -/
theorem story_foldl (acts : List (Act α)) : ∀ {s : Fleet α}, Story origin before wasReady s →
    Within origin (acts.foldl perform s) →
      Story origin before wasReady (acts.foldl perform s) := by
  have hback : ∀ (acts : List (Act α)) {s : Fleet α}, Within origin (acts.foldl perform s) →
      Within origin s := by
    intro acts
    induction acts with
    | nil => exact id
    | cons a acts ih => exact fun h => within_of_perform (ih h)
  induction acts with
  | nil => exact fun h _ => h
  | cons a acts ih =>
    intro s h hw
    exact ih (story_perform h (within_of_perform (hback acts hw)) a) hw

end Story

/-! ## The theorem -/

/-- Each of the first `n` waits takes a turn. -/
def polls (n : Nat) : List (Act α) := (List.range n).map .poll

section Theorem

open Supervision

variable [∀ i, Object (α i)]

theorem polls_succ (n : Nat) (s : Fleet α) :
    (polls (n + 1)).foldl perform s = ((polls n).foldl perform s).poll n := by
  unfold polls
  rw [List.range_succ, List.map_append, List.foldl_append]
  rfl

/-- The first `n` waits have looked since the fleet was `s`, and nothing else has happened. -/
structure Looked (origin : Nat → Factory Nat) (n : Nat) (s s' : Fleet α) : Prop where
  loop : s'.loop = s.loop
  length : s'.waits.length = s.waits.length
  settled : Settled origin s'
  within : Within origin s'
  looked : ∀ j < n, ∀ w, s'.waits[j]? = some w → w.2 ≠ none

theorem looked_polls (h : Settled origin s) (hw : Within origin s) {d : Nat}
    (hp : s.loop.beat.phase = .waiting d) (n : Nat) :
    Looked origin n s ((polls n).foldl perform s) := by
  induction n with
  | zero => exact ⟨rfl, rfl, h, hw, fun j hj => absurd hj (Nat.not_lt_zero j)⟩
  | succ n ih =>
    rw [polls_succ]
    generalize (polls n).foldl perform s = v at ih ⊢
    have hwaits := waits_poll (s := v) (ih.loop ▸ hp) n
    refine ⟨(loop_poll v n).trans ih.loop, ?_, settled_poll ih.settled ih.within n,
      within_poll ih.within n, fun j hj w hmem => ?_⟩
    · rw [hwaits, List.length_modify, ih.length]
    · rw [hwaits, List.getElem?_modify] at hmem
      obtain ⟨w₀, hmem₀, rfl⟩ := Option.map_eq_some_iff.mp hmem
      split
      next => exact Watch.wait_poll_ne_none _ _ _ _
      next hne => exact ih.looked j (by omega) w₀ hmem₀

/-- A heartbeat that waits ends ready as soon as each wait has taken a turn. -/
theorem marks_polls (h : Settled origin s) (hw : Within origin s) {d : Nat}
    (hp : s.loop.beat.phase = .waiting d) (hs : s.loop.shutDown = false) (returned : Bool) :
    (((polls s.waits.length).foldl perform s).perform (.turn returned)).loop.marks =
      s.loop.marks ++ [(s.loop.now, .published .ready)] := by
  obtain ⟨hloop, hlength, hsettled, -, hlooked⟩ := looked_polls h hw hp s.waits.length
  show (((polls s.waits.length).foldl perform s).turn returned).loop.marks = _
  rw [loop_turn, hloop]
  generalize (polls s.waits.length).foldl perform s = v at hlength hsettled hlooked
  have hpending : v.pending = some [] := by
    refine pending_of_looked hsettled fun w hw => ?_
    obtain ⟨j, hj⟩ := List.mem_iff_getElem?.mp hw
    have hlt : j < v.waits.length := (List.getElem?_eq_some_iff.mp hj).1
    exact hlooked j (hlength ▸ hlt) w hj
  rw [hpending]
  rcases turn_of_waiting hp (some []) returned with ⟨hn, -⟩ | ⟨hs', -⟩ | ⟨pending, hsome, -, he⟩
  · exact absurd hn (by simp)
  · exact absurd (hs.symm.trans hs') (by simp)
  · obtain rfl := Option.some.inj hsome
    rw [he]
    rfl

theorem unchanged_foldl (acts : List (Act α)) : ∀ s : Fleet α,
    (acts.foldl perform s).waiters = s.waiters ∧
      (acts.foldl perform s).loop.timeout = s.loop.timeout := by
  have htimeout : ∀ (s : Fleet α) a, (s.perform a).loop.timeout = s.loop.timeout := by
    intro s a
    rcases loop_perform s a with h | ⟨b, h⟩
    · rw [h]
    · rw [h]
      exact timeout_perform s.loop b
  induction acts with
  | nil => exact fun s => ⟨rfl, rfl⟩
  | cons a acts ih =>
    intro s
    obtain ⟨hw, ht⟩ := ih (s.perform a)
    exact ⟨hw.trans (waiters_perform s a), ht.trans (htimeout s a)⟩

/-- **A barrier that has been ready stays ready** while the set of its informers does.  Take a
barrier in any state, a turn in which a heartbeat begins, and whatever happens afterwards: lists
fail or time out, streams are lost, informers relist or give up.  If that heartbeat ended ready, and
no informer was started in any of the factories since it began, then all that was marked after it
are:

* the report of its outcome, unless the outcome before it was ready, too;
* heartbeats that ended ready at the instant at which they began, and were not reported;
* the beginning of a heartbeat that is under way at this instant, or was cut short by the shutdown.

A heartbeat that is under way ends ready as soon as each of the waits has taken a turn, and time
does not pass before. -/
theorem stays_ready (s : Fleet α) (returned : Bool) (more : List (Act α)) {start d e : Nat}
    {rest : List (Nat × Mark)}
    (began : (s.perform (.turn returned)).loop.marks =
      s.loop.marks ++ [(start, .published (.waiting d))])
    (ready : (more.foldl perform (s.perform (.turn returned))).loop.marks =
      s.loop.marks ++ (start, .published (.waiting d)) :: (e, .published .ready) :: rest)
    (fixed : ∀ k ∈ s.waiters,
      ((more.foldl perform (s.perform (.turn returned))).factories k).running ⊆
        (s.factories k).running) :
    let after := more.foldl perform (s.perform (.turn returned))
    (∃ (report : List (Nat × Mark)) (times : List Nat) (tail : List (Nat × Mark)),
      rest = report ++ times.flatMap (atOnce s.loop.timeout) ++ tail ∧
      (report = [] ∨ s.loop.beat.ready = false ∧ ∃ c, report = [(c, .called .ready)]) ∧
      (tail = [] ∨ ∃ t, tail = [(t, .published (.waiting (t + s.loop.timeout)))] ∧
        (after.loop.now = t ∨ after.loop.shutDown = true))) ∧
    (∀ d', after.loop.beat.phase = .waiting d' → after.loop.shutDown = false →
      after.busy = true ∧ ∀ returned',
        (((polls after.waits.length).foldl perform after).perform (.turn returned')).loop.marks =
          after.loop.marks ++ [(after.loop.now, .published .ready)]) := by
  intro after
  obtain ⟨hwaiters, htimeout⟩ : after.waiters = s.waiters ∧
      after.loop.timeout = s.loop.timeout := unchanged_foldl (.turn returned :: more) s
  have hwithin : Within s.factories after := fun k hk i hi =>
    Factory.mem_running.mp (fixed k (hwaiters ▸ hk) (Factory.mem_running.mpr hi))
  have hmarks : after.loop.marks = s.loop.marks ++ [(start, .published (.waiting d))] ++
      (e, .published .ready) :: rest := by
    rw [List.append_assoc]
    exact ready
  have hstory : Story s.factories (s.loop.marks ++ [(start, .published (.waiting d))])
      s.loop.beat.ready after := story_foldl more (.opens (opening_of_began began)) hwithin
  cases hstory with
  | opens h => exact absurd (hmarks.symm.trans h.marks) (by simp)
  | cut hm => exact absurd (hmarks.symm.trans hm) (by simp)
  | degrades h =>
    rw [hmarks, List.prefix_append_right_inj, List.cons_prefix_cons] at h
    exact absurd h.1 (by simp)
  | @lasts e' report tail times hsettled hs =>
    have hrest := hs.marks
    rw [hmarks, List.append_assoc (_ ++ _), List.append_cancel_left_eq] at hrest
    obtain ⟨-, hrest⟩ := List.cons.inj hrest
    refine ⟨⟨report, times, tail, ?_, hs.reported, ?_⟩, fun d' hp hshut => ?_⟩
    · rw [hrest, htimeout]
      rfl
    · rw [← htimeout]
      exact hs.lasts.rest_cases
    · exact ⟨busy_of_settled hsettled hp, marks_polls hsettled hwithin hp hshut⟩

end Theorem

/-- Two factories with an informer each. -/
def pair : Fleet fun _ => Scenario.Obj :=
  begin ⟨20, .initializing, 0, false⟩ [0, 1]
    (fun k => Vigil.single (if k = 0 then "a" else "b") k 3) (fun _ => .new) 2 0

/-- A policy without pauses that allows one retry. -/
def once : BackoffPolicy := ⟨1, 0, 0, 0⟩

/-- The informers have not synced in time, and the hook is told.  Then both of them do. -/
def late : List (Act fun _ => Scenario.Obj) :=
  [.move 0 (.start "pods" once none 0), .move 1 (.start "pods" once none 0), .turn false,
    .poll 0, .poll 1, .pass 10, .hurry, .poll 0, .poll 1, .turn false, .turn false, .turn true,
    .move 0 (.signal (.listed [] "1")), .move 0 .proceed,
    .move 1 (.signal (.listed [] "1")), .move 1 .proceed, .pass 10]

/-- A heartbeat that is ready, and reported.  One informer loses its stream and then gives up, the
other one relists; two more heartbeats begin. -/
def troubled : List (Act fun _ => Scenario.Obj) :=
  [.poll 0, .poll 1, .turn false, .turn false, .turn true,
    .move 0 (.signal .opened), .move 0 (.signal .streamEnded), .move 0 (.signal .backoffOver),
    .move 0 (.signal .listTimedOut), .move 1 (.signal (.openFailed (.external "gone"))),
    .pass 20, .turn false, .poll 1, .poll 0, .turn false,
    .move 1 (.signal .backoffOver), .move 1 (.signal (.listed [] "2")),
    .pass 20, .turn false, .pass 5]

theorem stays_ready_troubled :
    let s := late.foldl perform pair
    let after := troubled.foldl perform (s.perform (.turn false))
    (after.informers 0).reflector.map Reflector.phase =
      some (.ended (.failed (.informerGaveUp "pods" 2))) ∧
    after.loop.marks = s.loop.marks ++ [(20, .published (.waiting 30)), (20, .published .ready),
      (20, .called .ready), (40, .published (.waiting 50)), (40, .published .ready),
      (60, .published (.waiting 70))] ∧
    (((polls 2).foldl perform after).perform (.turn false)).loop.marks =
      after.loop.marks ++ [(60, .published .ready)] := by
  have hmarks : (troubled.foldl perform ((late.foldl perform pair).perform
      (.turn false))).loop.marks = (late.foldl perform pair).loop.marks ++
        [(20, .published (.waiting 30)), (20, .published .ready), (20, .called .ready),
          (40, .published (.waiting 50)), (40, .published .ready),
          (60, .published (.waiting 70))] := by decide +kernel
  obtain ⟨-, hnext⟩ := stays_ready (late.foldl perform pair) false troubled
    (by decide +kernel) hmarks (by decide +kernel)
  have hready := (hnext 70 (by decide +kernel) (by decide +kernel)).2 false
  have hnow : (troubled.foldl perform ((late.foldl perform pair).perform
    (.turn false))).loop.now = 60 := by decide +kernel
  have hwaits : (troubled.foldl perform ((late.foldl perform pair).perform
    (.turn false))).waits.length = 2 := by decide +kernel
  rw [hnow, hwaits] at hready
  exact ⟨by decide +kernel, hmarks, hready⟩

end Fleet

end InformerHub
