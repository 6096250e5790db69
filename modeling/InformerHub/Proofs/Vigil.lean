import Mathlib.Data.List.Induction
import Mathlib.Data.List.Infix
import InformerHub.Barrier
import InformerHub.Proofs.Watch

/-!
# The outcome of a heartbeat

A heartbeat asks all its factories at once and waits for them until its deadline, half an interval
after it began.  `Vigil` is such a heartbeat together with all that may happen meanwhile: informers
are made, started and synced, the heartbeat takes turns, and time passes, a millisecond at a time
and only while there is nothing to do.

> The outcome is ready if and when it should be, and degraded otherwise, exactly at the deadline
> (`outcome_exact`).

The proof follows a heartbeat from act to act.  `turn?_cases` says what a turn can do: all waits
take their turns, or they are cancelled because the deadline has come, or the last of them is over
and brings the outcome.  `Waits` is the invariant as long as there is no outcome, `Decided` what
holds from then on, and `waits_perform` leads from one to the other.  Both speak of what the
informers owe the heartbeat (`Timely`): to have synced after a time `t`, and at the deadline.

That there is an outcome at all is a matter of time not standing still: at one instant only so many
turns can be taken (`turnsLeft_turn`), so turns and time lead past the deadline (`exists_past`),
which time does not pass without an outcome.
-/

namespace InformerHub

open Duration

/-- A heartbeat that waits for some factories, and what happens around it. -/
structure Vigil where
  watches : List Watch
  /-- The informers that have synced. -/
  synced : List Nat
  /-- The clock, in milliseconds. -/
  now : Nat
  beat : Heartbeat
  /-- Whether the waits were cancelled because the deadline has come. -/
  hurried : Bool
  /-- The state that shows the outcome, and when it was shown. -/
  outcome : Option (Nat × BarrierState)

namespace Vigil

/-- What may happen while a heartbeat waits. -/
inductive Act where
  /-- The informer of a resource is asked for, and made if there is none. -/
  | obtain (factory : Nat) (resource itemType : String) (fresh : Nat)
  | start (factory : Nat)
  | sync (informer : Nat)
  /-- The heartbeat takes a turn if there is anything to do. -/
  | turn
  /-- A millisecond passes unless there is anything to do. -/
  | pass

/-- The present instant in nanoseconds. -/
def instant (v : Vigil) : Nat := ofMillis v.now

/-- What has not synced, if all waits are over. -/
def pending (v : Vigil) : Option (List String) := Watch.answers v.watches

def carryOut (v : Vigil) : Heartbeat.Effect → Vigil
  | .log _ => v
  | .publish state => { v with outcome := some (v.now, state) }

/-- The vigil once the loop has taken a signal. -/
def take (v : Vigil) (signal : Heartbeat.Signal) : Vigil :=
  let (beat, effects) := v.beat.step signal
  effects.foldl carryOut { v with beat }

/-- All waits take the turns that they can. -/
def polled (v : Vigil) : Vigil :=
  { v with watches := v.watches.map (Watch.poll v.instant v.hurried v.synced) }

/-- Some wait can take a turn. -/
def stirs (v : Vigil) : Bool :=
  v.watches.any fun w => (w.turn? v.instant v.hurried v.synced).isSome

/-- A turn of the heartbeat.  None if there is nothing to do. -/
def turn? (v : Vigil) : Option Vigil :=
  match v.beat.phase with
  | .waiting _ =>
    if v.stirs then some v.polled
    else match v.beat.due? v.instant false v.pending false with
      | some signal => some (v.take signal)
      | none =>
        if !v.hurried && v.beat.overdue v.instant then some { v with hurried := true } else none
  | _ => none

/-- Something happens to a factory. -/
def onFactory (v : Vigil) (k : Nat) (change : Factory Nat → Factory Nat) : Vigil :=
  { v with watches := v.watches.modify k fun w => { w with factory := change w.factory } }

def perform (v : Vigil) : Act → Vigil
  | .obtain k resource itemType fresh =>
    v.onFactory k fun f => (f.obtain resource itemType fresh).1
  | .start k => v.onFactory k fun f => f.start.1
  | .sync i => { v with synced := i :: v.synced }
  | .turn => v.turn?.getD v
  | .pass => if v.turn?.isNone then { v with now := v.now + 1 } else v

/-- A heartbeat that begins: a loop takes its tick and asks all factories. -/
def begin (h : Heartbeat) (factories : List (Factory Nat)) (synced : List Nat) (now : Nat) :
    Vigil where
  watches := factories.map fun f => ⟨f, none⟩
  synced
  now
  beat := (h.step (.tick (ofMillis now))).1
  hurried := false
  outcome := none

/-- Every informer that was started has synced. -/
def AllSynced (v : Vigil) : Prop :=
  ∀ w ∈ v.watches, SyncWait.allSynced (w.status v.synced) = true

instance (v : Vigil) : Decidable v.AllSynced :=
  inferInstanceAs (Decidable (∀ w ∈ v.watches, _ = true))

/-! ## What a turn can do -/

variable {v v' : Vigil} {deadline : Nat}

/-- The loop has left its wait. -/
def Left (v : Vigil) : Prop := ∀ deadline, v.beat.phase ≠ .waiting deadline

theorem turn?_of_left (h : v.Left) : v.turn? = none := by
  unfold turn?
  split
  next d hp => exact absurd hp (h d)
  next => rfl

theorem take_answered (hp : v.beat.phase = .waiting deadline) (pending : List String) :
    (v.take (.answered pending false)).Left ∧
      v.take (.answered pending false) = { v with
        beat := (v.take (.answered pending false)).beat
        outcome := some (v.now,
          (Heartbeat.verdict (half v.beat.ticker.period) pending).1.state) } := by
  unfold take Heartbeat.step Left
  simp only [hp, Bool.false_eq_true, if_false]
  split
  next h => exact ⟨fun _ => by simp [carryOut], rfl⟩
  next h => exact ⟨fun _ => by simp [carryOut], rfl⟩

/-- All that a turn can do. -/
theorem turn?_cases (hp : v.beat.phase = .waiting deadline) (h : v.turn? = some v') :
    v.stirs = true ∧ v' = v.polled ∨
      (∃ pending, v.pending = some pending ∧ v'.Left ∧ v' = { v with
        beat := v'.beat
        outcome := some (v.now,
          (Heartbeat.verdict (half v.beat.ticker.period) pending).1.state) }) ∨
      deadline ≤ v.instant ∧ v.hurried = false ∧ v.stirs = false ∧
        v' = { v with hurried := true } := by
  unfold turn? at h
  simp only [hp] at h
  split at h
  next hstirs => exact Or.inl ⟨hstirs, (Option.some.inj h).symm⟩
  next hstirs =>
    simp only [Heartbeat.due?, hp] at h
    cases hpending : v.pending with
    | some pending =>
      simp only [hpending, Option.map_some] at h
      obtain rfl := Option.some.inj h
      exact Or.inr (Or.inl ⟨pending, rfl, take_answered hp pending⟩)
    | none =>
      simp only [hpending, Option.map_none] at h
      split at h
      next hover =>
        obtain rfl := Option.some.inj h
        rw [Bool.and_eq_true, Bool.not_eq_true'] at hover
        have hd := hover.2
        simp only [Heartbeat.overdue, hp, decide_eq_true_eq] at hd
        exact Or.inr (Or.inr ⟨hd, hover.1, Bool.eq_false_iff.mpr hstirs, rfl⟩)
      next => exact absurd h (by simp)

/-- If no wait can take a turn and not all of them are over, one of them pauses. -/
theorem exists_pausing (hstirs : ¬v.stirs = true) (hpending : v.pending = none) :
    ∃ w ∈ v.watches, ∃ due, w.wait = some (.pausing due) ∧ v.instant < due ∧
      v.hurried = false := by
  obtain ⟨w, hw, hanswer⟩ := Watch.exists_unanswered hpending
  have hquiet : w.turn? v.instant v.hurried v.synced = none := by
    by_contra hsome
    exact hstirs (List.any_eq_true.mpr ⟨w, hw, Option.isSome_iff_ne_none.mpr hsome⟩)
  rcases Watch.turn?_eq_none.mp hquiet with ⟨status, hended⟩ | ⟨hcancelled, due, hpausing, hdue⟩
  · rw [Watch.answer, hended] at hanswer
    exact absurd hanswer (Option.some_ne_none _)
  · exact ⟨w, hw, due, hpausing, hdue, hcancelled⟩

/-- Where there is nothing to do, some wait pauses, and the deadline is to come. -/
theorem turn?_eq_none (hp : v.beat.phase = .waiting deadline) (h : v.turn? = none) :
    v.hurried = false ∧ v.instant < deadline ∧
      ∃ w ∈ v.watches, ∃ due, w.wait = some (.pausing due) ∧ v.instant < due := by
  unfold turn? at h
  simp only [hp] at h
  split at h
  next => exact absurd h (by simp)
  next hstirs =>
    simp only [Heartbeat.due?, hp] at h
    cases hpending : v.pending with
    | some pending => simp [hpending] at h
    | none =>
      obtain ⟨w, hw, due, hwait, hdue, hcancelled⟩ := exists_pausing hstirs hpending
      simp only [hpending, Option.map_none, Heartbeat.overdue, hp, hcancelled] at h
      refine ⟨hcancelled, ?_, w, hw, due, hwait, hdue⟩
      simpa using h

theorem mem_polled {w : Watch} :
    w ∈ v.polled.watches ↔ ∃ w₀ ∈ v.watches, w₀.poll v.instant v.hurried v.synced = w :=
  List.mem_map

theorem mem_modify {β : Type} {g : β → β} {l : List β} {k : Nat} {x : β} (h : x ∈ l.modify k g) :
    ∃ y ∈ l, x = y ∨ x = g y := by
  obtain ⟨j, hj⟩ := List.mem_iff_getElem?.mp h
  rw [List.getElem?_modify] at hj
  obtain ⟨y, hy, rfl⟩ := Option.map_eq_some_iff.mp hj
  refine ⟨y, List.mem_of_getElem? hy, ?_⟩
  split
  · exact Or.inr rfl
  · exact Or.inl rfl

theorem mem_modify_of_mem {β : Type} (g : β → β) {l : List β} (k : Nat) {y : β} (h : y ∈ l) :
    y ∈ l.modify k g ∨ g y ∈ l.modify k g := by
  obtain ⟨j, hj⟩ := List.mem_iff_getElem?.mp h
  by_cases hk : k = j
  · refine Or.inr (List.mem_iff_getElem?.mpr ⟨j, ?_⟩)
    rw [List.getElem?_modify, hj, hk]
    simp
  · refine Or.inl (List.mem_iff_getElem?.mpr ⟨j, ?_⟩)
    rw [List.getElem?_modify, hj]
    simp [hk]

/-- What happens to a factory changes no wait. -/
theorem mem_onFactory {k : Nat} {change : Factory Nat → Factory Nat} {w : Watch}
    (hpoll : ∀ f, (change f).pollInterval = f.pollInterval)
    (h : w ∈ (v.onFactory k change).watches) :
    ∃ w₀ ∈ v.watches, w.wait = w₀.wait ∧ w.factory.pollInterval = w₀.factory.pollInterval := by
  obtain ⟨w₀, hw₀, rfl | rfl⟩ := mem_modify h
  · exact ⟨w, hw₀, rfl, rfl⟩
  · exact ⟨w₀, hw₀, rfl, hpoll w₀.factory⟩

theorem exists_onFactory (k : Nat) {change : Factory Nat → Factory Nat} {w : Watch}
    (hruns : ∀ f i, f.Runs i → (change f).Runs i) (h : w ∈ v.watches) :
    ∃ w' ∈ (v.onFactory k change).watches, w'.wait = w.wait ∧
      ∀ i, w.factory.Runs i → w'.factory.Runs i := by
  rcases mem_modify_of_mem (fun w => { w with factory := change w.factory }) k h with hm | hm
  · exact ⟨w, hm, rfl, fun _ => id⟩
  · exact ⟨_, hm, rfl, hruns w.factory⟩

/-! ## The invariant -/

section Invariant

variable {factories : List (Factory Nat)} {d timeout longest t : Nat} {late : Prop}

/-- A wait covers the informers that a factory ran at the beginning: they are still running, and if
the wait has ended well they have synced. -/
def Covers (synced : List Nat) (f : Factory Nat) (w : Watch) : Prop :=
  (∀ i, f.Runs i → w.factory.Runs i) ∧
    ∀ status, w.wait = some (.ended status) → SyncWait.allSynced status = true →
      ∀ i, f.Runs i → i ∈ synced

/-- Everything has synced at the moment unless it is `t` or earlier, or the waits have been
cancelled and `late` holds. -/
def Timely (t : Nat) (late : Prop) (v : Vigil) : Prop :=
  (v.now ≤ t ∨ v.AllSynced) ∧ (v.hurried = true → late ∨ v.AllSynced)

/-- A heartbeat without an outcome, in time for its deadline `d`.  `factories` were there when it
began, `longest` is a bound for their poll intervals, and all has been `Timely`. -/
structure Waits (factories : List (Factory Nat)) (d timeout longest t : Nat) (late : Prop)
    (v : Vigil) : Prop where
  undecided : v.outcome = none
  phase : v.beat.phase = .waiting (ofMillis d)
  timeout : half v.beat.ticker.period = timeout
  inTime : v.now ≤ d ∧ v.now ≤ t + longest
  hurry : v.hurried = true → v.now = d ∧ ∀ w ∈ v.watches, w.wait ≠ none
  interval : ∀ w ∈ v.watches, ∃ p, w.factory.pollInterval = ofMillis p ∧ 0 < p ∧ p ≤ longest
  pauses : ∀ w ∈ v.watches, ∀ due, w.wait = some (.pausing due) → due ≤ ofMillis (t + longest)
  ended : ∀ w ∈ v.watches, ∀ status, w.wait = some (.ended status) →
    SyncWait.allSynced status = true ∨ v.hurried = true ∧ late
  covers : ∀ f ∈ factories, ∃ w ∈ v.watches, Covers v.synced f w

/-- A heartbeat with an outcome: a good one, and all informers that ran when it began have synced,
or a bad one at the deadline. -/
structure Decided (factories : List (Factory Nat)) (d timeout longest t : Nat) (late : Prop)
    (v : Vigil) : Prop where
  left : v.Left
  outcome : ∃ e, e ≤ d ∧ e ≤ t + longest ∧
    (v.outcome = some (e, .ready) ∧ (∀ f ∈ factories, ∀ i, f.Runs i → i ∈ v.synced) ∨
      v.outcome = some (e, .degraded timeout) ∧ e = d ∧ late)

theorem allSynced_status {w : Watch} {synced : List Nat} :
    SyncWait.allSynced (w.status synced) = true ↔ ∀ i, w.factory.Runs i → i ∈ synced := by
  unfold Watch.status
  rw [Factory.allSynced_syncStatus]
  simp

theorem waits_polled (h : Waits factories d timeout longest t late v) (hq : Timely t late v) :
    Waits factories d timeout longest t late v.polled where
  undecided := h.undecided
  phase := h.phase
  timeout := h.timeout
  inTime := h.inTime
  hurry hh := by
    refine ⟨(h.hurry hh).1, fun w hw => ?_⟩
    obtain ⟨w₀, -, rfl⟩ := mem_polled.mp hw
    exact Watch.wait_poll_ne_none w₀ _ _ _
  interval w hw := by
    obtain ⟨w₀, hw₀, rfl⟩ := mem_polled.mp hw
    rw [Watch.poll_factory]
    exact h.interval w₀ hw₀
  pauses w hw due hdue := by
    obtain ⟨w₀, hw₀, rfl⟩ := mem_polled.mp hw
    rcases Watch.pausing_poll hdue with hp | ⟨rfl, hs⟩
    · exact h.pauses w₀ hw₀ due hp
    · -- the look was in vain, so it is early enough for the next one
      have ht : v.now ≤ t := hq.1.resolve_right fun hall => by
        rw [hall w₀ hw₀] at hs
        exact absurd hs (by simp)
      obtain ⟨p, hp, -, hlongest⟩ := h.interval w₀ hw₀
      have hmin : timerEnd v.instant (ofMillis p) ≤ v.instant + ofMillis p :=
        Nat.add_le_add_left (Nat.min_le_left _ _) _
      rw [hp]
      refine Nat.le_trans hmin ?_
      unfold instant
      rw [← ofMillis_add, ofMillis_le]
      omega
  ended w hw status hs := by
    obtain ⟨w₀, hw₀, rfl⟩ := mem_polled.mp hw
    rcases Watch.ended_poll hs with hs | ⟨rfl, hs | hh⟩
    · exact h.ended w₀ hw₀ status hs
    · exact Or.inl hs
    · exact (hq.2 hh).symm.imp (fun hall => hall w₀ hw₀) fun hl => ⟨hh, hl⟩
  covers f hf := by
    obtain ⟨w, hw, hruns, hended⟩ := h.covers f hf
    refine ⟨_, mem_polled.mpr ⟨w, hw, rfl⟩, ?_, ?_⟩
    · rw [Watch.poll_factory]
      exact hruns
    · intro status hs hgood i hi
      rcases Watch.ended_poll hs with hs | ⟨rfl, -⟩
      · exact hended status hs hgood i hi
      · exact allSynced_status.mp hgood i (hruns i hi)

theorem waits_onFactory (h : Waits factories d timeout longest t late v) (k : Nat)
    {change : Factory Nat → Factory Nat} (hruns : ∀ f i, f.Runs i → (change f).Runs i)
    (hpoll : ∀ f, (change f).pollInterval = f.pollInterval) :
    Waits factories d timeout longest t late (v.onFactory k change) where
  undecided := h.undecided
  phase := h.phase
  timeout := h.timeout
  inTime := h.inTime
  hurry hh := by
    refine ⟨(h.hurry hh).1, fun w hw => ?_⟩
    obtain ⟨w₀, hw₀, hwait, -⟩ := mem_onFactory hpoll hw
    rw [hwait]
    exact (h.hurry hh).2 w₀ hw₀
  interval w hw := by
    obtain ⟨w₀, hw₀, -, hp⟩ := mem_onFactory hpoll hw
    rw [hp]
    exact h.interval w₀ hw₀
  pauses w hw due hdue := by
    obtain ⟨w₀, hw₀, hwait, -⟩ := mem_onFactory hpoll hw
    exact h.pauses w₀ hw₀ due (hwait ▸ hdue)
  ended w hw status hs := by
    obtain ⟨w₀, hw₀, hwait, -⟩ := mem_onFactory hpoll hw
    exact h.ended w₀ hw₀ status (hwait ▸ hs)
  covers f hf := by
    obtain ⟨w, hw, hcovers, hended⟩ := h.covers f hf
    obtain ⟨w', hw', hwait, hr⟩ := exists_onFactory k hruns hw
    exact ⟨w', hw', fun i hi => hr i (hcovers i hi), fun status hs => hended status (hwait ▸ hs)⟩

theorem waits_sync (h : Waits factories d timeout longest t late v) (i : Nat) :
    Waits factories d timeout longest t late { v with synced := i :: v.synced } :=
  { h with
    covers := fun f hf => by
      obtain ⟨w, hw, hcovers, hended⟩ := h.covers f hf
      exact ⟨w, hw, hcovers, fun status hs hgood j hj =>
        List.mem_cons_of_mem i (hended status hs hgood j hj)⟩ }

theorem waits_pass (h : Waits factories d timeout longest t late v) (hquiet : v.turn? = none) :
    Waits factories d timeout longest t late { v with now := v.now + 1 } := by
  obtain ⟨hn, hd, w, hw, due, hwait, hdue⟩ := turn?_eq_none h.phase hquiet
  have hlt : ∀ {m}, v.instant < ofMillis m → v.now < m := fun hlt =>
    Nat.lt_of_not_le fun hle => Nat.not_le_of_lt hlt (ofMillis_le.mpr hle)
  exact { h with
    inTime := ⟨hlt hd, hlt (Nat.lt_of_lt_of_le hdue (h.pauses w hw due hwait))⟩
    hurry := fun hh => absurd (hn.symm.trans hh) (by simp) }

theorem waits_hurry (h : Waits factories d timeout longest t late v) (hd : ofMillis d ≤ v.instant)
    (hn : v.hurried = false) (hstirs : v.stirs = false) :
    Waits factories d timeout longest t late { v with hurried := true } :=
  { h with
    hurry := fun _ => by
      refine ⟨Nat.le_antisymm h.inTime.1 (ofMillis_le.mp hd), fun w hw hnone => ?_⟩
      -- a wait that had not begun could have taken a turn
      have hquiet := List.any_eq_false.mp hstirs w hw
      simp [Watch.turn?, hnone] at hquiet
    ended := fun w hw status hs =>
      (h.ended w hw status hs).imp_right fun hh => absurd (hn.symm.trans hh.1) (by simp) }

/-- The outcome is right. -/
theorem decided_of_answered (h : Waits factories d timeout longest t late v)
    {pending : List String} (hp : v.pending = some pending) (hleft : v'.Left)
    (hv : v' = { v with
      beat := v'.beat
      outcome := some (v.now,
        (Heartbeat.verdict (half v.beat.ticker.period) pending).1.state) }) :
    Decided factories d timeout longest t late v' ∧ v'.synced = v.synced := by
  obtain ⟨hended, hnil⟩ := Watch.answers_eq_some hp
  have houtcome : v'.outcome = some (v.now,
    (Heartbeat.verdict (half v.beat.ticker.period) pending).1.state) := by rw [hv]
  have hsynced : v'.synced = v.synced := by rw [hv]
  refine ⟨⟨hleft, v.now, h.inTime.1, h.inTime.2, ?_⟩, hsynced⟩
  rw [houtcome, hsynced, h.timeout]
  unfold Heartbeat.verdict
  cases pending with
  | nil =>
    refine Or.inl ⟨rfl, fun f hf i hi => ?_⟩
    obtain ⟨w, hw, -, hcovers⟩ := h.covers f hf
    obtain ⟨status, hs⟩ := hended w hw
    exact hcovers status hs (hnil.mp rfl w hw status hs) i hi
  | cons name names =>
    -- some wait has not ended well, so it was cancelled
    have hbad : v.hurried = true ∧ late := by
      by_contra hgood
      refine absurd (hnil.mpr fun w hw status hs => ?_) (by simp)
      exact (h.ended w hw status hs).resolve_right hgood
    exact Or.inr ⟨rfl, (h.hurry hbad.1).1, hbad.2⟩

theorem obtain_pollInterval (f : Factory Nat) (resource itemType : String) (fresh : Nat) :
    (f.obtain resource itemType fresh).1.pollInterval = f.pollInterval := by
  unfold Factory.obtain
  split <;> rfl

/-- **One act** leaves a heartbeat waiting, or it is the turn that brings the outcome. -/
theorem waits_perform (h : Waits factories d timeout longest t late v) (hq : Timely t late v)
    (a : Act) : Waits factories d timeout longest t late (v.perform a) ∨
      Decided factories d timeout longest t late (v.perform a) ∧
        (v.perform a).synced = v.synced := by
  cases a with
  | obtain k resource itemType fresh =>
    exact Or.inl (waits_onFactory h k (fun f i hi => hi.obtain resource itemType fresh)
      fun f => obtain_pollInterval f resource itemType fresh)
  | start k => exact Or.inl (waits_onFactory h k (fun f i hi => hi.start) fun f => rfl)
  | sync i => exact Or.inl (waits_sync h i)
  | turn =>
    unfold perform
    cases ht : v.turn? with
    | none => exact Or.inl h
    | some v' =>
      rcases turn?_cases h.phase ht with
        ⟨-, rfl⟩ | ⟨pending, hp, hleft, hv⟩ | ⟨hd, hn, hstirs, rfl⟩
      · exact Or.inl (waits_polled h hq)
      · exact Or.inr (decided_of_answered h hp hleft hv)
      · exact Or.inl (waits_hurry h hd hn hstirs)
  | pass =>
    unfold perform
    dsimp only
    split
    next hquiet => exact Or.inl (waits_pass h (Option.isNone_iff_eq_none.mp hquiet))
    next => exact Or.inl h

/-- An outcome stays. -/
theorem perform_of_left (h : v.Left) (a : Act) :
    (v.perform a).Left ∧ (v.perform a).outcome = v.outcome ∧ v.synced ⊆ (v.perform a).synced := by
  cases a with
  | obtain | start => exact ⟨h, rfl, List.Subset.refl _⟩
  | sync i => exact ⟨h, rfl, List.subset_cons_self _ _⟩
  | turn =>
    unfold perform
    rw [turn?_of_left h]
    exact ⟨h, rfl, List.Subset.refl _⟩
  | pass =>
    unfold perform
    rw [turn?_of_left h]
    exact ⟨h, rfl, List.Subset.refl _⟩

theorem decided_perform (h : Decided factories d timeout longest t late v) (a : Act) :
    Decided factories d timeout longest t late (v.perform a) := by
  obtain ⟨hleft, e, hd, ht, houtcome⟩ := h
  obtain ⟨hleft', hsame, hsynced⟩ := perform_of_left hleft a
  refine ⟨hleft', e, hd, ht, ?_⟩
  rw [hsame]
  exact houtcome.imp_left fun ⟨ho, hall⟩ => ⟨ho, fun f hf i hi => hsynced (hall f hf i hi)⟩

/-! ## Time goes on -/

/-- A heartbeat that still waits, or has come to the right outcome. -/
def Sound (factories : List (Factory Nat)) (d timeout longest t : Nat) (late : Prop) (v : Vigil) :
    Prop :=
  Waits factories d timeout longest t late v ∨ Decided factories d timeout longest t late v

theorem sound_perform (h : Sound factories d timeout longest t late v)
    (hq : Waits factories d timeout longest t late v → Timely t late v) (a : Act) :
    Sound factories d timeout longest t late (v.perform a) := by
  rcases h with h | h
  · exact (waits_perform h (hq h) a).imp_right And.left
  · exact Or.inr (decided_perform h a)

/-- With `t` at the deadline and `late` the informers owe a heartbeat nothing. -/
theorem Waits.timely (h : Waits factories d timeout longest d True v) : Timely d True v :=
  ⟨Or.inl h.inTime.1, fun _ => Or.inl trivial⟩

/-- After the waits have taken their turns, none can take another one at the same instant. -/
theorem stirs_polled (h : Waits factories d timeout longest t late v) : v.polled.stirs = false := by
  refine List.any_eq_false.mpr fun w hw => ?_
  obtain ⟨w₀, hw₀, rfl⟩ := mem_polled.mp hw
  obtain ⟨p, hp, hpos, -⟩ := h.interval w₀ hw₀
  have hinterval : 0 < w₀.factory.pollInterval := by
    rw [hp]
    exact Nat.mul_pos hpos (by decide)
  have hquiet : (w₀.poll v.instant v.hurried v.synced).turn? v.instant v.hurried v.synced = none :=
    Watch.turn?_poll (fun hh => (h.hurry hh).2 w₀ hw₀) hinterval
  simp [polled, instant] at hquiet ⊢
  exact hquiet

/-- A bound for the turns that are left at one instant. -/
def turnsLeft (v : Vigil) : Nat :=
  if v.outcome.isSome then 0
  else 1 + (if v.hurried then 0 else 2) + if v.stirs then 1 else 0

/-- A bound for the steps that are left until the deadline has passed. -/
def stepsLeft (d : Nat) (v : Vigil) : Nat := 5 * (d + 1 - v.now) + v.turnsLeft

theorem turnsLeft_le (v : Vigil) : v.turnsLeft ≤ 4 := by
  unfold turnsLeft
  split
  · omega
  · split <;> split <;> omega

theorem turnsLeft_turn (h : Waits factories d timeout longest t late v) (ht : v.turn? = some v') :
    v'.now = v.now ∧ v'.turnsLeft < v.turnsLeft := by
  have hnone : v.outcome.isSome = false := by simp [h.undecided]
  rcases turn?_cases h.phase ht with
    ⟨hstirs, rfl⟩ | ⟨pending, hp, hleft, hv⟩ | ⟨hd, hn, hstirs, rfl⟩
  · refine ⟨rfl, ?_⟩
    have hafter := stirs_polled h
    simp only [turnsLeft, hstirs, hafter, show v.polled.outcome = v.outcome from rfl,
      show v.polled.hurried = v.hurried from rfl, hnone, Bool.false_eq_true, if_false, if_true]
    omega
  · refine ⟨by rw [hv], ?_⟩
    have hsome : v'.outcome.isSome = true := by rw [hv]; rfl
    simp only [turnsLeft, hsome, hnone, Bool.false_eq_true, if_false, if_true]
    omega
  · refine ⟨rfl, ?_⟩
    simp only [turnsLeft, hnone, hn, hstirs, Bool.false_eq_true, if_false, if_true]
    split <;> omega

/-- Up to the deadline there is always a step to take. -/
theorem stepsLeft_perform (h : Sound factories d timeout longest t late v) (hd : v.now ≤ d) :
    ∃ a, (a = .turn ∨ a = .pass) ∧ stepsLeft d (v.perform a) < stepsLeft d v := by
  cases ht : v.turn? with
  | some v' =>
    refine ⟨.turn, Or.inl rfl, ?_⟩
    have hperform : v.perform .turn = v' := by simp [perform, ht]
    rcases h with h | h
    · obtain ⟨hnow, hless⟩ := turnsLeft_turn h ht
      rw [hperform]
      unfold stepsLeft
      omega
    · exact absurd (turn?_of_left h.left) (by simp [ht])
  | none =>
    refine ⟨.pass, Or.inr rfl, ?_⟩
    have hperform : v.perform .pass = { v with now := v.now + 1 } := by simp [perform, ht]
    have hle := turnsLeft_le { v with now := v.now + 1 }
    rw [hperform]
    unfold stepsLeft
    show 5 * (d + 1 - (v.now + 1)) + _ < _
    omega

/-- Turns and time alone lead past the deadline. -/
theorem exists_past (h : Sound factories d timeout longest d True v) :
    ∃ more : List Act, (∀ a ∈ more, a = .turn ∨ a = .pass) ∧ d < (more.foldl perform v).now := by
  induction hn : stepsLeft d v using Nat.strongRecOn generalizing v with
  | ind n ih =>
    by_cases hd : d < v.now
    · exact ⟨[], fun a ha => absurd ha List.not_mem_nil, hd⟩
    · obtain ⟨a, ha, hless⟩ := stepsLeft_perform h (Nat.le_of_not_lt hd)
      obtain ⟨more, hmore, hpast⟩ := ih _ (hn ▸ hless) (sound_perform h Waits.timely a) rfl
      refine ⟨a :: more, fun b hb => ?_, hpast⟩
      rcases List.mem_cons.mp hb with rfl | hb
      · exact ha
      · exact hmore b hb

end Invariant

/-! ## Runs -/

/-- The vigil after some acts. -/
def run (h : Heartbeat) (factories : List (Factory Nat)) (synced : List Nat) (start : Nat)
    (acts : List Act) : Vigil := acts.foldl perform (begin h factories synced start)

/-- A loop that is about to take a tick at `start`, with an interval of `2 * n` milliseconds and a
deadline that can be told, and factories with poll intervals that are positive and not longer than
`longest`, all in milliseconds. -/
structure Fits (h : Heartbeat) (factories : List (Factory Nat)) (start n longest : Nat) : Prop where
  ticking : h.phase = .ticking
  period : h.ticker.period = ofMillis (2 * n)
  room : ofMillis (start + n) < lastInstant
  polls : ∀ f ∈ factories, ∃ p, f.pollInterval = ofMillis p ∧ 0 < p ∧ p ≤ longest

section Run

variable {h : Heartbeat} {factories : List (Factory Nat)} {start n longest : Nat}

theorem waits_begin (hf : Fits h factories start n longest) (synced : List Nat) {t : Nat}
    (ht : start ≤ t) (late : Prop) :
    Waits factories (start + n) (ofMillis n) longest t late (begin h factories synced start) := by
  have hstep : (h.step (.tick (ofMillis start))).1 =
      { h with
        ticker := h.ticker.take (ofMillis start)
        phase := .waiting (ofMillis (start + n)) } := by
    have hroom := hf.room
    rw [ofMillis_add] at hroom
    simp [Heartbeat.step, hf.ticking, hf.period, half_ofMillis, ofMillis_add,
      Nat.not_le_of_lt hroom]
  have hmem : ∀ w ∈ (begin h factories synced start).watches, ∃ f ∈ factories, ⟨f, none⟩ = w :=
    fun w hw => List.mem_map.mp hw
  refine ⟨rfl, ?_, ?_, ⟨Nat.le_add_right _ _, Nat.le_add_right_of_le ht⟩,
    fun hh => absurd hh (by simp [begin]), fun w hw => ?_, fun w hw due hdue => ?_,
    fun w hw status hs => ?_, fun f hf => ?_⟩
  · show (h.step _).1.phase = _
    rw [hstep]
  · show half (h.step _).1.ticker.period = _
    rw [hstep]
    show half h.ticker.period = _
    rw [hf.period, half_ofMillis]
  · obtain ⟨f, hmf, rfl⟩ := hmem w hw
    exact hf.polls f hmf
  · obtain ⟨f, -, rfl⟩ := hmem w hw
    exact absurd hdue (by simp)
  · obtain ⟨f, -, rfl⟩ := hmem w hw
    exact absurd hs (by simp)
  · exact ⟨⟨f, none⟩, List.mem_map.mpr ⟨f, hf, rfl⟩, fun _ => id,
      fun status hs => absurd hs (by simp)⟩

theorem run_concat (h : Heartbeat) (factories : List (Factory Nat)) (synced : List Nat)
    (start : Nat) (acts : List Act) (a : Act) :
    run h factories synced start (acts ++ [a]) = (run h factories synced start acts).perform a :=
  List.foldl_append

/-- What the beginning has, and every act keeps from a state in which `Q` holds. -/
theorem run_induction {P Q : Vigil → Prop} {synced : List Nat}
    (base : P (begin h factories synced start)) (step : ∀ v a, Q v → P v → P (v.perform a))
    (acts : List Act) (hq : ∀ pre, pre <+: acts → Q (run h factories synced start pre)) :
    P (run h factories synced start acts) := by
  induction acts using List.reverseRecOn with
  | nil => exact base
  | append_singleton acts a ih =>
    rw [run_concat]
    exact step _ a (hq acts (List.prefix_append acts [a]))
      (ih fun pre hpre => hq pre (hpre.trans (List.prefix_append acts [a])))

theorem sound_run (hf : Fits h factories start n longest) (synced : List Nat) (acts : List Act) :
    Sound factories (start + n) (ofMillis n) longest (start + n) True
      (run h factories synced start acts) :=
  run_induction (P := Sound factories (start + n) (ofMillis n) longest (start + n) True)
    (Q := fun _ => True) (Or.inl (waits_begin hf synced (Nat.le_add_right _ _) True))
    (fun _ a _ hv => sound_perform hv Waits.timely a) acts fun _ _ => trivial

/-- If everything has synced whenever it is later than `t`, and at the deadline, the outcome is
good, and comes with the first look after `t` at the latest. -/
theorem ready_of_allSynced (hf : Fits h factories start n longest) (synced : List Nat) {t : Nat}
    (ht : start ≤ t) (acts : List Act)
    (hq : ∀ pre, pre <+: acts → (run h factories synced start pre).outcome = none →
      (run h factories synced start pre).now ≤ start + n →
      t < (run h factories synced start pre).now ∨
        (run h factories synced start pre).now = start + n →
      (run h factories synced start pre).AllSynced) {e : Nat} {state : BarrierState}
    (ho : (run h factories synced start acts).outcome = some (e, state)) :
    state = .ready ∧ e ≤ min (t + longest) (start + n) := by
  have hall : Sound factories (start + n) (ofMillis n) longest t False
      (run h factories synced start acts) := by
    refine run_induction (P := Sound factories (start + n) (ofMillis n) longest t False)
      (Q := fun v => v.outcome = none → v.now ≤ start + n → t < v.now ∨ v.now = start + n →
        v.AllSynced)
      (Or.inl (waits_begin hf synced ht False)) ?_ acts hq
    refine fun v a hq hv => sound_perform hv (fun hw => ⟨?_, fun hh => Or.inr ?_⟩) a
    · exact (Nat.lt_or_ge t v.now).symm.imp_right fun hlt =>
        hq hw.undecided hw.inTime.1 (Or.inl hlt)
    · exact hq hw.undecided hw.inTime.1 (Or.inr (hw.hurry hh).1)
  rcases hall with hw | ⟨-, e', hd, ht', hgood | hbad⟩
  · exact absurd (hw.undecided.symm.trans ho) (by simp)
  · obtain ⟨rfl, rfl⟩ := Prod.mk.inj (Option.some.inj (ho.symm.trans hgood.1))
    exact ⟨rfl, Nat.le_min.mpr ⟨ht', hd⟩⟩
  · exact absurd hbad.2.2 id

/-- If an informer that ran at the beginning has not synced up to the deadline, the outcome is bad,
and comes at the deadline. -/
theorem degraded_of_unsynced (hf : Fits h factories start n longest) (synced : List Nat)
    {f : Factory Nat} (hmem : f ∈ factories) {i : Nat} (hi : f.Runs i) (acts : List Act)
    (hq : ∀ pre, pre <+: acts → (run h factories synced start pre).now ≤ start + n →
      i ∉ (run h factories synced start pre).synced) {e : Nat} {state : BarrierState}
    (ho : (run h factories synced start acts).outcome = some (e, state)) :
    state = .degraded (ofMillis n) ∧ e = start + n := by
  have hall : Waits factories (start + n) (ofMillis n) longest (start + n) True
      (run h factories synced start acts) ∨
      (run h factories synced start acts).Left ∧ (run h factories synced start acts).outcome =
        some (start + n, .degraded (ofMillis n)) := by
    refine run_induction (P := fun v =>
        Waits factories (start + n) (ofMillis n) longest (start + n) True v ∨
        v.Left ∧ v.outcome = some (start + n, .degraded (ofMillis n)))
      (Q := fun v => v.now ≤ start + n → i ∉ v.synced)
      (Or.inl (waits_begin hf synced (Nat.le_add_right _ _) True)) ?_ acts hq
    rintro v a hq (hw | ⟨hleft, hv⟩)
    · refine (waits_perform hw hw.timely a).imp_right ?_
      rintro ⟨⟨hleft, e, -, -, ⟨-, hgood⟩ | ⟨hbad, rfl, -⟩⟩, hsynced⟩
      · exact absurd (hsynced ▸ hgood f hmem i hi) (hq hw.inTime.1)
      · exact ⟨hleft, hbad⟩
    · obtain ⟨hleft', hsame, -⟩ := perform_of_left hleft a
      exact Or.inr ⟨hleft', hsame.trans hv⟩
  rcases hall with hw | ⟨-, hv⟩
  · exact absurd (hw.undecided.symm.trans ho) (by simp)
  · obtain ⟨rfl, rfl⟩ := Prod.mk.inj (Option.some.inj (hv.symm.trans ho))
    exact ⟨rfl, rfl⟩

/-- **The outcome of a heartbeat is exact.**  Take a heartbeat that begins at `start`, and whatever
happens to its factories.  Turns and time alone lead past its deadline, and then it has an outcome:

* if all that has been started has synced at the deadline, the outcome is ready, and not later than
  the deadline;
* if all that has been started has synced whenever it is later than `t`, it comes at the latest with
  the first look after `t`, for which there is no longer to wait than the longest poll interval;
* if an informer that ran at the beginning has not synced up to the deadline, the outcome is
  degraded, and comes exactly at the deadline;
* if the outcome is ready, all informers that ran at the beginning have synced.

What happens after the outcome does not count for the first two. -/
theorem outcome_exact (hf : Fits h factories start n longest) (synced : List Nat)
    (acts : List Act) :
    let d := start + n
    let after := run h factories synced start
    (∃ more, (∀ a ∈ more, a = .turn ∨ a = .pass) ∧ d < (after (acts ++ more)).now) ∧
    (d < (after acts).now → (after acts).outcome ≠ none) ∧
    ((∀ pre, pre <+: acts → (after pre).outcome = none → (after pre).now = d →
        (after pre).AllSynced) →
      ∀ e state, (after acts).outcome = some (e, state) → state = .ready ∧ e ≤ d) ∧
    (∀ t, start ≤ t → t < d →
      (∀ pre, pre <+: acts → (after pre).outcome = none → t < (after pre).now →
        (after pre).AllSynced) →
      ∀ e state, (after acts).outcome = some (e, state) →
        state = .ready ∧ e ≤ min (t + longest) d) ∧
    (∀ f ∈ factories, ∀ i, f.Runs i →
      (∀ pre, pre <+: acts → (after pre).now ≤ d → i ∉ (after pre).synced) →
      ∀ e state, (after acts).outcome = some (e, state) →
        state = .degraded (ofMillis n) ∧ e = d) ∧
    (∀ e, (after acts).outcome = some (e, .ready) →
      ∀ f ∈ factories, ∀ i, f.Runs i → i ∈ (after acts).synced) := by
  intro d after
  have hsound := sound_run hf synced acts
  refine ⟨?_, fun hpast hnone => ?_, fun hq e state ho => ?_, fun t ht htd hq e state ho => ?_,
    fun f hmem i hi hq e state ho => degraded_of_unsynced hf synced hmem hi acts hq ho,
    fun e ho f hmem i hi => ?_⟩
  · obtain ⟨more, hmore, hpast⟩ := exists_past hsound
    refine ⟨more, hmore, ?_⟩
    show d < (List.foldl perform _ (acts ++ more)).now
    rw [List.foldl_append]
    exact hpast
  · rcases hsound with hw | ⟨-, e, -, -, ⟨ho, -⟩ | ⟨ho, -⟩⟩
    · exact absurd hw.inTime.1 (Nat.not_le_of_lt hpast)
    · exact absurd (hnone.symm.trans ho) (by simp)
    · exact absurd (hnone.symm.trans ho) (by simp)
  · obtain ⟨hready, he⟩ := ready_of_allSynced hf synced (t := d) (Nat.le_add_right _ _) acts
      (fun pre hpre hnone hle hlt =>
        hq pre hpre hnone (hlt.resolve_left (Nat.not_lt_of_le hle))) ho
    exact ⟨hready, Nat.le_trans he (Nat.min_le_right _ _)⟩
  · exact ready_of_allSynced hf synced ht acts
      (fun pre hpre hnone hle hlt =>
        hq pre hpre hnone (hlt.elim id fun he => Nat.lt_of_lt_of_eq htd he.symm)) ho
  · rcases hsound with hw | ⟨-, e', -, -, ⟨-, hall⟩ | ⟨hbad, -⟩⟩
    · exact absurd (hw.undecided.symm.trans ho) (by simp)
    · exact hall f hmem i hi
    · exact absurd (hbad.symm.trans ho) (by simp)

end Run

/-- A factory that runs one informer and looks at it every `poll` milliseconds. -/
def single (name : String) (informer poll : Nat) : Factory Nat where
  name
  entries := SortedMap.ofList [("pods", ⟨"Pod", informer, true⟩)]
  resyncPeriod := none
  relistPolicy := default
  pollInterval := ofMillis poll

/-- Two factories that are looked at every three and every four milliseconds. -/
def pair : List (Factory Nat) := [single "a" 1 3, single "b" 2 4]

/-- A loop with an interval of twenty milliseconds before its first tick. -/
def loop : Heartbeat := ⟨⟨0, ofMillis 20⟩, false, .ticking⟩

/-- What a heartbeat does within some milliseconds. -/
def wait (millis : Nat) : List Act :=
  (List.replicate millis [Act.turn, .turn, .turn, .turn, .pass]).flatten

theorem fits_pair : Fits loop pair 0 10 4 := by
  refine ⟨rfl, rfl, by decide, fun f hf => ?_⟩
  rcases List.mem_cons.mp hf with rfl | hf
  · exact ⟨3, rfl, by decide, by decide⟩
  · rw [List.mem_singleton.mp hf]
    exact ⟨4, rfl, by decide, by decide⟩

/-- The informers sync after the last look before the deadline; they sync early; one of them does
not sync in time. -/
theorem outcome_pair :
    (∀ e state, (run loop pair [] 0 (wait 9 ++ [.turn, .sync 1, .sync 2] ++ wait 2)).outcome =
      some (e, state) → state = .ready ∧ e ≤ 10) ∧
    (run loop pair [] 0 (wait 9 ++ [.turn, .sync 1, .sync 2] ++ wait 2)).outcome =
      some (10, .ready) ∧
    (∀ e state, (run loop pair [] 0 (wait 5 ++ [.turn, .sync 1, .sync 2] ++ wait 6)).outcome =
      some (e, state) → state = .ready ∧ e ≤ min (5 + 4) 10) ∧
    (run loop pair [] 0 (wait 5 ++ [.turn, .sync 1, .sync 2] ++ wait 6)).outcome =
      some (8, .ready) ∧
    (∀ e state, (run loop pair [] 0 (.sync 1 :: wait 11 ++ [.sync 2])).outcome = some (e, state) →
      state = .degraded (ofMillis 10) ∧ e = 10) ∧
    (run loop pair [] 0 (.sync 1 :: wait 11 ++ [.sync 2])).outcome =
      some (10, .degraded (ofMillis 10)) := by
  have every : ∀ (acts : List Act) (Q : List Act → Prop), (∀ pre ∈ acts.inits, Q pre) →
      ∀ pre, pre <+: acts → Q pre :=
    fun acts Q hq pre hpre => hq pre ((List.mem_inits pre acts).mpr hpre)
  obtain ⟨-, -, hlate, -⟩ :=
    outcome_exact fits_pair [] (wait 9 ++ [.turn, .sync 1, .sync 2] ++ wait 2)
  obtain ⟨-, -, -, hearly, -⟩ :=
    outcome_exact fits_pair [] (wait 5 ++ [.turn, .sync 1, .sync 2] ++ wait 6)
  obtain ⟨-, -, -, -, hnever, -⟩ :=
    outcome_exact fits_pair [] (.sync 1 :: wait 11 ++ [.sync 2])
  refine ⟨hlate (every _ _ (by decide +kernel)), by decide +kernel,
    hearly 5 (by decide) (by decide) (every _ _ (by decide +kernel)), by decide +kernel,
    hnever (single "b" 2 4) (List.mem_cons_of_mem _ (List.mem_singleton_self _)) 2
      ⟨"pods", _, rfl, rfl, rfl⟩ (every _ _ (by decide +kernel)), by decide +kernel⟩

end Vigil

end InformerHub
