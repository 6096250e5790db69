import Mathlib.Data.List.Chain
import InformerHub.Proofs.Steady

/-!
# The rhythm of a barrier

A barrier's loop takes its ticks from a ticker, and between two ticks it waits for its waiters and
for its hook, for as long as these take.  `Rhythm` is the loop with both around it, and it writes
down when each heartbeat begins, when its waiters are cancelled, and when its wait and its hook are
over.

> Heartbeats come one after the other and never closer than the interval, but for the tolerance of
> the ticker; while none of them takes longer than the interval, they begin on a grid of intervals
> (`keeps_time`).

Time is the world's, with one restriction: it does not pass an instant at which the loop is due for
a turn (`alarm`).  Otherwise the acts come in any order.

The ticker is taken for what it is said to be (`Ticker.Delays`); it is so for every period that
timers reach (`delays_of_le`).  The invariant is `Paced`: the next tick is due not much earlier than
an interval after the last beginning, and on the grid as long as the beginnings have been.
-/

namespace InformerHub

namespace Ticker

/-- After a tick taken at `now` the next one is due a period after this one was due, or a period
after `now` if that is later by more than the tolerance. -/
def Delays (period : Nat) : Prop :=
  ∀ due now, (take ⟨due, period⟩ now).due =
    if now ≤ due + tolerance then due + period else now + period

theorem delays_of_le {period : Nat} (h : period ≤ Duration.horizon) : Delays period := by
  intro due now
  unfold take Duration.timerEnd
  by_cases hn : now ≤ due + tolerance
  · have hlate : ¬(Duration.horizon < period ∨ due + tolerance < now) := by omega
    simp [hlate, hn]
  · have hlate : Duration.horizon < period ∨ due + tolerance < now := by omega
    simp [hlate, hn, h]

end Ticker

/-! ## Heartbeats with their times -/

/-- A heartbeat as far as it has come. -/
structure Pulse where
  start : Nat
  /-- When its waiters were cancelled, if they were. -/
  hurried : Option Nat
  /-- When its wait was over. -/
  waited : Option Nat
  /-- When it was over, with the call of the hook if there was one. -/
  ended : Option Nat
  deriving DecidableEq, Repr

namespace Pulse

/-- A heartbeat and the one after it: the first one's wait and hook are over before the second one
begins, and the beginnings are an interval apart, but for the tolerance. -/
structure Before (interval : Nat) (p q : Pulse) : Prop where
  done : ∃ w e, p.waited = some w ∧ p.ended = some e ∧ p.start ≤ w ∧ w ≤ e ∧ e ≤ q.start
  apart : p.start + interval ≤ q.start + Ticker.tolerance

/-- A wait: its waiters are cancelled at the deadline and not before, and it is over by then unless
they are. -/
structure Bounded (timeout : Nat) (p : Pulse) : Prop where
  hurried : ∀ c, p.hurried = some c → c = p.start + timeout
  waited : ∀ w, p.waited = some w → p.hurried = none → w ≤ p.start + timeout

/-- None of some heartbeats has taken longer than the interval. -/
def InTime (interval : Nat) (ps : List Pulse) : Prop :=
  ∀ p ∈ ps, ∀ e, p.ended = some e → e ≤ p.start + interval

theorem inTime_of_append {interval : Nat} {ps qs : List Pulse} (h : InTime interval (ps ++ qs)) :
    InTime interval ps :=
  fun p hp => h p (List.mem_append_left _ hp)

end Pulse

/-- A run of a barrier's loop, with its waiters and its hook. -/
structure Rhythm where
  loop : Supervision
  /-- What is still pending, once all waits of the present heartbeat are over. -/
  answers : Option (List String)
  /-- Whether the hook has returned. -/
  returned : Bool
  /-- The heartbeats that are over. -/
  past : List Pulse
  /-- The heartbeat that is under way, or was cut short. -/
  present : Option Pulse
  deriving DecidableEq, Repr

namespace Rhythm

inductive Act where
  | pass (time : Nat)
  | shutDown
  /-- All waits of a heartbeat are over. -/
  | answer (pending : List String)
  | hookReturns
  /-- The loop takes a turn. -/
  | turn

/-- All heartbeats so far. -/
def pulses (r : Rhythm) : List Pulse := r.past ++ r.present.toList

/-- Whether the waiters of the present heartbeat were cancelled. -/
def hurries (r : Rhythm) : Bool := r.present.any fun p => p.hurried.isSome

/-- The instant at which the loop is due for a turn, if it does not wait for others. -/
def alarm (r : Rhythm) : Option Nat :=
  match r.loop.beat.phase with
  | .ticking => some (if r.loop.shutDown then r.loop.now else r.loop.beat.ticker.due)
  | .waiting deadline =>
    if r.answers.isSome then some r.loop.now
    else if r.hurries then none
    else some deadline
  | .reporting _ =>
    if r.loop.shutDown || !r.loop.calling || r.returned then some r.loop.now else none
  | .ended _ => none

/-- The run once its loop has come to `s`, with the time of what was begun or ended by that. -/
def note (r : Rhythm) (s : Supervision) : Rhythm :=
  match r.loop.beat.phase, s.beat.phase with
  | .ticking, .waiting _ =>
    { r with
      loop := s, answers := none, returned := false
      present := some ⟨s.now, none, none, none⟩ }
  | .waiting _, .reporting _ =>
    { r with loop := s, present := r.present.map fun p => { p with waited := some s.now } }
  | .waiting _, .ticking =>
    { r with
      loop := s, present := none
      past := r.past ++ r.present.toList.map fun p =>
        { p with waited := some s.now, ended := some s.now } }
  | .reporting _, .ticking =>
    { r with
      loop := s, present := none
      past := r.past ++ r.present.toList.map fun p => { p with ended := some s.now } }
  | _, _ => { r with loop := s }

/-- The run after a turn of its loop.  At the deadline of a wait the waiters are cancelled. -/
def turn (r : Rhythm) : Rhythm :=
  if r.loop.beat.overdue r.loop.now && r.answers.isNone && !r.hurries then
    { r with present := r.present.map fun p => { p with hurried := some r.loop.now } }
  else r.note (r.loop.turn r.answers r.returned)

def perform (r : Rhythm) : Act → Rhythm
  | .pass time =>
    if r.alarm.all fun a => decide (r.loop.now + time ≤ a) then
      { r with loop := r.loop.perform (.pass time) }
    else r
  | .shutDown => { r with loop := r.loop.perform .shutDown }
  | .answer pending =>
    match r.loop.beat.phase with
    | .waiting _ => { r with answers := r.answers.or (some pending) }
    | _ => r
  | .hookReturns => { r with returned := r.returned || r.loop.calling }
  | .turn => r.turn

/-- A run of a barrier that begins at `now`. -/
def begin (b : Barrier) (waiters now : Nat) : Rhythm :=
  ⟨Supervision.begin b waiters now, none, false, [], none⟩

def run (b : Barrier) (waiters now : Nat) (acts : List Act) : Rhythm :=
  acts.foldl perform (begin b waiters now)

/-! ## The invariant -/

/-- Heartbeats of which the first one was due at `start`. -/
structure Timed (interval start : Nat) (ps : List Pulse) : Prop where
  chain : ps.IsChain (Pulse.Before interval)
  bounded : ∀ p ∈ ps, p.Bounded (Duration.half interval)
  /-- A heartbeat before which none took too long begins on the grid. -/
  grid : ∀ n q, ps[n]? = some q → Pulse.InTime interval (ps.take n) →
    q.start = start + n * interval

section Timed

variable {interval start : Nat} {ps : List Pulse} {p q : Pulse}

theorem timed_nil : Timed interval start [] :=
  ⟨.nil, fun _ h => absurd h List.not_mem_nil, fun _ _ h => absurd h (by simp)⟩

theorem timed_concat_iff : Timed interval start (ps ++ [q]) ↔
    Timed interval start ps ∧ (∀ p ∈ ps.getLast?, p.Before interval q) ∧
      q.Bounded (Duration.half interval) ∧
      (Pulse.InTime interval ps → q.start = start + ps.length * interval) := by
  have hin : ∀ n q', ps[n]? = some q' →
      (ps ++ [q])[n]? = some q' ∧ (ps ++ [q]).take n = ps.take n := by
    intro n q' h
    have hn : n < ps.length := (List.getElem?_eq_some_iff.mp h).1
    exact ⟨(List.getElem?_append_left hn).trans h, List.take_append_of_le_length hn.le⟩
  constructor
  · intro h
    obtain ⟨hps, -, hlast⟩ := List.isChain_append.mp h.chain
    refine ⟨⟨hps, fun p hp => h.bounded p (List.mem_append_left _ hp), fun n q' hq' ht => ?_⟩,
      fun p hp => hlast p hp q rfl, h.bounded q (by simp), fun ht => ?_⟩
    · obtain ⟨hget, htake⟩ := hin n q' hq'
      exact h.grid n q' hget (htake ▸ ht)
    · exact h.grid ps.length q (by simp) (by simpa using ht)
  · rintro ⟨h, hlast, hbounded, hgrid⟩
    refine ⟨List.isChain_append.mpr ⟨h.chain, List.isChain_singleton q, ?_⟩, ?_, ?_⟩
    · intro p hp q' hq'
      obtain rfl : q = q' := Option.some.inj hq'
      exact hlast p hp
    · intro p hp
      rcases List.mem_append.mp hp with hp | hp
      · exact h.bounded p hp
      · exact List.mem_singleton.mp hp ▸ hbounded
    · intro n q' hq' ht
      by_cases hn : n < ps.length
      · rw [List.getElem?_append_left hn] at hq'
        exact h.grid n q' hq' ((hin n q' hq').2 ▸ ht)
      · obtain ⟨hlt, -⟩ := List.getElem?_eq_some_iff.mp hq'
        obtain rfl : n = ps.length := by
          rw [List.length_append, List.length_singleton] at hlt
          omega
        obtain rfl : q = q' := by simpa using hq'
        exact hgrid (by simpa using ht)

/-- What is written down of the last heartbeat later on does not matter, but for its wait. -/
theorem Timed.amend (h : Timed interval start (ps ++ [p])) (hs : q.start = p.start)
    (hb : q.Bounded (Duration.half interval)) : Timed interval start (ps ++ [q]) := by
  obtain ⟨hps, hlast, -, hgrid⟩ := timed_concat_iff.mp h
  refine timed_concat_iff.mpr ⟨hps, fun o ho => ⟨?_, ?_⟩, hb, fun ht => hs.trans (hgrid ht)⟩
  · rw [hs]
    exact (hlast o ho).done
  · rw [hs]
    exact (hlast o ho).apart

end Timed

/-- What holds of the present heartbeat at the place where the loop stands. -/
def Stage (interval : Nat) (r : Rhythm) : Prop :=
  match r.loop.beat.phase with
  | .ticking => r.present = none ∧
    (Pulse.InTime interval r.past → r.loop.now ≤ r.loop.beat.ticker.due)
  | .waiting d => ∃ p, r.present = some p ∧ p.waited = none ∧ p.ended = none ∧
    p.start ≤ r.loop.now ∧ d = p.start + Duration.half interval ∧
    (p.hurried = none → r.loop.now ≤ d)
  | .reporting _ => ∃ p w, r.present = some p ∧ p.waited = some w ∧ p.ended = none ∧
    p.start ≤ w ∧ w ≤ r.loop.now
  | .ended _ => True

/-- The heartbeats of a run have kept their time, and the next one is going to. -/
structure Paced (interval start : Nat) (r : Rhythm) : Prop where
  period : r.loop.beat.ticker.period = interval
  timed : Timed interval start r.pulses
  whole : ∀ p ∈ r.past, ∃ w e,
    p.waited = some w ∧ p.ended = some e ∧ p.start ≤ w ∧ w ≤ e ∧ e ≤ r.loop.now
  /-- The next tick is due an interval after the last beginning, but for the tolerance. -/
  next : ∀ q ∈ r.pulses.getLast?, q.start + interval ≤ r.loop.beat.ticker.due + Ticker.tolerance
  /-- The next tick is due on the grid if no heartbeat took too long. -/
  nextGrid : Pulse.InTime interval r.past →
    r.loop.beat.ticker.due = start + r.pulses.length * interval
  stage : Stage interval r

variable {r : Rhythm} {interval start : Nat} {p : Pulse}

theorem pulses_of_present (h : r.present = some p) : r.pulses = r.past ++ [p] := by
  unfold pulses
  rw [h]
  rfl

theorem pulses_of_none (h : r.present = none) : r.pulses = r.past := by
  unfold pulses
  rw [h]
  exact List.append_nil _

/-! ## Acts around the loop -/

theorem paced_pass (h : Paced interval start r) (time : Nat)
    (hg : (r.alarm.all fun a => decide (r.loop.now + time ≤ a)) = true) :
    Paced interval start { r with loop := r.loop.perform (.pass time) } := by
  refine ⟨h.period, h.timed, fun p hp => ?_, h.next, h.nextGrid, ?_⟩
  · obtain ⟨w, e, hw, he, hsw, hwe, hnow⟩ := h.whole p hp
    exact ⟨w, e, hw, he, hsw, hwe, hnow.trans (Nat.le_add_right ..)⟩
  have hst := h.stage
  cases hp : r.loop.beat.phase with
  | ticking =>
    simp only [Stage, hp] at hst
    simp only [Stage, Supervision.perform, hp]
    refine ⟨hst.1, fun ht => ?_⟩
    simp only [alarm, hp, Option.all_some, decide_eq_true_eq] at hg
    have := hst.2 ht
    split at hg <;> omega
  | waiting d =>
    simp only [Stage, hp] at hst
    obtain ⟨p, hpresent, hw, he, hstart, hd, hnow⟩ := hst
    simp only [Stage, Supervision.perform, hp]
    refine ⟨p, hpresent, hw, he, hstart.trans (Nat.le_add_right ..), hd, fun hh => ?_⟩
    have hhurries : r.hurries = false := by simp [hurries, hpresent, hh]
    simp only [alarm, hp, hhurries, Bool.false_eq_true, if_false] at hg
    have := hnow hh
    split at hg
    all_goals
      simp only [Option.all_some, decide_eq_true_eq] at hg
      omega
  | reporting readiness =>
    simp only [Stage, hp] at hst
    obtain ⟨p, w, hpresent, hw, he, hstart, hnow⟩ := hst
    simp only [Stage, Supervision.perform, hp]
    exact ⟨p, w, hpresent, hw, he, hstart, hnow.trans (Nat.le_add_right ..)⟩
  | ended o => simp only [Stage, Supervision.perform, hp]

/-- What neither moves the loop nor its clock. -/
theorem paced_of_beat (h : Paced interval start r) {r' : Rhythm} (hpast : r'.past = r.past)
    (hpresent : r'.present = r.present) (hbeat : r'.loop.beat = r.loop.beat)
    (hnow : r'.loop.now = r.loop.now) : Paced interval start r' := by
  have hpulses : r'.pulses = r.pulses := by unfold pulses; rw [hpast, hpresent]
  refine ⟨?_, ?_, ?_, ?_, ?_, ?_⟩
  · rw [hbeat]; exact h.period
  · rw [hpulses]; exact h.timed
  · rw [hpast, hnow]; exact h.whole
  · rw [hpulses, hbeat]; exact h.next
  · rw [hpast, hpulses, hbeat]; exact h.nextGrid
  · have hst := h.stage
    unfold Stage at hst ⊢
    rw [hpast, hpresent, hbeat, hnow]
    exact hst

/-! ## Turns of the loop -/

/-- A turn of a loop that waits for a tick. -/
theorem beat_turn_of_ticking {s : Supervision} (h : s.beat.phase = .ticking)
    (answers : Option (List String)) (returned : Bool) :
    (s.turn answers returned).beat = s.beat ∨
      (∃ o, (s.turn answers returned).beat = { s.beat with phase := .ended o }) ∨
      s.beat.ticker.due ≤ s.now ∧ (s.turn answers returned).beat = { s.beat with
        ticker := s.beat.ticker.take s.now
        phase := .waiting (s.now + s.timeout) } := by
  have hidle : s.await = s := Supervision.await_eq_self fun r hr => by simp [h] at hr
  unfold Supervision.turn
  rw [Heartbeat.due?_ticking h]
  cases s.shutDown with
  | true =>
    refine Or.inr (Or.inl ⟨.finished, ?_⟩)
    show (s.take .shutdown).beat = _
    unfold Supervision.take Heartbeat.step
    simp only [h]
    rfl
  | false =>
    by_cases hdue : s.beat.ticker.due ≤ s.now
    · rw [if_neg (by decide), if_pos hdue]
      show (s.take (.tick s.now)).beat = s.beat ∨ _
      unfold Supervision.take Heartbeat.step
      simp only [h]
      split
      next => exact Or.inr (Or.inl ⟨.instantOverflow, rfl⟩)
      next => exact Or.inr (Or.inr ⟨hdue, rfl⟩)
    · rw [if_neg (by decide), if_neg hdue]
      exact Or.inl (congrArg _ hidle)

theorem now_turn (s : Supervision) (answers : Option (List String)) (returned : Bool) :
    (s.turn answers returned).now = s.now := by
  have ht := Supervision.turn_cases s answers returned
  generalize s.turn answers returned = s' at ht
  cases ht <;> rfl

/-- The loop has ended. -/
theorem paced_ends (h : Paced interval start r) {s : Supervision} {o : Outcome}
    (hnow : s.now = r.loop.now) (hs : s.beat = { r.loop.beat with phase := .ended o }) :
    Paced interval start { r with loop := s } := by
  refine ⟨?_, h.timed, ?_, ?_, ?_, ?_⟩
  · show s.beat.ticker.period = interval
    rw [hs]; exact h.period
  · show ∀ p ∈ r.past, ∃ w e, _ ∧ _ ∧ _ ∧ _ ∧ e ≤ s.now
    rw [hnow]; exact h.whole
  · show ∀ q ∈ r.pulses.getLast?, q.start + interval ≤ s.beat.ticker.due + _
    rw [hs]; exact h.next
  · show _ → s.beat.ticker.due = start + r.pulses.length * interval
    rw [hs]; exact h.nextGrid
  · simp only [Stage, hs]

/-- The beginning of a heartbeat. -/
theorem paced_begins (hdelays : Ticker.Delays interval) (h : Paced interval start r)
    (hp : r.loop.beat.phase = .ticking) (hdue : r.loop.beat.ticker.due ≤ r.loop.now)
    {s : Supervision} (hnow : s.now = r.loop.now)
    (hs : s.beat = { r.loop.beat with
      ticker := r.loop.beat.ticker.take r.loop.now
      phase := .waiting (r.loop.now + Duration.half interval) }) :
    Paced interval start { r with
      loop := s, answers := none, returned := false
      present := some ⟨s.now, none, none, none⟩ } := by
  have hst := h.stage
  simp only [Stage, hp] at hst
  obtain ⟨hnone, hintime⟩ := hst
  have htimed := h.timed
  have hnext := h.next
  have hgrid := h.nextGrid
  rw [pulses_of_none hnone] at htimed hnext hgrid
  -- the tick is taken by the ticker's own rule
  have htake : s.beat.ticker.due = if r.loop.now ≤ r.loop.beat.ticker.due + Ticker.tolerance
      then r.loop.beat.ticker.due + interval else r.loop.now + interval := by
    rw [hs, ← hdelays, ← h.period]
  have honGrid : Pulse.InTime interval r.past →
      r.loop.now = start + r.past.length * interval := fun ht => by
    rw [← hgrid ht]
    exact le_antisymm (hintime ht) hdue
  rw [hnow]
  refine ⟨?_, ?_, ?_, ?_, fun ht => ?_, ?_⟩
  · show s.beat.ticker.period = interval
    rw [hs]
    exact h.period
  · refine timed_concat_iff.mpr ⟨htimed, fun p hlast => ⟨?_, ?_⟩,
      ⟨fun c hc => absurd hc (by simp), fun w hw => absurd hw (by simp)⟩, honGrid⟩
    · exact h.whole p (List.mem_of_mem_getLast? hlast)
    · exact (hnext p hlast).trans (Nat.add_le_add_right hdue _)
  · show ∀ p ∈ r.past, ∃ w e, _ ∧ _ ∧ _ ∧ _ ∧ e ≤ s.now
    rw [hnow]
    exact h.whole
  · intro q hq
    obtain rfl : (⟨r.loop.now, none, none, none⟩ : Pulse) = q := by simpa [pulses] using hq
    show r.loop.now + interval ≤ s.beat.ticker.due + _
    rw [htake]
    split <;> omega
  · show s.beat.ticker.due = start + (r.past ++ [_]).length * interval
    have := honGrid ht
    have := hgrid ht
    rw [htake, if_pos (by omega), List.length_append, List.length_singleton, Nat.succ_mul]
    omega
  · simp only [Stage, hs]
    refine ⟨_, rfl, rfl, rfl, hnow.ge, rfl, fun _ => ?_⟩
    rw [hnow]
    exact Nat.le_add_right ..

/-- More is written down of the present heartbeat, which goes on. -/
theorem paced_amend (h : Paced interval start r) (hpresent : r.present = some p) {q : Pulse}
    (hstart : q.start = p.start) (hb : q.Bounded (Duration.half interval)) {s : Supervision}
    (hnow : s.now = r.loop.now) (hticker : s.beat.ticker = r.loop.beat.ticker)
    (hstage : Stage interval { r with loop := s, present := some q }) :
    Paced interval start { r with loop := s, present := some q } := by
  have htimed := h.timed
  have hnext := h.next
  have hgrid := h.nextGrid
  rw [pulses_of_present hpresent] at htimed hnext hgrid
  refine ⟨?_, htimed.amend hstart hb, ?_, ?_, fun ht => ?_, hstage⟩
  · show s.beat.ticker.period = interval
    rw [hticker]
    exact h.period
  · show ∀ p ∈ r.past, ∃ w e, _ ∧ _ ∧ _ ∧ _ ∧ e ≤ s.now
    rw [hnow]
    exact h.whole
  · intro o ho
    obtain rfl : q = o := by simpa [pulses] using ho
    show q.start + interval ≤ s.beat.ticker.due + _
    rw [hticker, hstart]
    exact hnext p (by simp)
  · show s.beat.ticker.due = start + (r.past ++ [_]).length * interval
    rw [hticker, hgrid ht, List.length_append, List.length_append]
    rfl

/-- The end of the present heartbeat. -/
theorem paced_over (h : Paced interval start r) (hpresent : r.present = some p) {q : Pulse}
    {w : Nat} (hstart : q.start = p.start) (hb : q.Bounded (Duration.half interval))
    (hw : q.waited = some w) (he : q.ended = some r.loop.now) (hsw : q.start ≤ w)
    (hwn : w ≤ r.loop.now) {s : Supervision} (hnow : s.now = r.loop.now)
    (hs : s.beat = { r.loop.beat with phase := .ticking }) :
    Paced interval start { r with loop := s, present := none, past := r.past ++ [q] } := by
  have htimed := h.timed
  have hnext := h.next
  have hgrid := h.nextGrid
  rw [pulses_of_present hpresent] at htimed hnext hgrid
  have hpulses : ({ r with loop := s, present := none, past := r.past ++ [q] } : Rhythm).pulses =
      r.past ++ [q] := pulses_of_none rfl
  refine ⟨?_, ?_, ?_, ?_, ?_, ?_⟩
  · show s.beat.ticker.period = interval
    rw [hs]
    exact h.period
  · rw [hpulses]
    exact htimed.amend hstart hb
  · intro o ho
    show ∃ w e, _ ∧ _ ∧ _ ∧ _ ∧ e ≤ s.now
    rw [hnow]
    rcases List.mem_append.mp ho with ho | ho
    · exact h.whole o ho
    · obtain rfl := List.mem_singleton.mp ho
      exact ⟨w, _, hw, he, hsw, hwn, le_rfl⟩
  · rw [hpulses]
    intro o ho
    obtain rfl : q = o := by simpa using ho
    show q.start + interval ≤ s.beat.ticker.due + _
    rw [hs, hstart]
    exact hnext p (by simp)
  · rw [hpulses]
    intro ht
    show s.beat.ticker.due = _
    rw [hs, hgrid (Pulse.inTime_of_append ht), List.length_append, List.length_append]
    rfl
  · simp only [Stage, hs]
    refine ⟨trivial, fun ht => ?_⟩
    -- the heartbeat that is over began on the grid, and so it ends before the next tick is due
    have hbefore := Pulse.inTime_of_append ht
    have hlast := ht q (by simp) _ he
    have hdue := hgrid hbefore
    have hgridStart := (timed_concat_iff.mp htimed).2.2.2 hbefore
    rw [List.length_append, List.length_singleton, Nat.succ_mul] at hdue
    rw [hnow]
    omega

/-- At the deadline of a wait. -/
theorem paced_hurries (h : Paced interval start r)
    (hh : (r.loop.beat.overdue r.loop.now && r.answers.isNone && !r.hurries) = true) :
    Paced interval start
      { r with present := r.present.map fun p => { p with hurried := some r.loop.now } } := by
  rw [Bool.and_eq_true, Bool.and_eq_true] at hh
  obtain ⟨⟨hoverdue, -⟩, hhurries⟩ := hh
  have hst := h.stage
  cases hp : r.loop.beat.phase with
  | waiting d =>
    simp only [Stage, hp] at hst
    obtain ⟨p, hpresent, hw, he, hstart, rfl, hnow⟩ := hst
    have hnone : p.hurried = none := by simpa [hurries, hpresent] using hhurries
    have hd : p.start + Duration.half interval ≤ r.loop.now := by
      simpa [Heartbeat.overdue, hp] using hoverdue
    have hc : r.loop.now = p.start + Duration.half interval := le_antisymm (hnow hnone) hd
    let q : Pulse := { p with hurried := some r.loop.now }
    have hb : q.Bounded (Duration.half interval) :=
      ⟨fun c hc' => (Option.some.inj hc').symm.trans hc, fun w _ hn => absurd hn (by simp [q])⟩
    rw [hpresent]
    refine paced_amend h hpresent (q := q) rfl hb (s := r.loop) rfl rfl ?_
    · simp only [Stage, hp]
      exact ⟨_, rfl, hw, he, hstart, rfl, fun hn => absurd hn (by simp)⟩
  | ticking | reporting | ended => simp [Heartbeat.overdue, hp] at hoverdue

theorem paced_note_of_ticking (hdelays : Ticker.Delays interval) (h : Paced interval start r)
    (hp : r.loop.beat.phase = .ticking) :
    Paced interval start (r.note (r.loop.turn r.answers r.returned)) := by
  have hnow := now_turn r.loop r.answers r.returned
  have hbeat := beat_turn_of_ticking hp r.answers r.returned
  generalize r.loop.turn r.answers r.returned = s at hnow hbeat ⊢
  rcases hbeat with hs | ⟨o, hs⟩ | ⟨hdue, hs⟩
  · simp only [note, hp, hs]
    exact paced_of_beat h rfl rfl hs hnow
  · simp only [note, hp, hs]
    exact paced_ends h hnow hs
  · have hperiod : r.loop.timeout = Duration.half interval := congrArg _ h.period
    rw [hperiod] at hs
    simp only [note, hp, hs]
    exact paced_begins hdelays h hp hdue hnow hs

theorem paced_note_of_waiting (h : Paced interval start r) {d : Nat}
    (hp : r.loop.beat.phase = .waiting d) :
    Paced interval start (r.note (r.loop.turn r.answers r.returned)) := by
  rcases Supervision.turn_of_waiting hp r.answers r.returned with
    ⟨-, he⟩ | ⟨-, he⟩ | ⟨pending, -, -, he⟩
  · rw [he]
    simp only [note, hp]
    exact h
  · rw [he]
    simp only [note, hp, Heartbeat.stop]
    exact paced_ends h rfl rfl
  · have hst := h.stage
    simp only [Stage, hp] at hst
    obtain ⟨p, hpresent, hw, hpe, hstart, rfl, hbound⟩ := hst
    have hbounded := h.timed.bounded p (by simp [pulses_of_present hpresent])
    rw [he]
    generalize (Heartbeat.verdict r.loop.timeout pending).1 = readiness
    by_cases hready : readiness = .ready ∧ r.loop.beat.ready = true
    · -- the outcome is not reported: the heartbeat is over with its wait
      have hs : (r.loop.conclude readiness).beat = { r.loop.beat with phase := .ticking } :=
        if_pos hready
      have hnow : (r.loop.conclude readiness).now = r.loop.now := rfl
      generalize r.loop.conclude readiness = s at hs hnow ⊢
      let q : Pulse := { p with waited := some r.loop.now, ended := some r.loop.now }
      have hb : q.Bounded (Duration.half interval) :=
        ⟨hbounded.hurried, fun w hw' hn => Option.some.inj hw' ▸ hbound hn⟩
      simp only [note, hp, hs, hpresent, hnow]
      exact paced_over h hpresent (q := q) rfl hb rfl rfl hstart le_rfl hnow hs
    · have hs : (r.loop.conclude readiness).beat =
          { r.loop.beat with
            ready := readiness == Readiness.ready, phase := .reporting readiness } := if_neg hready
      have hnow : (r.loop.conclude readiness).now = r.loop.now := rfl
      generalize r.loop.conclude readiness = s at hs hnow ⊢
      let q : Pulse := { p with waited := some r.loop.now }
      have hb : q.Bounded (Duration.half interval) :=
        ⟨hbounded.hurried, fun w hw' hn => Option.some.inj hw' ▸ hbound hn⟩
      simp only [note, hp, hs, hpresent, hnow]
      refine paced_amend h hpresent (q := q) rfl hb hnow (by rw [hs]) ?_
      simp only [Stage, hs]
      exact ⟨_, _, rfl, rfl, hpe, hstart, hnow.ge⟩

theorem paced_note_of_reporting (h : Paced interval start r) {readiness : Readiness}
    (hp : r.loop.beat.phase = .reporting readiness) :
    Paced interval start (r.note (r.loop.turn r.answers r.returned)) := by
  have ht := Supervision.turn_cases r.loop r.answers r.returned
  generalize r.loop.turn r.answers r.returned = s at ht ⊢
  cases ht with
  | idle =>
    simp only [note, hp]
    exact h
  | stops =>
    simp only [note, hp, Heartbeat.stop]
    exact paced_ends h rfl rfl
  | breaks hp' | waits hp' => exact absurd (hp.symm.trans hp') (by simp)
  | settles hp' | decides hp' => exact absurd (hp.symm.trans hp') (by simp)
  | calls =>
    simp only [note, Supervision.note, hp]
    exact paced_of_beat h rfl rfl rfl rfl
  | returns =>
    have hst := h.stage
    simp only [Stage, hp] at hst
    obtain ⟨p, w, hpresent, hw, hpe, hstart, hwn⟩ := hst
    have hbounded := h.timed.bounded p (by simp [pulses_of_present hpresent])
    let q : Pulse := { p with ended := some r.loop.now }
    have hb : q.Bounded (Duration.half interval) := ⟨hbounded.hurried, hbounded.waited⟩
    simp only [note, hp, hpresent]
    exact paced_over h hpresent (q := q) rfl hb hw rfl hstart hwn (s := { r.loop with
      beat := { r.loop.beat with phase := .ticking }, calling := false }) rfl rfl

theorem paced_note_of_ended (h : Paced interval start r) {o : Outcome}
    (hp : r.loop.beat.phase = .ended o) :
    Paced interval start (r.note (r.loop.turn r.answers r.returned)) := by
  have ht := Supervision.turn_cases r.loop r.answers r.returned
  generalize r.loop.turn r.answers r.returned = s at ht ⊢
  cases ht with
  | idle =>
    simp only [note, hp]
    exact h
  | stops =>
    simp only [note, hp, Heartbeat.stop]
    exact paced_ends h rfl rfl
  | breaks hp' | waits hp' => exact absurd (hp.symm.trans hp') (by simp)
  | settles hp' | decides hp' => exact absurd (hp.symm.trans hp') (by simp)
  | calls hp' | returns hp' => exact absurd (hp.symm.trans hp') (by simp)

/-- One act. -/
theorem paced_perform (hdelays : Ticker.Delays interval) (h : Paced interval start r) (a : Act) :
    Paced interval start (r.perform a) := by
  cases a with
  | pass time =>
    show Paced interval start (if _ then _ else _)
    split
    next hg => exact paced_pass h time hg
    next => exact h
  | shutDown => exact paced_of_beat h rfl rfl rfl rfl
  | answer pending =>
    show Paced interval start (match r.loop.beat.phase with | .waiting _ => _ | _ => r)
    split
    next => exact paced_of_beat h rfl rfl rfl rfl
    next => exact h
  | hookReturns => exact paced_of_beat h rfl rfl rfl rfl
  | turn =>
    show Paced interval start (if _ then _ else _)
    split
    next hh => exact paced_hurries h hh
    next =>
      cases hp : r.loop.beat.phase with
      | ticking => exact paced_note_of_ticking hdelays h hp
      | waiting d => exact paced_note_of_waiting h hp
      | reporting readiness => exact paced_note_of_reporting h hp
      | ended o => exact paced_note_of_ended h hp

theorem paced_begin (b : Barrier) (waiters start : Nat) :
    Paced b.interval start (begin b waiters start) := by
  have hnil : (begin b waiters start).pulses = [] := rfl
  have hstart : start = start + 0 * b.interval := by rw [Nat.zero_mul, Nat.add_zero]
  refine ⟨rfl, timed_nil, fun _ h => absurd h List.not_mem_nil, fun _ h => ?_, fun _ => hstart,
    rfl, fun _ => le_rfl⟩
  rw [hnil] at h
  exact absurd h (by simp)

theorem paced_run (b : Barrier) (hdelays : Ticker.Delays b.interval) (waiters start : Nat)
    (acts : List Act) : Paced b.interval start (run b waiters start acts) := by
  have step : ∀ (acts : List Act) {r : Rhythm}, Paced b.interval start r →
      Paced b.interval start (acts.foldl perform r) := by
    intro acts
    induction acts with
    | nil => exact fun h => h
    | cons a acts ih => exact fun h => ih (paced_perform hdelays h a)
  exact step acts (paced_begin b waiters start)

/-! ## Keeping time -/

/-- A wait that is under way, and whose waiters were not cancelled, has not come to its deadline. -/
theorem Paced.now_le (h : Paced interval start r) (hpresent : r.present = some p)
    (hw : p.waited = none) (hh : p.hurried = none) (hended : ∀ o, r.loop.beat.phase ≠ .ended o) :
    r.loop.now ≤ p.start + Duration.half interval := by
  have hst := h.stage
  cases hp : r.loop.beat.phase with
  | ticking =>
    simp only [Stage, hp] at hst
    exact absurd (hst.1.symm.trans hpresent) (by simp)
  | waiting d =>
    simp only [Stage, hp] at hst
    obtain ⟨p', hpresent', -, -, -, rfl, hbound⟩ := hst
    obtain rfl := Option.some.inj (hpresent'.symm.trans hpresent)
    exact hbound hh
  | reporting readiness =>
    simp only [Stage, hp] at hst
    obtain ⟨p', w, hpresent', hw', -⟩ := hst
    obtain rfl := Option.some.inj (hpresent'.symm.trans hpresent)
    exact absurd (hw.symm.trans hw') (by simp)
  | ended o => exact absurd hp (hended o)

/-- When the next tick of a loop is due, and not before, the next heartbeat begins. -/
theorem begins_when_due (hp : r.loop.beat.phase = .ticking) (hs : r.loop.shutDown = false)
    (ht : max r.loop.now r.loop.beat.ticker.due + r.loop.timeout < Duration.lastInstant) :
    ((r.perform (.pass (r.loop.beat.ticker.due - r.loop.now))).perform .turn).present =
      some ⟨max r.loop.now r.loop.beat.ticker.due, none, none, none⟩ := by
  -- the clock is where the loop is due, which it may have been before
  have hclock : r.perform (.pass (r.loop.beat.ticker.due - r.loop.now)) =
      { r with loop := { r.loop with now := max r.loop.now r.loop.beat.ticker.due } } := by
    have hmax : r.loop.now + (r.loop.beat.ticker.due - r.loop.now) =
        max r.loop.now r.loop.beat.ticker.due := by omega
    have halarm : r.alarm = some r.loop.beat.ticker.due := by
      unfold alarm
      rw [hp, hs]
      rfl
    show (if _ then _ else r) = _
    rw [halarm, ← hmax]
    split
    next => rfl
    next hlt =>
      have hlate : r.loop.beat.ticker.due - r.loop.now = 0 := by
        simp only [Option.all_some, decide_eq_true_eq] at hlt
        omega
      rw [hlate]
      rfl
  rw [hclock]
  generalize hnow : max r.loop.now r.loop.beat.ticker.due = now at ht ⊢
  have hdue : r.loop.beat.ticker.due ≤ now := by omega
  show (Rhythm.turn _).present = _
  unfold turn
  simp only [Heartbeat.overdue, hp, Bool.false_and, Bool.false_eq_true, if_false]
  unfold Supervision.turn
  simp only [Heartbeat.due?_ticking hp, hs, Bool.false_eq_true, if_false, if_pos hdue]
  unfold Supervision.take Heartbeat.step
  have htellable : ¬Duration.lastInstant ≤ now + Duration.half r.loop.beat.ticker.period :=
    Nat.not_le.mpr ht
  simp only [hp, if_neg htellable]
  simp only [note, hp]
  rfl

/-- **Heartbeats never overlap, burst or drift.**  Take a barrier with an interval of an even number
of milliseconds, and let its ticker be due a period after it was due, or a period after a tick that
was taken more than five milliseconds late.  Whatever its waiters and its hook do, and for however
long: a heartbeat begins after the wait and the hook of the one before it are over; two beginnings
are an interval less five milliseconds apart, or more; and a heartbeat before which none took longer
than the interval begins on the grid of intervals from the first one on.  A wait whose waiters are
not cancelled is over in half the interval, and so is one whose waiters answer at the instant at
which they are cancelled; one that is under way has not come further.  While the loop waits for a
tick, the next heartbeat begins when this is due. -/
theorem keeps_time {n : Nat} {b : Barrier} (hb : Barrier.new (Duration.ofMillis (2 * n)) = .ok b)
    (hdelays : Ticker.Delays (Duration.ofMillis (2 * n))) (waiters start : Nat)
    (acts : List Act) :
    let r := run b waiters start acts
    let interval := Duration.ofMillis (2 * n)
    (r.pulses.IsChain fun p q =>
      (∃ w e, p.waited = some w ∧ p.ended = some e ∧ p.start ≤ w ∧ w ≤ e ∧ e ≤ q.start) ∧
        p.start + interval ≤ q.start + Duration.ofMillis 5) ∧
    (∀ k q, r.pulses[k]? = some q →
      (∀ p ∈ r.pulses.take k, ∀ e, p.ended = some e → e ≤ p.start + interval) →
      q.start = start + k * interval) ∧
    (∀ p ∈ r.pulses, ∀ w, p.waited = some w → (∀ c, p.hurried = some c → w = c) →
      w ≤ p.start + Duration.ofMillis n) ∧
    (∀ p, r.present = some p → p.waited = none → p.hurried = none →
      (∀ o, r.loop.beat.phase ≠ .ended o) → r.loop.now ≤ p.start + Duration.ofMillis n) ∧
    (r.loop.beat.phase = .ticking → r.loop.shutDown = false →
      ∀ due, due = max r.loop.now r.loop.beat.ticker.due →
      due + Duration.ofMillis n < Duration.lastInstant →
      ((r.perform (.pass (r.loop.beat.ticker.due - r.loop.now))).perform .turn).present =
        some ⟨due, none, none, none⟩) := by
  intro r interval
  have hbi : b.interval = interval := congrArg Barrier.interval (Supervision.new_eq hb)
  have h : Paced interval start r := hbi ▸ paced_run b (hbi.symm ▸ hdelays) waiters start acts
  have hhalf : Duration.half interval = Duration.ofMillis n := Duration.half_ofMillis n
  refine ⟨h.timed.chain.imp fun {p q} hpq => ⟨hpq.done, hpq.apart⟩, h.timed.grid,
    fun p hp w hw hprompt => ?_, fun p hpresent hw hh hended => ?_, fun hp hs due hdue ht => ?_⟩
  · have hbounded := h.timed.bounded p hp
    rw [hhalf] at hbounded
    cases hh : p.hurried with
    | none => exact hbounded.waited w hw hh
    | some c => exact ((hprompt c hh).trans (hbounded.hurried c hh)).le
  · exact hhalf ▸ h.now_le hpresent hw hh hended
  · have htimeout : r.loop.timeout = Duration.ofMillis n :=
      (congrArg Duration.half h.period).trans hhalf
    subst hdue
    exact begins_when_due hp hs (by rw [htimeout]; exact ht)

/-- A barrier with a heartbeat every hundred milliseconds. -/
def everyTenth : Barrier := ⟨Duration.ofMillis 100, .initializing, 0, false⟩

/-- The first heartbeat is ready and its hook takes a while; the second one waits in vain, and its
hook takes so long that the third one begins late. -/
def laggingHook : List Act :=
  [.turn, .answer [], .turn, .turn, .pass (Duration.ofMillis 30), .hookReturns, .turn,
    .pass (Duration.ofMillis 70), .turn, .pass (Duration.ofMillis 50), .turn, .answer ["f/pods"],
    .turn, .turn, .pass (Duration.ofMillis 80), .hookReturns, .turn, .turn, .answer [], .turn]

theorem keeps_time_laggingHook :
    let r := run everyTenth 1 0 laggingHook
    r.pulses = [⟨0, none, some 0, some (Duration.ofMillis 30)⟩,
      ⟨Duration.ofMillis 100, some (Duration.ofMillis 150), some (Duration.ofMillis 150),
        some (Duration.ofMillis 230)⟩,
      ⟨Duration.ofMillis 230, none, some (Duration.ofMillis 230), none⟩] ∧
    (r.pulses.IsChain fun p q => p.start + Duration.ofMillis 100 ≤
      q.start + Duration.ofMillis 5) ∧
    ∀ p ∈ r.pulses, ∀ w, p.waited = some w → (∀ c, p.hurried = some c → w = c) →
      w ≤ p.start + Duration.ofMillis 50 := by
  have hb : Barrier.new (Duration.ofMillis (2 * 50)) = .ok everyTenth := rfl
  obtain ⟨hchain, -, hwaits, -⟩ := keeps_time hb (Ticker.delays_of_le (by decide)) 1 0 laggingHook
  exact ⟨by decide +kernel, hchain.imp fun {p q} h => h.2, hwaits⟩

end Rhythm

end InformerHub
