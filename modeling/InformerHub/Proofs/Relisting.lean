import InformerHub.Proofs.Doubling
import InformerHub.Proofs.Patrol

/-!
# When lists are asked for

A list and watch loop pauses after a failed round, longer after each further one, and asks for its
next list when the pause is over.  `Shift` is a patrol on a clock: time passes, the shutdown comes,
the source sends something, and the loop takes turns.  Time does not pass an instant at which the
loop has something to do (`busy`, `alarms`); otherwise the acts come in any order.

> Every list is asked for at the instant that the rounds before it tell: at once if the last one
> recovered, and after a pause that doubles with each failed round in a row if not; one round in
> vain more than the limit, and the loop gives up (`relists_on_schedule`).

No timer reaches further than the `horizon`.  So a longer pause ends there (`relists_at_horizon`),
and so does the time that a list may take.

What the loop counts is known already (`Counts`), and so is what follows a round (`Sequel`).  The
invariant here is `Punctual`: each leg began when it was to begin, and where the loop stands
(`Stage`) tells when the next one is to.
-/

namespace InformerHub

open Reflector Duration

variable {α : Type}

/-! ## The schedule -/

/-- The failed rounds at the end of some rounds: those since the last one whose stream was closed
after it had delivered something. -/
def failedInRow (rounds : List Round) : List Round := rounds.rtakeWhile fun round => !round.recovers

namespace BackoffPolicy

/-- The pause after a number of failed rounds in a row. -/
def pause (policy : BackoffPolicy) (failures : Nat) : Nat :=
  if failures = 0 then 0
  else min (ofMillis (min (policy.baseDelayMs.toNat * 2 ^ (failures - 1)) policy.maxDelayMs.toNat))
    horizon

/-- How long a list may take. -/
def allowance (policy : BackoffPolicy) : Nat := min (ofMillis policy.timeoutMs.toNat) horizon

theorem pause_of_ne_zero (policy : BackoffPolicy) {failures : Nat} (h : failures ≠ 0) :
    policy.pause failures = min (policy.delayFor (failures - 1)) horizon := by
  unfold pause delayFor
  rw [if_neg h, delayMs_eq]

end BackoffPolicy

/-- When the next list is to be asked for, given the legs that are over. -/
def resumesAt (policy : BackoffPolicy) (start : Nat) (past : List PastLeg) : Nat :=
  match past.getLast? with
  | none => start
  | some leg => leg.stop + policy.pause (failedInRow (past.map PastLeg.round)).length

theorem resumesAt_concat (policy : BackoffPolicy) (start : Nat) (past : List PastLeg)
    (leg : PastLeg) : resumesAt policy start (past ++ [leg]) =
      leg.stop + policy.pause (failedInRow (past.map PastLeg.round ++ [leg.round])).length := by
  unfold resumesAt
  rw [List.getLast?_concat, List.map_append]
  rfl

/-- Each of some legs began when it was to begin. -/
def Begun (policy : BackoffPolicy) (start : Nat) (past : List PastLeg) : Prop :=
  ∀ k leg, past[k]? = some leg → leg.start = resumesAt policy start (past.take k)

theorem begun_concat {policy : BackoffPolicy} {start : Nat} {past : List PastLeg} {leg : PastLeg}
    (h : Begun policy start past) (hleg : leg.start = resumesAt policy start past) :
    Begun policy start (past ++ [leg]) := by
  intro k leg' hk
  by_cases hlt : k < past.length
  · rw [List.getElem?_append_left hlt] at hk
    rw [List.take_append_of_le_length hlt.le]
    exact h k leg' hk
  · obtain ⟨hlt', -⟩ := List.getElem?_eq_some_iff.mp hk
    obtain rfl : k = past.length := by
      rw [List.length_append, List.length_singleton] at hlt'
      omega
    obtain rfl : leg = leg' := by simpa using hk
    rw [List.take_left]
    exact hleg

/-- A leg keeps to its times: its list came while it was waited for, and its watch was asked for
from the version of its list. -/
structure Leg.Kept (policy : BackoffPolicy) (leg : Leg) : Prop where
  listed : ∀ t version, leg.listed = some (t, version) →
    leg.start ≤ t ∧ t ≤ leg.start + policy.allowance
  watched : ∀ version, leg.watched = some version → ∃ t, leg.listed = some (t, version)

/-- A leg that is over has kept to its times.  If its list failed, it failed in time; if the list
was given up, it had all the time that it might have; and otherwise there was a list and a watch. -/
structure PastLeg.Kept (policy : BackoffPolicy) (leg : PastLeg) : Prop extends
    leg.toLeg.Kept policy where
  stops : leg.start ≤ leg.stop
  failed : leg.round.ending = .listFailed →
    leg.listed = none ∧ leg.stop ≤ leg.start + policy.allowance
  timedOut : leg.round.ending = .listTimedOut →
    leg.listed = none ∧ leg.stop = leg.start + policy.allowance
  watching : leg.round.ending ≠ .listFailed → leg.round.ending ≠ .listTimedOut →
    ∃ t version, leg.listed = some (t, version) ∧ leg.watched = some version ∧ t ≤ leg.stop

/-! ## A patrol on a clock -/

/-- A patrol, the time, and whether it was shut down. -/
structure Shift (α : Type) where
  patrol : Patrol α
  /-- In nanoseconds. -/
  now : Nat
  shutDown : Bool

namespace Shift

inductive Act (α : Type) where
  | pass (time : Nat)
  | shutDown
  | arrive (news : News α)
  /-- The loop takes a turn.  If a pause is over and the shutdown has come, it may look at either of
  them first. -/
  | turn (shutDownFirst : Bool)

/-- Whether there is something for the loop to do: to take what is due, or to ask. -/
def busy (s : Shift α) : Bool :=
  match s.patrol.phase with
  | .ended _ => false
  | _ => (s.patrol.due? s.now s.shutDown false).isSome || !s.patrol.asked

/-- The instants at which a timer of the loop ends. -/
def alarms (s : Shift α) : List Nat :=
  s.patrol.alarm.toList ++
    if s.patrol.phase.isWatching then (s.patrol.reflector.resync.map Ticker.due).toList else []

def perform (s : Shift α) : Act α → Shift α
  | .pass time =>
    if !s.busy && s.alarms.all fun a => s.now + time ≤ a then { s with now := s.now + time } else s
  | .shutDown => { s with shutDown := true }
  | .arrive news => { s with patrol := s.patrol.arrive news }
  | .turn shutDownFirst =>
    { s with patrol := (s.patrol.turn s.now s.shutDown shutDownFirst).1 }

/-- A run of an informer that begins at `now`. -/
def begin (resource : String) (policy : BackoffPolicy) (period : Option Nat) (now : Nat) :
    Shift α :=
  ⟨.ofReflector (Reflector.begin (α := α) resource policy period now).1, now, false⟩

def run (resource : String) (policy : BackoffPolicy) (period : Option Nat) (now : Nat)
    (acts : List (Act α)) : Shift α :=
  acts.foldl perform (begin resource policy period now)

/-! ## The invariant -/

/-- How a run ends: the shutdown comes, too many rounds have failed in a row, so many that they
cannot be counted, or the period of resyncs is faulty, which is found before the first list. -/
inductive Ends (resource : String) (policy : BackoffPolicy) (period : Option Nat) (start : Nat)
    (s : Shift α) : Outcome → Prop
  | stopped (hs : s.shutDown = true)
    (hc : policy.exceeded s.patrol.course.streak.length = false) :
    Ends resource policy period start s .finished
  | gaveUp (hlimit : 0 < policy.maxRetries.toNat)
    (hc : s.patrol.course.streak.length = policy.maxRetries.toNat + 1) :
    Ends resource policy period start s
      (.failed (.informerGaveUp resource (policy.maxRetries.toNat + 1)))
  | uncounted (hc : UInt32.size ≤ s.patrol.course.streak.length) :
    Ends resource policy period start s .addOverflow
  | faulty {t : Nat} {o : Outcome} (ht : period = some t) (hf : periodFault? t start = some o)
    (hpast : s.patrol.past = []) : Ends resource policy period start s o

/-- Where a loop stands that is not at its end. -/
def Stage (policy : BackoffPolicy) (start : Nat) (s : Shift α) : Prop :=
  match s.patrol.phase with
  | .backingOff delay => s.patrol.present = none ∧
    if s.patrol.asked then
      s.patrol.alarm = some (resumesAt policy start s.patrol.past) ∧
        s.now ≤ resumesAt policy start s.patrol.past
    else s.now + min delay horizon = resumesAt policy start s.patrol.past
  | .listing =>
    if s.patrol.asked then ∃ leg, s.patrol.present = some leg ∧ leg.listed = none ∧
      s.patrol.alarm = some (leg.start + policy.allowance) ∧ s.now ≤ leg.start + policy.allowance
    else s.patrol.present = none ∧ s.now = resumesAt policy start s.patrol.past
  | .opening version => ∃ leg t, s.patrol.present = some leg ∧ leg.listed = some (t, version) ∧
    t ≤ s.now ∧ leg.watched = if s.patrol.asked then some version else none
  | .watching _ => s.patrol.asked = true ∧ ∃ leg t version, s.patrol.present = some leg ∧
    leg.listed = some (t, version) ∧ t ≤ s.now ∧ leg.watched = some version
  | .ended _ => True

/-- A run has asked for its lists when it was to ask. -/
structure Punctual (resource : String) (policy : BackoffPolicy) (period : Option Nat)
    (start : Nat) (s : Shift α) : Prop where
  name : s.patrol.reflector.resource = resource
  same : s.patrol.reflector.policy = policy
  counts : s.patrol.course.Counts
  rounds : s.patrol.past.map PastLeg.round = s.patrol.course.rounds
  unasked : s.patrol.asked = false → s.patrol.alarm = none ∧ s.patrol.inbox = []
  past : Begun policy start s.patrol.past
  kept : ∀ leg ∈ s.patrol.past, leg.Kept policy
  present : ∀ leg, s.patrol.present = some leg →
    leg.start = resumesAt policy start s.patrol.past ∧ leg.start ≤ s.now ∧ leg.Kept policy
  stage : Stage policy start s
  ends : ∀ o, s.patrol.phase = .ended o → Ends resource policy period start s o

variable {resource : String} {policy : BackoffPolicy} {period : Option Nat} {start : Nat}
  {s : Shift α}

theorem streak_eq (h : Punctual resource policy period start s) :
    s.patrol.course.streak = failedInRow (s.patrol.past.map PastLeg.round) := by
  rw [h.rounds]
  rfl

/-- How a run ends depends on what the loop has gone through, and on the shutdown. -/
theorem Ends.congr {s' : Shift α} {o : Outcome} (h : Ends resource policy period start s o)
    (hcourse : s'.patrol.course = s.patrol.course) (hpast : s'.patrol.past = s.patrol.past)
    (hs : s.shutDown = true → s'.shutDown = true) : Ends resource policy period start s' o := by
  cases h with
  | stopped hdown hc => exact .stopped (hs hdown) (hcourse ▸ hc)
  | gaveUp hlimit hc => exact .gaveUp hlimit (hcourse ▸ hc)
  | uncounted hc => exact .uncounted (hcourse ▸ hc)
  | faulty ht hf hnil => exact .faulty ht hf (hpast.trans hnil)

/-! ## Acts around the loop -/

theorem punctual_pass (h : Punctual resource policy period start s) (time : Nat)
    (hbusy : s.busy = false) (hin : ∀ a ∈ s.alarms, s.now + time ≤ a) :
    Punctual resource policy period start { s with now := s.now + time } := by
  refine { h with present := fun leg hleg => ?_, stage := ?_,
                  ends := fun o ho => (h.ends o ho).congr rfl rfl id }
  · obtain ⟨hstart, hnow, hkept⟩ := h.present leg hleg
    exact ⟨hstart, hnow.trans (Nat.le_add_right ..), hkept⟩
  · have hst := h.stage
    -- a loop that has nothing to do has asked for what it waits for
    have hasked : (∀ o, s.patrol.phase ≠ .ended o) → s.patrol.asked = true := by
      intro hnot
      unfold busy at hbusy
      split at hbusy
      next o ho => exact absurd ho (hnot o)
      next => simpa using (Bool.or_eq_false_iff.mp hbusy).2
    cases hp : s.patrol.phase with
    | backingOff delay =>
      have ha := hasked (by simp [hp])
      simp only [Stage, hp, ha, if_true] at hst ⊢
      exact ⟨hst.1, hst.2.1, hin _ (by simp [alarms, hst.2.1])⟩
    | listing =>
      have ha := hasked (by simp [hp])
      simp only [Stage, hp, ha, if_true] at hst ⊢
      obtain ⟨leg, hleg, hlisted, halarm, -⟩ := hst
      exact ⟨leg, hleg, hlisted, halarm, hin _ (by simp [alarms, halarm])⟩
    | opening version =>
      simp only [Stage, hp] at hst ⊢
      obtain ⟨leg, t, hleg, hlisted, ht, hwatched⟩ := hst
      exact ⟨leg, t, hleg, hlisted, ht.trans (Nat.le_add_right ..), hwatched⟩
    | watching received =>
      simp only [Stage, hp] at hst ⊢
      obtain ⟨ha, leg, t, version, hleg, hlisted, ht, hwatched⟩ := hst
      exact ⟨ha, leg, t, version, hleg, hlisted, ht.trans (Nat.le_add_right ..), hwatched⟩
    | ended o => simp only [Stage, hp]

theorem punctual_shutDown (h : Punctual resource policy period start s) :
    Punctual resource policy period start { s with shutDown := true } :=
  { h with stage := h.stage, ends := fun o ho => (h.ends o ho).congr rfl rfl fun _ => rfl }

/-- What has come and was not taken is of no account. -/
theorem punctual_inbox (h : Punctual resource policy period start s) (inbox : List (News α))
    (hi : s.patrol.asked = false → inbox = []) :
    Punctual resource policy period start { s with patrol := { s.patrol with inbox } } :=
  { h with unasked := fun ha => ⟨(h.unasked ha).1, hi ha⟩, stage := h.stage
           ends := fun o ho => (h.ends o ho).congr rfl rfl id }

theorem punctual_arrive (h : Punctual resource policy period start s) (news : News α) :
    Punctual resource policy period start { s with patrol := s.patrol.arrive news } := by
  unfold Patrol.arrive
  split
  next ha =>
    have ha := (Bool.and_eq_true_iff.mp ha).1
    exact punctual_inbox h _ fun hn => absurd (hn.symm.trans ha) (by simp)
  next => exact h

/-! ## Turns of the loop -/

/-- The loop asks. -/
theorem punctual_ask (h : Punctual resource policy period start s)
    (ha : s.patrol.asked = false) :
    Punctual resource policy period start { s with patrol := s.patrol.ask s.now } := by
  have hst := h.stage
  cases hp : s.patrol.phase with
  | backingOff delay =>
    simp only [Stage, hp, ha, Bool.false_eq_true, if_false] at hst
    rw [Patrol.ask_of_backingOff hp]
    refine { h with unasked := fun hn => absurd hn (by simp), stage := ?_,
                    ends := fun o ho => absurd (hp.symm.trans ho) (by simp) }
    simp only [Stage, Patrol.phase, hp, if_true]
    refine ⟨hst.1, congrArg some hst.2, ?_⟩
    rw [← hst.2]
    exact Nat.le_add_right ..
  | listing =>
    simp only [Stage, hp, ha, Bool.false_eq_true, if_false] at hst
    rw [Patrol.ask_of_listing hp]
    refine { h with unasked := fun hn => absurd hn (by simp), present := fun leg hleg => ?_,
                    stage := ?_, ends := fun o ho => absurd (hp.symm.trans ho) (by simp) }
    · obtain rfl := Option.some.inj hleg
      exact ⟨hst.2, le_rfl, fun t version hn => absurd hn (by simp),
        fun version hn => absurd hn (by simp)⟩
    · simp only [Stage, Patrol.phase, hp, if_true]
      refine ⟨_, rfl, rfl, ?_, Nat.le_add_right ..⟩
      rw [h.same]
      rfl
  | opening version =>
    simp only [Stage, hp, ha, Bool.false_eq_true, if_false] at hst
    obtain ⟨leg, t, hleg, hlisted, ht, -⟩ := hst
    obtain ⟨hstart, hnow, hkept⟩ := h.present leg hleg
    rw [Patrol.ask_of_opening hp, hleg]
    refine { h with unasked := fun hn => absurd hn (by simp), present := fun leg' hleg' => ?_,
                    stage := ?_, ends := fun o ho => absurd (hp.symm.trans ho) (by simp) }
    · obtain rfl := Option.some.inj hleg'
      refine ⟨hstart, hnow, hkept.listed, fun version' hv => ?_⟩
      obtain rfl := Option.some.inj hv
      exact ⟨t, hlisted⟩
    · simp only [Stage, Patrol.phase, hp, if_true]
      exact ⟨_, t, rfl, hlisted, ht, rfl⟩
  | watching received =>
    simp only [Stage, hp] at hst
    exact absurd (ha.symm.trans hst.1) (by simp)
  | ended o =>
    rw [Patrol.ask_of_ended hp]
    exact h

/-- A signal comes at its time: the shutdown when it has come, the end of a pause or of the time for
a list when the timer has gone off, and news when it was asked for. -/
structure Timely (s : Shift α) (sig : Signal α) : Prop where
  shutdown : sig = .shutdown → s.shutDown = true
  timeUp : sig = .backoffOver ∨ sig = .listTimedOut →
    ∃ a, s.patrol.alarm = some a ∧ a ≤ s.now
  news : sig.isNews = true → s.patrol.asked = true

/-- Where a round can end, and how. -/
theorem phase_of_ending {phase : Phase} {sig : Signal α} {e : Ending}
    (ha : phase.awaits sig = true) (he : sig.ending? = some e) :
    phase = .listing ∧
        (e = .listFailed ∧ sig.isNews = true ∨ e = .listTimedOut ∧ sig = .listTimedOut) ∨
      (∃ version, phase = .opening version) ∧ e = .watchFailed ∧ sig.isNews = true ∨
      (∃ received, phase = .watching received) ∧ (e = .streamFailed ∨ e = .streamEnded) := by
  cases phase <;> cases sig <;> simp_all [Phase.awaits, Signal.ending?, Signal.isNews]

/-- A leg that is over has kept to its times. -/
theorem kept_over (h : Punctual resource policy period start s) {sig : Signal α}
    (ht : Timely s sig) (ha : s.patrol.phase.awaits sig = true) {e : Ending}
    (he : sig.ending? = some e) : ∃ leg, s.patrol.present = some leg ∧
      leg.start = resumesAt policy start s.patrol.past ∧
      PastLeg.Kept policy { leg with
        stop := s.now, round := ⟨e, s.patrol.course.delivered⟩ } := by
  have hst := h.stage
  rcases phase_of_ending ha he with ⟨hp, hcase⟩ | ⟨⟨version, hp⟩, rfl, hnews⟩ |
    ⟨⟨received, hp⟩, hcase⟩
  · -- nothing ends the wait for a list before it was asked for
    have hasked : s.patrol.asked = true := by
      rcases hcase with ⟨-, hnews⟩ | ⟨-, hsig⟩
      · exact ht.news hnews
      · obtain ⟨a, halarm, -⟩ := ht.timeUp (Or.inr hsig)
        by_contra hn
        rw [(h.unasked (Bool.eq_false_iff.mpr hn)).1] at halarm
        exact absurd halarm (by simp)
    simp only [Stage, hp, hasked, if_true] at hst
    obtain ⟨leg, hleg, hlisted, halarm, hwithin⟩ := hst
    obtain ⟨hstart, hnow, hkept⟩ := h.present leg hleg
    refine ⟨leg, hleg, hstart, hkept, hnow, fun _ => ⟨hlisted, hwithin⟩, fun htimed => ?_, ?_⟩
    · refine ⟨hlisted, le_antisymm hwithin ?_⟩
      rcases hcase with ⟨rfl, -⟩ | ⟨-, hsig⟩
      · exact absurd htimed (by simp)
      · obtain ⟨a, ha', hle⟩ := ht.timeUp (Or.inr hsig)
        obtain rfl := Option.some.inj (halarm.symm.trans ha')
        exact hle
    · intro hf ht'
      rcases hcase with ⟨rfl, -⟩ | ⟨rfl, -⟩
      · exact absurd rfl hf
      · exact absurd rfl ht'
  · simp only [Stage, hp, ht.news hnews, if_true] at hst
    obtain ⟨leg, t, hleg, hlisted, hle, hwatched⟩ := hst
    obtain ⟨hstart, hnow, hkept⟩ := h.present leg hleg
    exact ⟨leg, hleg, hstart, hkept, hnow, fun hf => absurd hf (by simp),
      fun hf => absurd hf (by simp), fun _ _ => ⟨t, version, hlisted, hwatched, hle⟩⟩
  · simp only [Stage, hp] at hst
    obtain ⟨-, leg, t, version, hleg, hlisted, hle, hwatched⟩ := hst
    obtain ⟨hstart, hnow, hkept⟩ := h.present leg hleg
    refine ⟨leg, hleg, hstart, hkept, hnow, fun hf => ?_, fun hf => ?_,
      fun _ _ => ⟨t, version, hlisted, hwatched, hle⟩⟩
    · rcases hcase with rfl | rfl <;> exact absurd hf (by simp)
    · rcases hcase with rfl | rfl <;> exact absurd hf (by simp)

/-- A count that does not fit any more is large. -/
theorem failures_of_addOverflow {r : Reflector} {record : LogRecord}
    (h : (roundFailed (α := α) r record).1.phase = .ended .addOverflow) :
    maxFailures ≤ r.failures := by
  unfold roundFailed nextRound at h
  dsimp only at h
  split at h
  next =>
    rw [if_neg (Nat.succ_ne_zero _)] at h
    split at h <;> exact absurd h (by simp [Outcome.addOverflow])
  next hlt => exact Nat.le_of_not_lt hlt

/-- What follows a round: the next list at once after a recovery, and after a failed round a pause
or the end. -/
inductive Sequel (c : Course) : Prop
  | lists (hp : c.reflector.phase = .listing) (hnone : c.streak = [])
  | pauses {delay : Nat} (hp : c.reflector.phase = .backingOff delay) (hsome : c.streak ≠ [])
    (hd : delay = c.reflector.policy.delayFor (c.streak.length - 1))
  | overflows (hp : c.reflector.phase = .ended .addOverflow)
    (hlarge : UInt32.size ≤ c.streak.length)
  | givesUp (hp : c.reflector.phase =
      .ended (.failed (.informerGaveUp c.reflector.resource (c.limit + 1))))
    (hlimit : 0 < c.limit) (hcount : c.streak.length = c.limit + 1)

theorem sequel_round (h : s.patrol.course.Counts) {sig : Signal α}
    (ha : s.patrol.phase.awaits sig = true) {e : Ending} (he : sig.ending? = some e) :
    Sequel (s.patrol.course.note sig (s.patrol.reflector.step sig).1) := by
  have hcounts : (s.patrol.course.note sig (s.patrol.reflector.step sig).1).Counts := by
    have := Course.counts_take h sig
    unfold Course.take at this
    rwa [if_pos ha] at this
  have hnot := Course.not_ended_of_awaits ha
  have hadvance := advance_step ha
  generalize (s.patrol.reflector.step sig).1 = r at hadvance hcounts ⊢
  cases hadvance with
  | fails record he' _ hidle =>
    obtain rfl := Option.some.inj (he'.symm.trans he)
    rcases roundFailed_cases (α := α) s.patrol.reflector record with hr | ⟨-, hr⟩ | ⟨-, hr⟩
    · have hphase := congrArg Reflector.phase hr
      have hstreak := (Course.streak_note he (Course.not_recovers_of_fails h hnot hidle)
        (roundFailed (α := α) s.patrol.reflector record).1).1
      refine .overflows hphase ?_
      have hlarge := failures_of_addOverflow hphase
      have hlength := congrArg List.length hstreak
      rw [List.length_append, ← (h.count hnot).1] at hlength
      exact (Nat.succ_le_succ hlarge).trans hlength.ge
    · have hphase := congrArg Reflector.phase hr
      obtain ⟨hpos, hlength, htext⟩ := hcounts.gaveUp _ hphase
      exact .givesUp (hphase.trans (congrArg (Phase.ended ∘ Outcome.failed) htext)) hpos hlength
    · have hphase := congrArg Reflector.phase hr
      obtain ⟨hne, hd⟩ := hcounts.pause _ hphase
      exact .pauses hphase hne hd
  | recovers =>
    refine .lists rfl (List.eq_nil_of_length_eq_zero ?_)
    exact (hcounts.count (by simp [Course.note])).1.symm
  | stops | resumes | lists | opens | changes | ticks => exact absurd he (by simp [Signal.ending?])

/-- After a round the loop has nothing to read. -/
theorem Sequel.not_watching {c : Course} (h : Sequel c) :
    c.reflector.phase.isWatching = false := by
  cases h with
  | lists hp | pauses hp | overflows hp | givesUp hp =>
    rw [hp]
    rfl

/-- After a round the loop stands at the beginning of its pause, if there is one. -/
theorem stage_of_sequel (h : Sequel s.patrol.course) (hasked : s.patrol.asked = false)
    (hpresent : s.patrol.present = none)
    (hpolicy : s.patrol.course.reflector.policy = policy)
    (hresumes : resumesAt policy start s.patrol.past =
      s.now + policy.pause s.patrol.course.streak.length) : Stage policy start s := by
  cases h with
  | lists hp hnone =>
    simp only [Stage, Patrol.phase, hp, hasked, Bool.false_eq_true, if_false]
    refine ⟨hpresent, ?_⟩
    rw [hresumes, hnone]
    rfl
  | pauses hp hsome hd =>
    simp only [Stage, Patrol.phase, hp, hasked, Bool.false_eq_true, if_false]
    refine ⟨hpresent, ?_⟩
    have hlength : s.patrol.course.streak.length ≠ 0 :=
      fun hz => hsome (List.eq_nil_of_length_eq_zero hz)
    rw [hresumes, policy.pause_of_ne_zero hlength, hd, hpolicy]
  | overflows hp | givesUp hp => simp only [Stage, Patrol.phase, hp]

/-- If nothing follows a round, too many have failed. -/
theorem ends_of_sequel (h : Sequel s.patrol.course)
    (hname : s.patrol.course.reflector.resource = resource)
    (hpolicy : s.patrol.course.reflector.policy = policy) {o : Outcome}
    (ho : s.patrol.course.reflector.phase = .ended o) :
    Ends resource policy period start s o := by
  have hlimit : s.patrol.course.limit = policy.maxRetries.toNat :=
    congrArg (fun p => p.maxRetries.toNat) hpolicy
  cases h with
  | lists hp | pauses hp => exact absurd (hp.symm.trans ho) (by simp)
  | overflows hp hlarge =>
    obtain rfl := Phase.ended.inj (hp.symm.trans ho)
    exact .uncounted hlarge
  | givesUp hp hpos hcount =>
    obtain rfl := Phase.ended.inj (hp.symm.trans ho)
    rw [hlimit] at hpos hcount ⊢
    rw [hname]
    exact .gaveUp hpos hcount

/-- A round is over. -/
theorem punctual_over (h : Punctual resource policy period start s) {sig : Signal α}
    (ht : Timely s sig) (ha : s.patrol.phase.awaits sig = true) {e : Ending}
    (he : sig.ending? = some e) (rest : List (News α)) :
    Punctual resource policy period start { s with patrol := s.patrol.hear s.now sig rest } := by
  obtain ⟨leg, hleg, hstart, hkept⟩ := kept_over h ht ha he
  have hsame := same_advance (advance_step ha)
  have hsequel := sequel_round h.counts ha he
  have hrounds : (s.patrol.course.note sig (s.patrol.reflector.step sig).1).rounds =
      s.patrol.course.rounds ++ [⟨e, s.patrol.course.delivered⟩] := by
    unfold Course.note
    rw [he]
  have hcourse := Patrol.course_hear s.now rest ha
  have hpast := Patrol.past_hear_of_ending s.now rest he hleg
  have hpresent := Patrol.present_hear_of_ending (p := s.patrol) s.now rest he
  have hinbox : (s.patrol.hear s.now sig rest).phase.isWatching = false →
    (s.patrol.hear s.now sig rest).inbox = [] := Patrol.inbox_hear_of_not_watching s.now rest
  have hasked : (s.patrol.hear s.now sig rest).asked =
    (s.patrol.hear s.now sig rest).phase.isWatching := rfl
  have halarm : (s.patrol.hear s.now sig rest).alarm = none := rfl
  have hcounts : (s.patrol.hear s.now sig rest).course.Counts := Course.counts_take h.counts sig
  generalize s.patrol.hear s.now sig rest = p at hcourse hpast hpresent hinbox hasked halarm hcounts
  rw [← hcourse] at hsequel hrounds
  rw [hsequel.not_watching] at hasked
  have hreflector : p.reflector = (s.patrol.reflector.step sig).1 := congrArg _ hcourse
  have hname : p.reflector.resource = resource := by rw [hreflector, hsame.1, h.name]
  have hpolicy : p.reflector.policy = policy := by rw [hreflector, hsame.2, h.same]
  -- when the next list is to be asked for, in terms of what the loop has counted
  have hresumes : resumesAt policy start p.past =
      s.now + policy.pause p.course.streak.length := by
    rw [hpast, resumesAt_concat, h.rounds, ← hrounds]
    rfl
  refine ⟨hname, hpolicy, hcounts, ?_, fun _ => ⟨halarm, hinbox hsequel.not_watching⟩, ?_, ?_,
    fun _ hn => absurd (hpresent.symm.trans hn) (by simp),
    stage_of_sequel hsequel hasked hpresent hpolicy hresumes,
    fun o ho => ends_of_sequel hsequel hname hpolicy ho⟩
  · rw [hpast, List.map_append, h.rounds, hrounds]
    rfl
  · show Begun policy start p.past
    rw [hpast]
    exact begun_concat h.past hstart
  · show ∀ leg ∈ p.past, leg.Kept policy
    rw [hpast]
    intro leg' hmem
    rcases List.mem_append.mp hmem with hmem | hmem
    · exact h.kept leg' hmem
    · exact List.mem_singleton.mp hmem ▸ hkept

/-- Within a round, and from a pause to the next list. -/
theorem punctual_goesOn (h : Punctual resource policy period start s) {sig : Signal α}
    (ha : s.patrol.phase.awaits sig = true) (he : sig.ending? = none) {rest : List (News α)}
    (hpresent : ∀ leg, s.patrol.legAfter s.now sig = some leg →
      leg.start = resumesAt policy start s.patrol.past ∧ leg.start ≤ s.now ∧ leg.Kept policy)
    (hstage : Stage policy start { s with patrol := s.patrol.hear s.now sig rest })
    (hends : ∀ o, (s.patrol.reflector.step sig).1.phase = .ended o →
      o = .finished ∧ s.shutDown = true) :
    Punctual resource policy period start { s with patrol := s.patrol.hear s.now sig rest } := by
  have hcourse := Patrol.course_hear s.now rest ha
  have hreflector := Patrol.reflector_hear s.now rest ha
  have hpast := Patrol.past_hear (p := s.patrol) s.now rest he
  have hsame := same_advance (advance_step ha)
  have hrounds : (s.patrol.hear s.now sig rest).course.rounds = s.patrol.course.rounds := by
    rw [hcourse]
    unfold Course.note
    rw [he]
  refine ⟨?_, ?_, Course.counts_take h.counts sig, ?_,
    fun hn => ⟨rfl, Patrol.inbox_hear_of_not_watching _ _ hn⟩, ?_, ?_, ?_, hstage, fun o ho => ?_⟩
  · show (s.patrol.hear s.now sig rest).reflector.resource = _
    rw [hreflector]
    exact hsame.1.trans h.name
  · show (s.patrol.hear s.now sig rest).reflector.policy = _
    rw [hreflector]
    exact hsame.2.trans h.same
  · show (s.patrol.hear s.now sig rest).past.map _ = (s.patrol.hear s.now sig rest).course.rounds
    rw [hpast, hrounds]
    exact h.rounds
  · show Begun policy start (s.patrol.hear s.now sig rest).past
    rw [hpast]
    exact h.past
  · show ∀ leg ∈ (s.patrol.hear s.now sig rest).past, _
    rw [hpast]
    exact h.kept
  · show ∀ leg, _ → _ = resumesAt policy start (s.patrol.hear s.now sig rest).past ∧ _
    rw [hpast]
    exact hpresent
  · have ho : (s.patrol.hear s.now sig rest).reflector.phase = .ended o := ho
    rw [hreflector] at ho
    obtain ⟨rfl, hs⟩ := hends o ho
    refine .stopped hs ?_
    show policy.exceeded (failedInRow (s.patrol.hear s.now sig rest).course.rounds).length = false
    rw [hrounds, ← h.same]
    exact (h.counts.count (Course.not_ended_of_awaits ha)).2

/-- A signal that ends the loop without ending a round is the shutdown. -/
theorem finished_of_ended {sig : Signal α} (ha : s.patrol.phase.awaits sig = true)
    (he : sig.ending? = none) {o : Outcome}
    (ho : (s.patrol.reflector.step sig).1.phase = .ended o) :
    sig = .shutdown ∧ o = .finished := by
  have hadvance := advance_step ha
  generalize (s.patrol.reflector.step sig).1 = r at hadvance ho
  cases hadvance with
  | stops => exact ⟨rfl, (Phase.ended.inj ho).symm⟩
  | ticks _ hp => exact absurd (hp.symm.trans ho) (by simp)
  | fails _ he' => exact absurd (he.symm.trans he') (by simp)
  | recovers => exact absurd he (by simp [Signal.ending?])
  | resumes | lists | opens | changes => exact absurd ho (by simp)

/-- A list that was waited for. -/
theorem punctual_listed (h : Punctual resource policy period start s) {items : List α}
    {version : String} (ht : Timely s (.listed items version)) (hp : s.patrol.phase = .listing)
    (rest : List (News α)) :
    Punctual resource policy period start
      { s with patrol := s.patrol.hear s.now (.listed items version) rest } := by
  have ha : s.patrol.phase.awaits (.listed items version) = true := by rw [hp]; rfl
  have hst := h.stage
  simp only [Stage, hp, ht.news rfl, if_true] at hst
  obtain ⟨leg, hleg, hlisted, -, hwithin⟩ := hst
  obtain ⟨hstart, hnow, hkept⟩ := h.present leg hleg
  have hunwatched : leg.watched = none := by
    refine Option.eq_none_iff_forall_ne_some.mpr fun v hv => ?_
    obtain ⟨t, hl⟩ := hkept.watched v hv
    exact absurd (hlisted.symm.trans hl) (by simp)
  have hafter : s.patrol.legAfter s.now (.listed items version) =
      some { leg with listed := some (s.now, version) } := by
    unfold Patrol.legAfter
    rw [hleg]
    rfl
  have hreflector := Patrol.reflector_hear s.now rest ha
  rw [step_listed ha] at hreflector
  refine punctual_goesOn h ha rfl (fun leg' hleg' => ?_) ?_ fun o ho =>
    absurd (finished_of_ended ha rfl ho).1 (by simp)
  · obtain rfl := Option.some.inj (hafter.symm.trans hleg')
    refine ⟨hstart, hnow, fun t v hl => ?_, fun v hv => ?_⟩
    · obtain ⟨rfl, -⟩ := Prod.mk.inj (Option.some.inj hl)
      exact ⟨hnow, hwithin⟩
    · exact absurd (hunwatched.symm.trans hv) (by simp)
  · have hphase : (s.patrol.hear s.now (.listed items version) rest).course.reflector.phase =
        .opening version := congrArg Reflector.phase hreflector
    have hasked : (s.patrol.hear s.now (.listed items version) rest).asked = false :=
      congrArg Phase.isWatching hphase
    simp only [Stage, Patrol.phase, hphase, hasked, Bool.false_eq_true, if_false]
    exact ⟨_, s.now, hafter, rfl, le_rfl, hunwatched⟩

/-- Where the loop stands after a signal that ends no round and brings no list. -/
theorem stage_hear (h : Punctual resource policy period start s) {sig : Signal α}
    (ht : Timely s sig) (ha : s.patrol.phase.awaits sig = true) (he : sig.ending? = none)
    (hl : ¬∃ items version, sig = .listed items version)
    (hafter : s.patrol.legAfter s.now sig = s.patrol.present) (rest : List (News α)) :
    Stage policy start { s with patrol := s.patrol.hear s.now sig rest } := by
  have hst := h.stage
  have hadvance := advance_step ha
  have hphase : (s.patrol.hear s.now sig rest).course.reflector.phase =
      (s.patrol.reflector.step sig).1.phase :=
    congrArg Reflector.phase (Patrol.reflector_hear s.now rest ha)
  have hasked : (s.patrol.hear s.now sig rest).asked =
    (s.patrol.hear s.now sig rest).course.reflector.phase.isWatching := rfl
  have hpast := Patrol.past_hear (p := s.patrol) s.now rest he
  have hpresent : (s.patrol.hear s.now sig rest).present = s.patrol.present := hafter
  generalize s.patrol.hear s.now sig rest = p at hphase hasked hpast hpresent ⊢
  generalize (s.patrol.reflector.step sig).1 = r at hadvance hphase
  rw [hphase] at hasked
  cases hadvance with
  | stops => simp only [Stage, Patrol.phase, hphase]
  | resumes hp =>
    -- the timer has gone off, and time has not passed it
    obtain ⟨a, halarm, hle⟩ := ht.timeUp (Or.inl rfl)
    have hwas : s.patrol.asked = true := by
      by_contra hn
      rw [(h.unasked (Bool.eq_false_iff.mpr hn)).1] at halarm
      exact absurd halarm (by simp)
    simp only [Stage, Patrol.phase, hp, hwas, if_true] at hst
    obtain ⟨hnone, hresumes, hnow⟩ := hst
    obtain rfl := Option.some.inj (hresumes.symm.trans halarm)
    simp only [Stage, Patrol.phase, hphase, hasked, Phase.isWatching, Bool.false_eq_true, if_false]
    rw [hpresent, hpast]
    exact ⟨hnone, le_antisymm hnow hle⟩
  | lists items version => exact absurd ⟨items, version, rfl⟩ hl
  | opens hp =>
    simp only [Stage, Patrol.phase, hp, ht.news rfl, if_true] at hst
    obtain ⟨leg, t, hleg, hlisted, hle, hwatched⟩ := hst
    simp only [Stage, Patrol.phase, hphase]
    exact ⟨hasked, leg, t, _, hpresent.trans hleg, hlisted, hle, hwatched⟩
  | changes c hp =>
    simp only [Stage, Patrol.phase, hp] at hst
    simp only [Stage, Patrol.phase, hphase, hpresent]
    exact ⟨hasked, hst.2⟩
  | ticks now hp =>
    simp only [Stage, Patrol.phase, hp] at hst
    have hphase : p.course.reflector.phase = .watching _ := hphase.trans hp
    have hasked : p.asked = true := hasked.trans (congrArg Phase.isWatching hp)
    simp only [Stage, Patrol.phase, hphase, hpresent]
    exact ⟨hasked, hst.2⟩
  | fails _ he' => exact absurd (he.symm.trans he') (by simp)
  | recovers => exact absurd he (by simp [Signal.ending?])

/-- A signal that is taken at its time. -/
theorem punctual_hear (h : Punctual resource policy period start s) {sig : Signal α}
    (ht : Timely s sig) (ha : s.patrol.phase.awaits sig = true) (rest : List (News α)) :
    Punctual resource policy period start { s with patrol := s.patrol.hear s.now sig rest } := by
  cases he : sig.ending? with
  | some e => exact punctual_over h ht ha he rest
  | none =>
    by_cases hl : ∃ items version, sig = .listed items version
    · obtain ⟨items, version, rfl⟩ := hl
      cases hp : s.patrol.phase with
      | listing => exact punctual_listed h ht hp rest
      | _ =>
        rw [hp] at ha
        exact absurd ha (by simp [Phase.awaits])
    have hafter : s.patrol.legAfter s.now sig = s.patrol.present := by
      cases sig with
      | listed items version => exact absurd ⟨items, version, rfl⟩ hl
      | shutdown | backoffOver | opened | changed | resyncDue => rfl
      | listFailed | listTimedOut | openFailed | streamFailed | streamEnded =>
        exact absurd he (by simp [Signal.ending?])
    refine punctual_goesOn h ha he (fun leg hleg => h.present leg (hafter.symm.trans hleg)) ?_
      fun o ho => ?_
    · exact stage_hear h ht ha he hl hafter rest
    · obtain ⟨rfl, rfl⟩ := finished_of_ended ha he ho
      exact ⟨rfl, ht.shutdown rfl⟩

/-- What is due comes at its time. -/
theorem timely_of_due {first : Bool} {sig : Signal α}
    (hd : s.patrol.DueAt s.now s.shutDown first (.own sig)) : Timely s sig := by
  have halarm : (s.patrol.alarm.any fun a => decide (a ≤ s.now)) = true →
      ∃ a, s.patrol.alarm = some a ∧ a ≤ s.now := fun ha => by
    simpa [Option.any_eq_true] using ha
  cases hd with
  | shutdown hs =>
    exact ⟨fun _ => hs, fun hsig => absurd hsig (by simp),
      fun hn => absurd hn (by simp [Signal.isNews])⟩
  | backoffOver _ ht | listTimedOut _ _ _ ht =>
    exact ⟨fun hsig => absurd hsig (by simp), fun _ => halarm ht,
      fun hn => absurd hn (by simp [Signal.isNews])⟩
  | resync =>
    exact ⟨fun hsig => absurd hsig (by simp), fun hsig => absurd hsig (by simp),
      fun hn => absurd hn (by simp [Signal.isNews])⟩

/-- News that are there were asked for. -/
theorem timely_of_news (h : Punctual resource policy period start s) {news : News α}
    {rest : List (News α)} (hi : s.patrol.inbox = news :: rest) : Timely s news.1 := by
  refine ⟨fun hsig => ?_, fun hsig => ?_, fun _ => ?_⟩
  · have hnews := news.2
    rw [hsig] at hnews
    exact absurd hnews (by simp [Signal.isNews])
  · have hnews := news.2
    rcases hsig with hsig | hsig <;> rw [hsig] at hnews <;>
      exact absurd hnews (by simp [Signal.isNews])
  · by_contra hn
    rw [(h.unasked (Bool.eq_false_iff.mpr hn)).2] at hi
    exact absurd hi (by simp)

theorem punctual_turn (h : Punctual resource policy period start s) (first : Bool) :
    Punctual resource policy period start
      { s with patrol := (s.patrol.turn s.now s.shutDown first).1 } := by
  have hstride := s.patrol.stride_turn s.now s.shutDown first
  generalize (s.patrol.turn s.now s.shutDown first).1 = p at hstride ⊢
  generalize (s.patrol.turn s.now s.shutDown first).2 = effects at hstride
  cases hstride with
  | idle => exact h
  | asks _ ha => exact punctual_ask h ha
  | drops hi =>
    refine punctual_inbox h _ fun hn => ?_
    rw [(h.unasked hn).2] at hi
    exact absurd hi (by simp)
  | hears hd ha => exact punctual_hear h (timely_of_due hd) ha _
  | learns news hi _ ha => exact punctual_hear h (timely_of_news h hi) ha _

/-- One act. -/
theorem punctual_perform (h : Punctual resource policy period start s) (a : Act α) :
    Punctual resource policy period start (s.perform a) := by
  cases a with
  | pass time =>
    show Punctual resource policy period start (if _ then _ else s)
    split
    next hg =>
      obtain ⟨hbusy, hin⟩ := Bool.and_eq_true_iff.mp hg
      exact punctual_pass h time (by simpa using hbusy) (by simpa using hin)
    next => exact h
  | shutDown => exact punctual_shutDown h
  | arrive news => exact punctual_arrive h news
  | turn first => exact punctual_turn h first

theorem punctual_foldl (acts : List (Act α)) : ∀ {s : Shift α},
    Punctual resource policy period start s →
      Punctual resource policy period start (acts.foldl perform s) := by
  induction acts with
  | nil => exact fun h => h
  | cons a acts ih => exact fun h => ih (punctual_perform h a)

theorem punctual_begin (resource : String) (policy : BackoffPolicy) (period : Option Nat)
    (start : Nat) :
    Punctual resource policy period start (begin (α := α) resource policy period start) := by
  refine ⟨rfl, rfl, Course.counts_begin (α := α) resource policy period start, rfl,
    fun _ => ⟨rfl, rfl⟩, fun _ _ hk => absurd hk (by simp [begin, Patrol.ofReflector]),
    fun _ hmem => absurd hmem (by simp [begin, Patrol.ofReflector]),
    fun _ hn => absurd hn (by simp [begin, Patrol.ofReflector]), ?_, fun o ho => ?_⟩
  · rcases phase_begin (α := α) resource policy period start with hp | ⟨text, hp⟩
    · have hp : (begin (α := α) resource policy period start).patrol.phase = .listing := hp
      simp only [Stage, hp]
      exact ⟨rfl, rfl⟩
    · have hp : (begin (α := α) resource policy period start).patrol.phase =
        .ended (.panicked text) := hp
      simp only [Stage, hp]
  · have ho : (Reflector.begin (α := α) resource policy period start).1.phase = .ended o := ho
    unfold Reflector.begin at ho
    dsimp only at ho
    split at ho
    next fault hfault =>
      obtain rfl := Phase.ended.inj ho
      obtain ⟨t, ht, hf⟩ := Option.bind_eq_some_iff.mp hfault
      exact .faulty ht hf rfl
    next => exact absurd ho (by simp)

/-! ## The next list comes -/

/-- A loop that is to ask for a list does so in its turn. -/
theorem present_turn_of_listing (h : Punctual resource policy period start s)
    (hp : s.patrol.phase = .listing) (ha : s.patrol.asked = false) (hs : s.shutDown = false) :
    (s.perform (.turn false)).patrol.present =
      some ⟨resumesAt policy start s.patrol.past, none, none⟩ := by
  have hst := h.stage
  simp only [Stage, hp, ha, Bool.false_eq_true, if_false] at hst
  obtain ⟨halarm, hinbox⟩ := h.unasked ha
  have hdue : s.patrol.due? s.now s.shutDown false = none := by
    unfold Patrol.due? Reflector.due?
    rw [halarm, hinbox, hs, show s.patrol.reflector.phase = .listing from hp]
    rfl
  show (s.patrol.turn s.now s.shutDown false).1.present = _
  rw [Patrol.turn_of_none hdue, ha]
  show (s.patrol.ask s.now).present = _
  rw [Patrol.ask_of_listing hp, hst.2]

/-- Time passes to the end of a pause, unless it is there already. -/
theorem pass_of_pausing {delay a : Nat} (hp : s.patrol.phase = .backingOff delay)
    (hasked : s.patrol.asked = true) (hs : s.shutDown = false) (halarm : s.patrol.alarm = some a)
    (hnow : s.now ≤ a) : s.perform (.pass (a - s.now)) = { s with now := a } := by
  show (if _ then _ else s) = _
  rw [Nat.add_sub_cancel' hnow]
  split
  next => rfl
  next hg =>
    rcases Nat.lt_or_eq_of_le hnow with hlt | heq
    · refine absurd ?_ hg
      have hbusy : s.busy = false := by
        unfold busy Patrol.due? Reflector.due?
        simp only [hp, halarm, hasked, hs, Option.any_some]
        simp [hlt]
      rw [hbusy]
      simp [alarms, halarm, hp, Phase.isWatching]
    · rw [← heq]

/-- A pause that has begun comes to its end, and the loop to its next list. -/
theorem exists_present_of_pausing (h : Punctual resource policy period start s) {delay : Nat}
    (hp : s.patrol.phase = .backingOff delay) (ha : s.patrol.asked = true)
    (hs : s.shutDown = false) : ∃ more : List (Act α), (more.foldl perform s).patrol.present =
      some ⟨resumesAt policy start s.patrol.past, none, none⟩ := by
  have hst := h.stage
  simp only [Stage, hp, ha, if_true] at hst
  obtain ⟨-, halarm, hnow⟩ := hst
  generalize hat : resumesAt policy start s.patrol.past = at' at halarm hnow ⊢
  have hphase : s.patrol.reflector.phase = .backingOff delay := hp
  have hpass := pass_of_pausing hp ha hs halarm hnow
  have hdue : s.patrol.due? at' s.shutDown false = some (.own .backoffOver) := by
    unfold Patrol.due? Reflector.due?
    simp [hphase, halarm, hs]
  have hover : ({ s with now := at' } : Shift α).perform (.turn false) =
      { s with now := at', patrol := s.patrol.hear at' .backoffOver s.patrol.inbox } := by
    show ({ s with now := at', patrol := (s.patrol.turn at' s.shutDown false).1 } : Shift α) = _
    rw [Patrol.turn_of_due hdue]
  have hnext : Punctual resource policy period start
      (({ s with now := at' } : Shift α).perform (.turn false)) := by
    rw [← hpass]
    exact punctual_perform (punctual_perform h _) _
  rw [hover] at hnext
  have hlisting : (s.patrol.hear at' .backoffOver s.patrol.inbox).phase = .listing := by
    show (s.patrol.hear at' .backoffOver s.patrol.inbox).reflector.phase = _
    rw [Patrol.reflector_hear _ _ (by rw [hp]; rfl)]
    unfold Reflector.step
    rw [hphase]
  have hasked : (s.patrol.hear at' .backoffOver s.patrol.inbox).asked = false :=
    congrArg Phase.isWatching hlisting
  refine ⟨[.pass (at' - s.now), .turn false, .turn false], ?_⟩
  rw [List.foldl_cons, List.foldl_cons, List.foldl_cons, List.foldl_nil, hpass, hover]
  rw [present_turn_of_listing hnext hlisting hasked hs, Patrol.past_hear _ _ rfl, hat]

/-- A loop between two legs comes to its next list when it is time for it. -/
theorem exists_present (h : Punctual resource policy period start s)
    (hnone : s.patrol.present = none) (hnot : ∀ o, s.patrol.phase ≠ .ended o) :
    s.now ≤ resumesAt policy start s.patrol.past ∧
      (s.shutDown = false → ∃ more : List (Act α), (more.foldl perform s).patrol.present =
        some ⟨resumesAt policy start s.patrol.past, none, none⟩) := by
  have hst := h.stage
  cases hp : s.patrol.phase with
  | backingOff delay =>
    cases ha : s.patrol.asked with
    | true =>
      refine ⟨?_, exists_present_of_pausing h hp ha⟩
      simp only [Stage, hp, ha, if_true] at hst
      exact hst.2.2
    | false =>
      simp only [Stage, hp, ha, Bool.false_eq_true, if_false] at hst
      refine ⟨hst.2 ▸ Nat.le_add_right .., fun hs => ?_⟩
      -- the timer is set first
      obtain ⟨halarm, -⟩ := h.unasked ha
      have hask : s.perform (.turn false) = { s with patrol := s.patrol.ask s.now } := by
        have hdue : s.patrol.due? s.now s.shutDown false = none := by
          unfold Patrol.due? Reflector.due?
          rw [halarm, hs, show s.patrol.reflector.phase = .backingOff delay from hp]
          rfl
        show ({ s with patrol := (s.patrol.turn s.now s.shutDown false).1 } : Shift α) = _
        rw [Patrol.turn_of_none hdue, ha]
        rfl
      have hnext := punctual_ask h ha
      rw [Patrol.ask_of_backingOff hp] at hnext hask
      obtain ⟨more, hmore⟩ := exists_present_of_pausing hnext hp rfl hs
      refine ⟨.turn false :: more, ?_⟩
      rw [List.foldl_cons, hask]
      exact hmore
  | listing =>
    cases ha : s.patrol.asked with
    | true =>
      simp only [Stage, hp, ha, if_true] at hst
      obtain ⟨leg, hleg, -⟩ := hst
      exact absurd (hnone.symm.trans hleg) (by simp)
    | false =>
      have hat := hst
      simp only [Stage, hp, ha, Bool.false_eq_true, if_false] at hat
      exact ⟨hat.2.le, fun hs => ⟨[.turn false], present_turn_of_listing h hp ha hs⟩⟩
  | opening version =>
    simp only [Stage, hp] at hst
    obtain ⟨leg, t, hleg, -⟩ := hst
    exact absurd (hnone.symm.trans hleg) (by simp)
  | watching received =>
    simp only [Stage, hp] at hst
    obtain ⟨-, leg, t, version, hleg, -⟩ := hst
    exact absurd (hnone.symm.trans hleg) (by simp)
  | ended o => exact absurd hp (hnot o)

/-! ## The schedule is kept -/

/-- What has not gone beyond a limit is not larger than it. -/
theorem le_limit_of_not_exceeded {n : Nat} (hlimit : 0 < policy.maxRetries.toNat)
    (h : policy.exceeded n = false) : n ≤ policy.maxRetries.toNat := by
  unfold BackoffPolicy.exceeded at h
  rw [decide_eq_false_iff_not] at h
  omega

/-- Failed rounds in a row go one beyond the limit, and then the loop gives up. -/
theorem within_limit (h : Punctual resource policy period start s)
    (hlimit : 0 < policy.maxRetries.toNat) (hfits : s.patrol.course.streak.length < UInt32.size) :
    s.patrol.course.streak.length ≤ policy.maxRetries.toNat + 1 ∧
      (s.patrol.course.streak.length = policy.maxRetries.toNat + 1 → s.patrol.phase =
        .ended (.failed (.informerGaveUp resource (policy.maxRetries.toNat + 1)))) := by
  have hwithin : s.patrol.course.streak.length ≤ policy.maxRetries.toNat →
      s.patrol.course.streak.length ≤ policy.maxRetries.toNat + 1 ∧
        (s.patrol.course.streak.length = policy.maxRetries.toNat + 1 → s.patrol.phase =
          .ended (.failed (.informerGaveUp resource (policy.maxRetries.toNat + 1)))) :=
    fun hle => ⟨by omega, fun he => absurd he (by omega)⟩
  by_cases hended : ∃ o, s.patrol.phase = .ended o
  · obtain ⟨o, ho⟩ := hended
    cases h.ends o ho with
    | stopped _ hc => exact hwithin (le_limit_of_not_exceeded hlimit hc)
    | gaveUp _ hc => exact ⟨hc.le, fun _ => ho⟩
    | uncounted hc => exact absurd hc (Nat.not_le_of_lt hfits)
    | faulty _ _ hpast =>
      refine hwithin ?_
      rw [streak_eq h, hpast]
      exact Nat.zero_le _
  · have hcount := (h.counts.count fun o ho => hended ⟨o, ho⟩).2
    rw [h.same] at hcount
    exact hwithin (le_limit_of_not_exceeded hlimit hcount)

/-- **Lists are asked for on schedule.**  Take any policy and any period of resyncs, and whatever
the source sends, and when.

* Each leg begins at the instant that the legs before it tell: the first one at the start, and any
  other one when the one before it is over and the pause has passed that follows after so many
  failed rounds in a row.  Between two legs that instant has not passed, and unless the shutdown
  comes, the next leg begins then.
* A list comes in time, or it fails in time, or it is given up when its time is over.  A watch is
  asked for from the version of the list of its own round.
* If the run ends, then by the shutdown; or with a limit, when the failed rounds in a row are one
  more than the limit, by giving up; or because they cannot be counted any more, or the period is
  faulty.
* As long as they can be counted, they are never more than one more than the limit; and once they
  are so many, the run has ended by giving up. -/
theorem relists_on_schedule (resource : String) (policy : BackoffPolicy) (period : Option Nat)
    (start : Nat) (acts : List (Act α)) :
    let s := run resource policy period start acts
    let p := s.patrol
    let failures := (failedInRow (p.past.map PastLeg.round)).length
    let limit := policy.maxRetries.toNat
    (∀ k leg, p.past[k]? = some leg → leg.start = resumesAt policy start (p.past.take k)) ∧
    (∀ leg, p.present = some leg → leg.start = resumesAt policy start p.past) ∧
    (p.present = none → (∀ o, p.phase ≠ .ended o) → s.now ≤ resumesAt policy start p.past ∧
      (s.shutDown = false → ∃ more : List (Act α), (more.foldl perform s).patrol.present =
        some ⟨resumesAt policy start p.past, none, none⟩)) ∧
    (∀ leg ∈ p.past, leg.Kept policy) ∧ (∀ leg, p.present = some leg → leg.Kept policy) ∧
    (∀ o, p.phase = .ended o →
      o = .finished ∧ s.shutDown = true ∨
      o = .failed (.informerGaveUp resource (limit + 1)) ∧ 0 < limit ∧ failures = limit + 1 ∨
      o = .addOverflow ∧ UInt32.size ≤ failures ∨
      p.past = [] ∧ ∃ t, period = some t ∧ periodFault? t start = some o) ∧
    (0 < limit → failures < UInt32.size → failures ≤ limit + 1 ∧
      (failures = limit + 1 →
        p.phase = .ended (.failed (.informerGaveUp resource (limit + 1))))) := by
  intro s p failures limit
  have h : Punctual resource policy period start s :=
    punctual_foldl acts (punctual_begin resource policy period start)
  have hfailures : s.patrol.course.streak.length = failures := congrArg List.length (streak_eq h)
  refine ⟨h.past, fun leg hleg => (h.present leg hleg).1, exists_present h, h.kept,
    fun leg hleg => (h.present leg hleg).2.2, fun o ho => ?_, fun hlimit hfits => ?_⟩
  · cases h.ends o ho with
    | stopped hs => exact Or.inl ⟨rfl, hs⟩
    | gaveUp hlimit hc => exact Or.inr (Or.inl ⟨rfl, hlimit, hfailures ▸ hc⟩)
    | uncounted hc => exact Or.inr (Or.inr (Or.inl ⟨rfl, hfailures ▸ hc⟩))
    | faulty ht hf hpast => exact Or.inr (Or.inr (Or.inr ⟨hpast, _, ht, hf⟩))
  · rw [← hfailures] at hfits ⊢
    exact within_limit h hlimit hfits

/-- A policy with the longest pauses that can be written. -/
def longestPauses : BackoffPolicy := ⟨0, 1000, 18446744073709551615, 18446744073709551615⟩

/-- The first list fails at once, and time passes to the horizon. -/
def failedList : List (Act Nat) :=
  [.turn true, .arrive ⟨.listFailed (.external "unavailable"), rfl⟩, .turn true, .turn true,
    .pass horizon, .turn true, .turn true]

/-- **A longer pause than timers reach.**  The second list is asked for at the horizon, and not when
the first delay of the policy has passed. -/
theorem relists_at_horizon :
    let s := run "pods" longestPauses none 0 failedList
    s.patrol.past = [⟨⟨0, none, none⟩, 0, ⟨.listFailed, false⟩⟩] ∧
      s.patrol.present = some ⟨horizon, none, none⟩ ∧
      horizon ≠ 0 + ofMillis (min (longestPauses.baseDelayMs.toNat * 2 ^ (1 - 1))
        longestPauses.maxDelayMs.toNat) := by
  decide +kernel

end Shift

end InformerHub
