import InformerHub.Retry

/-!
# When attempts are made

A retry loop makes one attempt after the other.  `Pursuit` is such a loop on a clock: an attempt
goes on until it ends by itself or its timer cuts it off, and then there is a pause, or all is over.
What the attempts would do if nobody cut them off is open (`Conduct`); every attempt that was made
is noted with its times.

> Each attempt after the first starts one pause after the one before was over, and the pause after
> attempt `i` is `delayFor i`; the first attempt that returns in time decides the result, and if the
> policy has a limit and none of so many returns, the last one does (`pursued_on_schedule`).

No timer reaches further than the `horizon`, so a longer pause ends there (`resumes_at_horizon`).

`timetable` says when each attempt is made if it comes to it, and `Stage` where the loop stands
after some attempts in vain.  Failures are counted in 32 bits where the pause is computed, so the
loop breaks when so many attempts have failed that the count starts again.
-/

namespace InformerHub.Retry

open Duration

/-! ## One attempt -/

/-- What an attempt does if nobody cuts it off: it ends after some time, or never. -/
inductive Conduct (ρ : Type) where
  | ends (after : Nat) (result : Except Error ρ)
  | hangs

/-- How an attempt was over. -/
inductive Close (ρ : Type) where
  | returned (value : ρ)
  | failed (error : Error)
  | cutOff

variable {ρ : Type}

namespace Close

def ofResult : Except Error ρ → Close ρ
  | .ok v => .returned v
  | .error e => .failed e

def signal : Close ρ → Signal
  | .returned _ => .succeeded
  | .failed e => .failed e
  | .cutOff => .timedOut

/-- The error that an attempt brings, if it brings one. -/
def error? (policy : BackoffPolicy) : Close ρ → Option Error
  | .returned _ => none
  | .failed e => some e
  | .cutOff => some (.timeout policy.timeout)

/-- The attempt was in vain. -/
def InVain : Close ρ → Prop
  | .returned _ => False
  | _ => True

/-- An attempt was over by a timeout: the loop's own, or one that it returned as its error. -/
def TimedOut : Close ρ → Prop
  | .cutOff => True
  | .failed (.timeout _) => True
  | _ => False

/-- The error of a policy's last attempt, as the whole reports it. -/
theorem error_of_last {policy : BackoffPolicy} {c : Close ρ} {e : Error}
    (he : c.error? policy = some e) (n : Nat) :
    (c.TimedOut → lastError n e = .attemptsTimedOut n) ∧
      (∀ own, c = .failed own → ¬c.TimedOut → lastError n e = own) := by
  cases c with
  | returned v => exact absurd he (Option.some_ne_none e).symm
  | cutOff =>
    obtain rfl := Option.some.inj he
    exact ⟨fun _ => rfl, fun _ _ hno => absurd trivial hno⟩
  | failed own =>
    obtain rfl := Option.some.inj he
    refine ⟨fun htimed => ?_, fun own' hown hno => ?_⟩
    · cases own <;> first | rfl | exact htimed.elim
    · obtain rfl := Close.failed.inj hown
      cases own <;> first | rfl | exact absurd trivial hno

end Close

/-- The policy lets another attempt follow when so many have failed. -/
def Allows (policy : BackoffPolicy) (failures : Nat) : Prop :=
  policy.maxRetries.toNat = 0 ∨ failures < policy.maxRetries.toNat

theorem exceeded_succ {policy : BackoffPolicy} {n : Nat} :
    policy.exceeded (n + 1) = true ↔ ¬Allows policy n := by
  unfold BackoffPolicy.exceeded Allows
  rw [decide_eq_true_eq]
  omega

/-- What follows attempt `k`: the end with its value, the end with its error if the policy allows no
further attempt, a count of failures that does not fit any more, or a pause. -/
inductive Follows (policy : BackoffPolicy) (k : Nat) : Close ρ → Retry → Prop
  | returned (v : ρ) : Follows policy k (.returned v) ⟨policy, k, .ended .finished⟩
  | exhausted {c : Close ρ} {e : Error} (hvain : c.InVain) (he : c.error? policy = some e)
      (hno : ¬Allows policy (k + 1)) :
    Follows policy k c ⟨policy, k + 1, .ended (.failed (lastError (k + 1) e))⟩
  | broken {c : Close ρ} (hvain : c.InVain) (hallows : Allows policy (k + 1))
      (hfull : k + 1 = UInt32.size) :
    Follows policy k c ⟨policy, k + 1, .ended .subtractOverflow⟩
  | again {c : Close ρ} (hvain : c.InVain) (hallows : Allows policy (k + 1))
      (hfits : k + 1 < UInt32.size) :
    Follows policy k c ⟨policy, k + 1, .pausing (policy.delayFor k)⟩

theorem follows_attemptFailed {policy : BackoffPolicy} {k : Nat} (hfits : k < UInt32.size)
    {c : Close ρ} (hvain : c.InVain) {e : Error} (he : c.error? policy = some e) :
    Follows policy k c ((⟨policy, k, .attempting⟩ : Retry).attemptFailed e).1 := by
  unfold attemptFailed pauseAfter
  dsimp only
  split
  next h => exact .exhausted hvain he (exceeded_succ.mp h)
  next h =>
    have hallows : Allows policy (k + 1) :=
      Classical.not_not.mp fun hno => h (exceeded_succ.mpr hno)
    rcases Nat.lt_or_eq_of_le (Nat.succ_le_of_lt hfits) with hlt | hfull
    · rw [Nat.mod_eq_of_lt hlt, if_neg (Nat.succ_ne_zero k)]
      exact .again hvain hallows hlt
    · rw [if_pos (by rw [← Nat.succ_eq_add_one, hfull, Nat.mod_self])]
      exact .broken hvain hallows hfull

theorem follows_step (policy : BackoffPolicy) {k : Nat} (hfits : k < UInt32.size) (c : Close ρ) :
    Follows policy k c ((⟨policy, k, .attempting⟩ : Retry).step c.signal).1 := by
  cases c with
  | returned v => exact .returned v
  | failed e => exact follows_attemptFailed (c := .failed e) hfits trivial rfl
  | cutOff => exact follows_attemptFailed (c := .cutOff) hfits trivial rfl

namespace Follows

variable {policy : BackoffPolicy} {k : Nat} {c : Close ρ} {r : Retry}

theorem eq_returned {v : ρ} (h : Follows policy k (.returned v) r) :
    r = ⟨policy, k, .ended .finished⟩ := by
  cases h with
  | returned => rfl
  | exhausted hvain => exact hvain.elim
  | broken hvain => exact hvain.elim
  | again hvain => exact hvain.elim

theorem eq_again (h : Follows policy k c r) (hvain : c.InVain) (hallows : Allows policy (k + 1))
    (hfits : k + 1 < UInt32.size) : r = ⟨policy, k + 1, .pausing (policy.delayFor k)⟩ := by
  cases h with
  | returned => exact hvain.elim
  | exhausted _ _ hno => exact absurd hallows hno
  | broken _ _ hfull => exact absurd hfull (Nat.ne_of_lt hfits)
  | again => rfl

theorem eq_exhausted (h : Follows policy k c r) (hvain : c.InVain)
    (hno : ¬Allows policy (k + 1)) : ∃ e, c.error? policy = some e ∧
      r = ⟨policy, k + 1, .ended (.failed (lastError (k + 1) e))⟩ := by
  cases h with
  | returned => exact hvain.elim
  | exhausted _ he => exact ⟨_, he, rfl⟩
  | broken _ hallows => exact absurd hallows hno
  | again _ hallows => exact absurd hallows hno

end Follows

/-! ## Attempts on a clock -/

/-- An attempt that was made. -/
structure Trial (ρ : Type) where
  started : Nat
  stopped : Nat
  close : Close ρ

/-- A retry loop at an instant, with the attempts that are over. -/
structure Pursuit (ρ : Type) where
  loop : Retry
  now : Nat
  trials : List (Trial ρ)

namespace Conduct

/-- How long an attempt may take: as long as the policy says, or as far as a timer reaches. -/
def allowance (policy : BackoffPolicy) : Nat := min policy.timeout horizon

/-- How long an attempt takes. -/
def lasts (policy : BackoffPolicy) : Conduct ρ → Nat
  | .ends span _ => min span (allowance policy)
  | .hangs => allowance policy

/-- How an attempt is over: as it ends by itself, if it does so in time. -/
def close (policy : BackoffPolicy) : Conduct ρ → Close ρ
  | .ends span result => if span ≤ allowance policy then .ofResult result else .cutOff
  | .hangs => .cutOff

/-- An attempt that takes no time is never cut off. -/
theorem close_ends_zero (policy : BackoffPolicy) (result : Except Error ρ) :
    (ends 0 result).close policy = .ofResult result := by
  unfold close
  exact if_pos (Nat.zero_le _)

/-- An attempt that starts now: its own end comes first if the timer is not due before. -/
def attempt (policy : BackoffPolicy) (now : Nat) : Conduct ρ → Trial ρ
  | .ends span result =>
    if now + span ≤ timerEnd now policy.timeout then ⟨now, now + span, .ofResult result⟩
    else ⟨now, timerEnd now policy.timeout, .cutOff⟩
  | .hangs => ⟨now, timerEnd now policy.timeout, .cutOff⟩

theorem attempt_eq (policy : BackoffPolicy) (now : Nat) (c : Conduct ρ) :
    c.attempt policy now = ⟨now, now + c.lasts policy, c.close policy⟩ := by
  cases c with
  | hangs => rfl
  | ends span result =>
    -- the timer is set now, so the spans decide which of the two ends comes first
    have hdue : now + span ≤ timerEnd now policy.timeout ↔ span ≤ allowance policy :=
      Nat.add_le_add_iff_left
    unfold attempt lasts close
    dsimp only
    by_cases h : span ≤ allowance policy
    · rw [if_pos (hdue.mpr h), if_pos h, Nat.min_eq_left h]
    · rw [if_neg fun hd => h (hdue.mp hd), if_neg h, Nat.min_eq_right (Nat.le_of_not_le h)]
      rfl

end Conduct

namespace Pursuit

/-- The loop goes on to the end of its attempt, or of its pause. -/
def goOn (conduct : Nat → Conduct ρ) (s : Pursuit ρ) : Pursuit ρ :=
  match s.loop.phase with
  | .attempting =>
    let t := (conduct s.trials.length).attempt s.loop.policy s.now
    ⟨(s.loop.step t.close.signal).1, t.stopped, s.trials ++ [t]⟩
  | .pausing delay => { s with loop := (s.loop.step .pauseOver).1, now := timerEnd s.now delay }
  | .ended _ => s

/-- The result of the whole: the value that the last attempt returned, or an error. -/
def result? (s : Pursuit ρ) : Option (Except Error ρ) :=
  match s.loop.phase, s.trials.getLast?.map Trial.close with
  | .ended .finished, some (.returned v) => some (.ok v)
  | .ended (.failed e), _ => some (.error e)
  | _, _ => none

end Pursuit

variable (policy : BackoffPolicy) (conduct : Nat → Conduct ρ) (start : Nat)

/-- The loop after some attempts and pauses. -/
def pursue : Nat → Pursuit ρ
  | 0 => ⟨.begin policy, start, []⟩
  | n + 1 => (pursue n).goOn conduct

/-- The attempts with their times, as far as it comes to them. -/
def timetable : Nat → Trial ρ
  | 0 => (conduct 0).attempt policy start
  | i + 1 => (conduct (i + 1)).attempt policy (timerEnd (timetable i).stopped (policy.delayFor i))

/-- The loop when it has gone through the first `made` attempts. -/
def standing (made failures : Nat) (phase : Phase) (now : Nat) : Pursuit ρ :=
  ⟨⟨policy, failures, phase⟩, now, (List.range made).map (timetable policy conduct start)⟩

/-- The first `k` attempts are in vain. -/
def VainUntil (k : Nat) : Prop := ∀ i < k, ((conduct i).close policy).InVain

variable {policy conduct start}

/-! ## The timetable -/

theorem timetable_close (i : Nat) :
    (timetable policy conduct start i).close = (conduct i).close policy := by
  cases i <;> exact congrArg Trial.close (Conduct.attempt_eq ..)

theorem timetable_stopped (i : Nat) :
    (timetable policy conduct start i).stopped =
      (timetable policy conduct start i).started + (conduct i).lasts policy := by
  cases i <;> (unfold timetable; rw [Conduct.attempt_eq])

theorem timetable_started_zero : (timetable policy conduct start 0).started = start :=
  congrArg Trial.started (Conduct.attempt_eq ..)

theorem timetable_started_succ (i : Nat) :
    (timetable policy conduct start (i + 1)).started =
      timerEnd (timetable policy conduct start i).stopped (policy.delayFor i) :=
  congrArg Trial.started (Conduct.attempt_eq ..)

/-- An attempt that starts when the timetable says so. -/
theorem attempt_timetable (i : Nat) :
    (conduct i).attempt policy (timetable policy conduct start i).started =
      timetable policy conduct start i := by
  cases i with
  | zero => rw [timetable_started_zero]; rfl
  | succ i => rw [timetable_started_succ]; rfl

/-! ## From one attempt to the next -/

theorem goOn_attempting (k : Nat) :
    (standing policy conduct start k k .attempting
      (timetable policy conduct start k).started).goOn conduct =
        ⟨((⟨policy, k, .attempting⟩ : Retry).step ((conduct k).close policy).signal).1,
          (timetable policy conduct start k).stopped,
          (List.range (k + 1)).map (timetable policy conduct start)⟩ := by
  unfold standing Pursuit.goOn
  dsimp only
  rw [List.length_map, List.length_range, attempt_timetable, timetable_close,
    List.range_succ, List.map_append]
  rfl

theorem goOn_pausing (k : Nat) :
    (standing policy conduct start (k + 1) (k + 1) (.pausing (policy.delayFor k))
      (timetable policy conduct start k).stopped).goOn conduct =
        standing policy conduct start (k + 1) (k + 1) .attempting
          (timetable policy conduct start (k + 1)).started := by
  rw [timetable_started_succ]
  rfl

/-! ## Where the loop stands -/

variable (policy conduct start)

/-- All the places where the loop can stand. -/
inductive Stage : Pursuit ρ → Prop
  | attempting (k : Nat) (hvain : VainUntil policy conduct k) (hfits : k < UInt32.size)
      (hallows : Allows policy k) :
    Stage (standing policy conduct start k k .attempting
      (timetable policy conduct start k).started)
  | pausing (k : Nat) (hvain : VainUntil policy conduct (k + 1)) (hfits : k + 1 < UInt32.size)
      (hallows : Allows policy (k + 1)) :
    Stage (standing policy conduct start (k + 1) (k + 1) (.pausing (policy.delayFor k))
      (timetable policy conduct start k).stopped)
  | returned (k : Nat) (hvain : VainUntil policy conduct k) (v : ρ)
      (hv : (conduct k).close policy = .returned v) :
    Stage (standing policy conduct start (k + 1) k (.ended .finished)
      (timetable policy conduct start k).stopped)
  | exhausted (k : Nat) (hvain : VainUntil policy conduct (k + 1)) (e : Error)
      (hlimit : policy.maxRetries.toNat = k + 1) :
    Stage (standing policy conduct start (k + 1) (k + 1)
      (.ended (.failed (lastError (k + 1) e))) (timetable policy conduct start k).stopped)
  /-- The count of failures does not fit any more. -/
  | broken (k : Nat) (hvain : VainUntil policy conduct (k + 1)) (hfull : k + 1 = UInt32.size) :
    Stage (standing policy conduct start (k + 1) (k + 1) (.ended .subtractOverflow)
      (timetable policy conduct start k).stopped)

variable {policy conduct start} {s : Pursuit ρ}

theorem vainUntil_succ {k : Nat} (h : VainUntil policy conduct k)
    (hk : ((conduct k).close policy).InVain) : VainUntil policy conduct (k + 1) := by
  intro i hi
  rcases Nat.lt_succ_iff_lt_or_eq.mp hi with hlt | rfl
  · exact h i hlt
  · exact hk

theorem stage_goOn (h : Stage policy conduct start s) :
    Stage policy conduct start (s.goOn conduct) := by
  cases h with
  | attempting k hvain hfits hallows =>
    rw [goOn_attempting]
    have hfollows := follows_step policy hfits ((conduct k).close policy)
    generalize hc : (conduct k).close policy = c at hfollows ⊢
    generalize (Retry.step _ _).1 = r at hfollows ⊢
    cases hfollows with
    | returned v => exact .returned k hvain v hc
    | exhausted hk _ hno =>
      refine .exhausted k (vainUntil_succ hvain (hc ▸ hk)) _ ?_
      unfold Allows at hallows hno
      omega
    | broken hk _ hfull => exact .broken k (vainUntil_succ hvain (hc ▸ hk)) hfull
    | again hk hmore hless => exact .pausing k (vainUntil_succ hvain (hc ▸ hk)) hless hmore
  | pausing k hvain hfits hallows =>
    rw [goOn_pausing]
    exact .attempting (k + 1) hvain hfits hallows
  | returned k hvain v hv => exact .returned k hvain v hv
  | exhausted k hvain e hlimit => exact .exhausted k hvain e hlimit
  | broken k hvain hfull => exact .broken k hvain hfull

theorem stage_pursue (n : Nat) : Stage policy conduct start (pursue policy conduct start n) := by
  induction n with
  | zero =>
    have h : Stage policy conduct start (standing policy conduct start 0 0 .attempting
        (timetable policy conduct start 0).started) := by
      refine .attempting 0 (fun i hi => absurd hi (Nat.not_lt_zero i)) (by decide) ?_
      exact Nat.eq_zero_or_pos _
    rw [timetable_started_zero] at h
    exact h
  | succ n ih => exact stage_goOn ih

/-- After `k` attempts in vain and as many pauses the next attempt starts. -/
theorem pursue_attempting (k : Nat) (hvain : VainUntil policy conduct k) (hfits : k < UInt32.size)
    (hallows : Allows policy k) :
    pursue policy conduct start (2 * k) =
      standing policy conduct start k k .attempting (timetable policy conduct start k).started := by
  induction k with
  | zero => rw [timetable_started_zero]; rfl
  | succ k ih =>
    have hless : k < UInt32.size := Nat.lt_of_succ_lt hfits
    have hbefore : Allows policy k := by unfold Allows at hallows ⊢; omega
    have hk := ih (fun i hi => hvain i (Nat.lt_succ_of_lt hi)) hless hbefore
    -- two steps from one attempt to the next: to its end, and to the end of the pause
    show ((pursue policy conduct start (2 * k)).goOn conduct).goOn conduct = _
    rw [hk, goOn_attempting,
      (follows_step policy hless _).eq_again (hvain k (Nat.lt_succ_self k)) hallows hfits]
    exact goOn_pausing k

/-- A loop that has ended stays as it is. -/
theorem pursue_of_ended {n : Nat} {o : Outcome}
    (h : (pursue policy conduct start n).loop.phase = .ended o) {m : Nat} (hm : n ≤ m) :
    pursue policy conduct start m = pursue policy conduct start n := by
  obtain ⟨d, rfl⟩ := Nat.exists_eq_add_of_le hm
  induction d with
  | zero => rfl
  | succ d ih =>
    show (pursue policy conduct start (n + d)).goOn conduct = _
    rw [ih (Nat.le_add_right n d)]
    unfold Pursuit.goOn
    rw [h]

theorem length_standing (made failures now : Nat) (phase : Phase) :
    (standing policy conduct start made failures phase now).trials.length = made := by
  unfold standing
  rw [List.length_map, List.length_range]

theorem result?_returned {k : Nat} {v : ρ} (hv : (conduct k).close policy = .returned v)
    (failures now : Nat) :
    (standing policy conduct start (k + 1) failures (.ended .finished) now).result? =
      some (.ok v) := by
  have hlast : ((List.range (k + 1)).map (timetable policy conduct start)).getLast? =
      some (timetable policy conduct start k) := by
    rw [List.range_succ, List.map_append]
    exact List.getLast?_concat
  unfold standing Pursuit.result?
  rw [hlast, Option.map_some, timetable_close, hv]

theorem result?_failed (made failures now : Nat) (e : Error) :
    (standing policy conduct start made failures (.ended (.failed e)) now).result? =
      some (.error e) := rfl

/-- The attempts that are over are the first of the timetable, and only the last may have
returned. -/
theorem trials_of_stage (h : Stage policy conduct start s) : ∃ made,
    s.trials = (List.range made).map (timetable policy conduct start) ∧
      VainUntil policy conduct (made - 1) := by
  cases h with
  | attempting k hvain => exact ⟨k, rfl, fun i hi => hvain i (by omega)⟩
  | pausing k hvain => exact ⟨k + 1, rfl, fun i hi => hvain i (by omega)⟩
  | returned k hvain => exact ⟨k + 1, rfl, hvain⟩
  | exhausted k hvain => exact ⟨k + 1, rfl, fun i hi => hvain i (by omega)⟩
  | broken k hvain => exact ⟨k + 1, rfl, fun i hi => hvain i (by omega)⟩

theorem trial_eq {n i : Nat} {t : Trial ρ}
    (ht : (pursue policy conduct start n).trials[i]? = some t) :
    t = timetable policy conduct start i := by
  obtain ⟨made, hmade, -⟩ := trials_of_stage (stage_pursue n)
  rw [hmade, List.getElem?_map] at ht
  obtain ⟨j, hj, rfl⟩ := Option.map_eq_some_iff.mp ht
  obtain ⟨_, rfl⟩ := List.getElem?_eq_some_iff.mp hj
  rw [List.getElem_range]

/-- An attempt that another one followed was in vain. -/
theorem inVain_of_followed {n i : Nat} {t : Trial ρ}
    (ht : (pursue policy conduct start n).trials[i + 1]? = some t) :
    ((conduct i).close policy).InVain := by
  obtain ⟨made, hmade, hvain⟩ := trials_of_stage (stage_pursue n)
  rw [hmade, List.getElem?_map] at ht
  obtain ⟨j, hj, -⟩ := Option.map_eq_some_iff.mp ht
  obtain ⟨hlt, -⟩ := List.getElem?_eq_some_iff.mp hj
  rw [List.length_range] at hlt
  exact hvain i (by omega)

/-- Without a limit a loop that has ended has a value, or its count of failures is out of range. -/
theorem ended_of_unlimited (h : Stage policy conduct start s) (hnone : policy.maxRetries.toNat = 0)
    {o : Outcome} (ho : s.loop.phase = .ended o) :
    (o = .finished ∧ ∃ v, s.result? = some (.ok v)) ∨
      s.trials.length = UInt32.size ∧ VainUntil policy conduct UInt32.size := by
  cases h with
  | attempting k => exact absurd ho Phase.noConfusion
  | pausing k => exact absurd ho Phase.noConfusion
  | returned k hvain v hv => exact Or.inl ⟨(Phase.ended.inj ho).symm, v, result?_returned hv ..⟩
  | exhausted k hvain e hlimit => omega
  | broken k hvain hfull => exact Or.inr ⟨(length_standing ..).trans hfull, hfull ▸ hvain⟩

/-- Where the loop stands from the end of its last attempt on. -/
theorem pursue_from {n : Nat} {made failures now : Nat} {o : Outcome}
    (h : pursue policy conduct start n =
      standing policy conduct start made failures (.ended o) now) {m : Nat} (hm : n ≤ m) :
    pursue policy conduct start m = standing policy conduct start made failures (.ended o) now :=
  (pursue_of_ended (o := o) (by rw [h]; rfl) hm).trans h

/-- The first attempt that returns in time ends the loop. -/
theorem pursue_returned {k : Nat} {v : ρ} (hvain : VainUntil policy conduct k)
    (hfits : k < UInt32.size) (hallows : Allows policy k)
    (hv : (conduct k).close policy = .returned v) {m : Nat} (hm : 2 * k + 1 ≤ m) :
    pursue policy conduct start m =
      standing policy conduct start (k + 1) k (.ended .finished)
        (timetable policy conduct start k).stopped := by
  refine pursue_from (n := 2 * k + 1) ?_ hm
  show (pursue policy conduct start (2 * k)).goOn conduct = _
  rw [pursue_attempting k hvain hfits hallows, goOn_attempting, hv,
    (follows_step policy hfits _).eq_returned]
  rfl

variable (start) in
/-- The last attempt of a limited policy ends the loop. -/
theorem pursue_exhausted {k : Nat} (hlimit : policy.maxRetries.toNat = k + 1)
    (hfits : k < UInt32.size) (hvain : VainUntil policy conduct (k + 1)) :
    ∃ e, ((conduct k).close policy).error? policy = some e ∧ ∀ m, 2 * k + 1 ≤ m →
      pursue policy conduct start m =
        standing policy conduct start (k + 1) (k + 1) (.ended (.failed (lastError (k + 1) e)))
          (timetable policy conduct start k).stopped := by
  have hno : ¬Allows policy (k + 1) := by unfold Allows; omega
  have hfollows := follows_step policy hfits ((conduct k).close policy)
  obtain ⟨e, he, hr⟩ := hfollows.eq_exhausted (hvain k (Nat.lt_succ_self k)) hno
  refine ⟨e, he, fun m hm => pursue_from (n := 2 * k + 1) ?_ hm⟩
  show (pursue policy conduct start (2 * k)).goOn conduct = _
  rw [pursue_attempting k (fun i hi => hvain i (Nat.lt_succ_of_lt hi)) hfits (Or.inr (by omega)),
    goOn_attempting, hr]
  rfl

/-- **Attempts are made on schedule.**  A retry loop makes its attempts one after the other: each
after the first starts when the pause after the one before is over, if that was in vain.  The first
attempt that returns in time is the last and decides the result.  If the policy has a limit and so
many attempts are in vain, the last of them decides the result: its own error, or that all is
exhausted if it timed out.  Without a limit the loop never fails, and stops without a result only if
its count of failures has run out of range. -/
theorem pursued_on_schedule (policy : BackoffPolicy) (conduct : Nat → Conduct ρ) (start : Nat) :
    let s := pursue policy conduct start
    let limit := policy.maxRetries.toNat
    (∀ n i t, (s n).trials[i]? = some t →
      t.close = (conduct i).close policy ∧ t.stopped = t.started + (conduct i).lasts policy ∧
      (i = 0 → t.started = start) ∧
      ∀ t', (s n).trials[i + 1]? = some t' →
        t.close.InVain ∧ t'.started = t.stopped + min (policy.delayFor i) horizon) ∧
    (∀ k, VainUntil policy conduct k → k < UInt32.size → (limit = 0 ∨ k < limit) →
      ∃ n, (s n).loop.phase = .attempting ∧ (s n).trials.length = k) ∧
    (∀ k v, VainUntil policy conduct k → k < UInt32.size → (limit = 0 ∨ k < limit) →
      (conduct k).close policy = .returned v →
      ∃ n, ∀ m, n ≤ m → (s m).result? = some (.ok v) ∧ (s m).trials.length = k + 1) ∧
    (∀ k, limit = k + 1 → k < UInt32.size → VainUntil policy conduct (k + 1) →
      ∃ n e, (∀ m, n ≤ m → (s m).result? = some (.error e) ∧ (s m).trials.length = limit) ∧
        (((conduct k).close policy).TimedOut →
          e = .retryExhausted ("task timed out after " ++ toString limit ++ " attempts")) ∧
        (∀ own, (conduct k).close policy = .failed own →
          ¬((conduct k).close policy).TimedOut → e = own)) ∧
    (limit = 0 → ∀ n o, (s n).loop.phase = .ended o →
      (o = .finished ∧ ∃ v, (s n).result? = some (.ok v)) ∨
      (s n).trials.length = UInt32.size ∧ VainUntil policy conduct UInt32.size) := by
  refine ⟨fun n i t ht => ?_, fun k hvain hfits hallows => ?_,
    fun k v hvain hfits hallows hv => ?_, fun k hlimit hfits hvain => ?_, fun hnone n o ho => ?_⟩
  · obtain rfl := trial_eq ht
    refine ⟨timetable_close i, timetable_stopped i, ?_, fun t' ht' => ?_⟩
    · rintro rfl
      exact timetable_started_zero
    · obtain rfl := trial_eq ht'
      rw [timetable_close]
      exact ⟨inVain_of_followed ht', timetable_started_succ i⟩
  · refine ⟨2 * k, ?_⟩
    rw [pursue_attempting k hvain hfits hallows]
    exact ⟨rfl, length_standing ..⟩
  · refine ⟨2 * k + 1, fun m hm => ?_⟩
    rw [pursue_returned hvain hfits hallows hv hm]
    exact ⟨result?_returned hv .., length_standing ..⟩
  · obtain ⟨e, he, hend⟩ := pursue_exhausted start hlimit hfits hvain
    refine ⟨2 * k + 1, lastError (k + 1) e, fun m hm => ?_, ?_⟩
    · rw [hend m hm, hlimit]
      exact ⟨result?_failed .., length_standing ..⟩
    · rw [hlimit]
      exact Close.error_of_last he (k + 1)
  · exact ended_of_unlimited (stage_pursue n) hnone ho

/-- The longest pause that a policy can ask for ends after thirty years. -/
theorem resumes_at_horizon :
    let policy : BackoffPolicy := ⟨3, 50, 18446744073709551615, 18446744073709551615⟩
    let s := pursue policy (fun _ => (.ends 0 (.error (.fatal "conflict on b1")) : Conduct Unit)) 0 3
    ∃ t t', s.trials = [t, t'] ∧ t'.started ≠ t.stopped + policy.delayFor 0 :=
  ⟨⟨0, 0, .failed (.fatal "conflict on b1")⟩,
    ⟨946080000000000000, 946080000000000000, .failed (.fatal "conflict on b1")⟩, by rfl,
    by decide⟩

end InformerHub.Retry
