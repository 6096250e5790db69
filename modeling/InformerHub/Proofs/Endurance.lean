import InformerHub.Config.Settings
import InformerHub.Proofs.Rounds
import InformerHub.Proofs.Schedule

/-!
# Loops without a limit

A policy may set no limit to the number of retries.  The list and watch loop and the retry loop then
go on after every failure, however many there have been in a row, as long as the number of failures
fits into the 32 bits in which it is kept:

> with fewer than 2^32 failures in a row, the next list or attempt follows after the pause of the
> policy; with as many, the loop breaks (`goes_on_until_full`).

So a loop without a limit does end by itself, if it fails often enough.  With a policy that does not
pause either nothing but the source slows it down on its way there (`breaks_without_limit`).

`Course.Lasting` is what every signal keeps of a list and watch loop, and `Course.take_cases` says
what a signal can do to the streak of failed rounds.  Of a retry loop all is known but its break
(`pursue_broken`).
-/

namespace InformerHub

namespace Reflector

variable {α : Type}

/-! ## One more failed round -/

/-- While the count fits, a failed round is followed by a pause. -/
theorem roundFailed_of_lt {r : Reflector} (hnone : r.policy.maxRetries = 0)
    (h : r.failures + 1 < UInt32.size) (record : LogRecord) :
    (roundFailed (α := α) r record).1 = { r with
      failures := r.failures + 1
      phase := .backingOff (r.policy.delayFor r.failures) } := by
  have hfits : r.failures < maxFailures := by
    unfold maxFailures
    omega
  have hallows : r.policy.exceeded (r.failures + 1) = false := by
    simp [BackoffPolicy.exceeded, hnone]
  unfold roundFailed nextRound
  simp [hfits, hallows]

theorem roundFailed_of_full {r : Reflector} (h : r.failures + 1 = UInt32.size)
    (record : LogRecord) :
    (roundFailed (α := α) r record).1 = { r with phase := .ended .addOverflow } := by
  have hfull : ¬r.failures < maxFailures := by
    unfold maxFailures
    omega
  unfold roundFailed
  rw [if_neg hfull]

namespace Course

variable {c : Course}

/-- A signal that the loop waits for, and that ends the round without a recovery. -/
def Fails (c : Course) (sig : Signal α) : Prop :=
  c.reflector.phase.awaits sig = true ∧
    ∃ e, sig.ending? = some e ∧ Round.recovers ⟨e, c.delivered⟩ = false

/-- A failed round is one more of the streak, and the loop counts it. -/
theorem take_of_fails (h : c.Counts) {sig : Signal α} (hf : c.Fails sig) :
    (c.take sig).streak.length = c.streak.length + 1 ∧
      ∃ record, (c.take sig).reflector = (roundFailed (α := α) c.reflector record).1 := by
  obtain ⟨ha, e, he, hrecovers⟩ := hf
  have htake : c.take sig = c.note sig (c.reflector.step sig).1 := if_pos ha
  have hadvance := advance_step ha
  rw [htake]
  constructor
  · rw [(streak_note he hrecovers _).1, List.length_append]
    rfl
  · show ∃ record, (c.reflector.step sig).1 = _
    generalize (c.reflector.step sig).1 = r at hadvance
    cases hadvance with
    | fails record => exact ⟨record, rfl⟩
    | recovers hp =>
      -- a stream that has delivered something and is closed would be a recovery
      have hdelivered := (h.current (not_ended_of_awaits ha)).mpr hp
      obtain rfl := Option.some.inj he
      exact absurd hrecovers (by simp [Round.recovers, hdelivered])
    | stops | resumes | lists | opens | changes | ticks =>
      exact absurd he (by simp [Signal.ending?])

/-- What a signal can do to the streak: nothing happens at all, or the round fails, or the loop goes
on with a streak that is no longer, or it is shut down. -/
theorem take_cases (h : c.Counts) (sig : Signal α) : c.take sig = c ∨ c.Fails sig ∨
    (∀ o, c.reflector.phase ≠ .ended o) ∧ (c.take sig).streak.length ≤ c.streak.length ∧
      ∀ o, (c.take sig).reflector.phase = .ended o → o = .finished := by
  by_cases ha : c.reflector.phase.awaits sig = true
  · have htake : c.take sig = c.note sig (c.reflector.step sig).1 := if_pos ha
    have hadvance := advance_step ha
    refine Or.inr ?_
    rw [htake]
    generalize (c.reflector.step sig).1 = r at hadvance
    have hnot := not_ended_of_awaits ha
    cases hadvance with
    | fails record he _ hidle =>
      exact Or.inl ⟨ha, _, he, not_recovers_of_fails h hnot hidle⟩
    | recovers hp =>
      have hdelivered := (h.current hnot).mpr hp
      refine Or.inr ⟨hnot, ?_, fun o ho => absurd ho (by simp [note])⟩
      have hstreak : (c.note (.streamEnded : Signal α)
          { c.reflector with failures := 0, phase := .listing }).streak = [] :=
        rtakeWhile_of_recovers c.rounds (by simp [Round.recovers, hdelivered])
      rw [hstreak]
      exact Nat.zero_le _
    | stops => exact Or.inr ⟨hnot, Nat.le_refl _, fun o ho => (Phase.ended.inj ho).symm⟩
    | resumes | lists | opens | changes =>
      exact Or.inr ⟨hnot, Nat.le_refl _, fun o ho => absurd ho (by simp [note])⟩
    | ticks => exact Or.inr ⟨hnot, Nat.le_refl _, fun o ho => absurd ho (hnot o)⟩
  · exact Or.inl (if_neg ha)

/-! ## A loop without a limit -/

/-- A loop without a limit counts on while the count fits, and has no way to end but a shutdown, a
fault at its start, or a count that is full. -/
structure Lasting (fault : Option Outcome) (c : Course) : Prop where
  counts : c.Counts
  unlimited : c.reflector.policy.maxRetries = 0
  fits : (∀ o, c.reflector.phase ≠ .ended o) → c.streak.length < UInt32.size
  ended : ∀ o, c.reflector.phase = .ended o → o = .finished ∨ fault = some o ∨
    o = .addOverflow ∧ c.streak.length = UInt32.size

variable {fault : Option Outcome}

/-- A failed round is followed by a pause while the count fits, and breaks the loop if it does not
fit any more. -/
theorem Lasting.fails (h : c.Lasting fault) {sig : Signal α} (hf : c.Fails sig) :
    (c.streak.length + 1 < UInt32.size ∧ (c.take sig).reflector =
        { c.reflector with
          failures := c.streak.length + 1
          phase := .backingOff (c.reflector.policy.delayFor c.streak.length) }) ∨
      c.streak.length + 1 = UInt32.size ∧
        (c.take sig).reflector = { c.reflector with phase := .ended .addOverflow } := by
  have hnot := not_ended_of_awaits hf.1
  have hcount := (h.counts.count hnot).1
  have hfits := h.fits hnot
  obtain ⟨-, record, htake⟩ := take_of_fails h.counts hf
  rw [htake, ← hcount]
  rw [← hcount] at hfits
  rcases Nat.lt_or_eq_of_le (Nat.succ_le_of_lt hfits) with hlt | hfull
  · exact Or.inl ⟨hlt, roundFailed_of_lt h.unlimited hlt record⟩
  · exact Or.inr ⟨hfull, roundFailed_of_full hfull record⟩

theorem lasting_take (h : c.Lasting fault) (sig : Signal α) : (c.take sig).Lasting fault := by
  have hcounts := counts_take h.counts sig
  rcases take_cases h.counts sig with hsame | hf | ⟨hnot, hle, hended⟩
  · rw [hsame]
    exact h
  · obtain ⟨hlength, -⟩ := take_of_fails h.counts hf
    rcases h.fails hf with ⟨hlt, hr⟩ | ⟨hfull, hr⟩
    · refine ⟨hcounts, ?_, fun _ => hlength ▸ hlt, fun o ho => ?_⟩
      · rw [hr]
        exact h.unlimited
      · rw [hr] at ho
        exact absurd ho (by simp)
    · refine ⟨hcounts, ?_, fun hno => absurd (congrArg phase hr) (hno _), fun o ho => ?_⟩
      · rw [hr]
        exact h.unlimited
      · rw [hr] at ho
        exact Or.inr (Or.inr ⟨(Phase.ended.inj ho).symm, hlength.trans hfull⟩)
  · refine ⟨hcounts, ?_, fun _ => Nat.lt_of_le_of_lt hle (h.fits hnot),
      fun o ho => Or.inl (hended o ho)⟩
    unfold take
    split
    next ha => exact (congrArg _ (same_advance (advance_step ha)).2).trans h.unlimited
    next => exact h.unlimited

theorem lasting_begin (resource : String) {policy : BackoffPolicy}
    (hnone : policy.maxRetries = 0) (period : Option Nat) (now : Nat) :
    Lasting (period.bind fun p => periodFault? p now)
      ⟨(Reflector.begin (α := α) resource policy period now).1, [], false⟩ := by
  refine ⟨counts_begin resource policy period now, hnone, fun _ => ?_, fun o ho => ?_⟩
  · show 0 < UInt32.size
    decide
  · refine Or.inr (Or.inl ?_)
    unfold Reflector.begin at ho
    dsimp only at ho
    split at ho
    next fault hfault => rw [hfault, Phase.ended.inj ho]
    next => exact absurd ho (by simp)

theorem lasting_run (resource : String) {policy : BackoffPolicy} (hnone : policy.maxRetries = 0)
    (period : Option Nat) (now : Nat) (signals : List (Signal α)) :
    (run resource policy period now signals).Lasting (period.bind fun p => periodFault? p now) := by
  unfold run
  induction signals using List.reverseRecOn with
  | nil => exact lasting_begin resource hnone period now
  | append_singleton signals sig ih =>
    rw [List.foldl_append]
    exact lasting_take ih sig

/-- What a loop without a limit does with its failures: it counts them, pauses, and lists again, and
it breaks when the count is full. -/
structure Endures (policy : BackoffPolicy) (fault : Option Outcome) (c : Course) : Prop where
  /-- After a failed round comes a pause, and then the next list. -/
  goesOn : ∀ sig : Signal α, c.Fails sig → c.streak.length + 1 < UInt32.size →
    (c.take sig).streak.length = c.streak.length + 1 ∧
      (c.take sig).reflector.phase = .backingOff (policy.delayFor c.streak.length) ∧
        ((c.take sig).take (.backoffOver : Signal α)).reflector.phase = .listing
  breaks : ∀ sig : Signal α, c.Fails sig → c.streak.length + 1 = UInt32.size →
    (c.take sig).reflector.phase = .ended .addOverflow
  fits : (∀ o, c.reflector.phase ≠ .ended o) → c.streak.length < UInt32.size
  ended : ∀ o, c.reflector.phase = .ended o → o = .finished ∨ fault = some o ∨
    o = .addOverflow ∧ c.streak.length = UInt32.size

theorem reflector_take {sig : Signal α} (ha : c.reflector.phase.awaits sig = true) :
    (c.take sig).reflector = (c.reflector.step sig).1 := by
  unfold take
  rw [if_pos ha]
  rfl

theorem Lasting.endures (h : c.Lasting fault) :
    c.Endures (α := α) c.reflector.policy fault := by
  refine ⟨fun sig hf hlt => ?_, fun sig hf hfull => ?_, h.fits, h.ended⟩
  · obtain ⟨hlength, -⟩ := take_of_fails h.counts hf
    rcases h.fails hf with ⟨-, hr⟩ | ⟨hfull, -⟩
    · have hphase := congrArg phase hr
      refine ⟨hlength, hphase, ?_⟩
      rw [reflector_take (by rw [hphase]; rfl), hr]
      rfl
    · omega
  · rcases h.fails hf with ⟨hlt, -⟩ | ⟨-, hr⟩
    · omega
    · exact congrArg phase hr

/-! ## Lists that fail one after the other -/

/-- Lists that fail, and the pauses after them. -/
def listsInVain (e : Error) (k : Nat) : List (Signal α) :=
  (List.replicate k [.listFailed e, .backoffOver]).flatten

theorem listsInVain_succ (e : Error) (k : Nat) :
    listsInVain (α := α) e (k + 1) = listsInVain e k ++ [.listFailed e, .backoffOver] := by
  unfold listsInVain
  rw [List.replicate_succ', List.flatten_append, List.flatten_singleton]

/-- The loop comes to its next list after any number of them that still fits. -/
theorem run_listsInVain (resource : String) {policy : BackoffPolicy}
    (hnone : policy.maxRetries = 0) (now : Nat) (e : Error) {k : Nat} (hk : k < UInt32.size) :
    (run resource policy none now (listsInVain (α := α) e k)).reflector =
      ⟨resource, policy, k, none, .listing⟩ := by
  induction k with
  | zero => rfl
  | succ k ih =>
    have hbefore := ih (Nat.lt_of_succ_lt hk)
    unfold run at hbefore ⊢
    rw [listsInVain_succ, List.foldl_append]
    generalize (listsInVain (α := α) e k).foldl take _ = c at hbefore ⊢
    have hfailed : (c.take (.listFailed e : Signal α)).reflector =
        ⟨resource, policy, k + 1, none, .backingOff (policy.delayFor k)⟩ := by
      rw [reflector_take (by rw [hbefore]; rfl), hbefore]
      exact roundFailed_of_lt hnone hk _
    show ((c.take (.listFailed e : Signal α)).take (.backoffOver : Signal α)).reflector = _
    rw [reflector_take (by rw [hfailed]; rfl), hfailed]
    rfl

/-- When the count is full, the next failure breaks the loop. -/
theorem phase_run_listsInVain (resource : String) {policy : BackoffPolicy}
    (hnone : policy.maxRetries = 0) (now : Nat) (e : Error) {k : Nat} (hk : k + 1 = UInt32.size) :
    (run resource policy none now (listsInVain (α := α) e (k + 1))).reflector.phase =
      .ended .addOverflow := by
  have hbefore := run_listsInVain (α := α) resource hnone now e (k := k) (by omega)
  unfold run at hbefore ⊢
  rw [listsInVain_succ, List.foldl_append]
  generalize (listsInVain (α := α) e k).foldl take _ = c at hbefore ⊢
  have hbroken : (c.take (.listFailed e : Signal α)).reflector.phase = .ended .addOverflow := by
    rw [reflector_take (by rw [hbefore]; rfl), hbefore]
    exact congrArg phase (roundFailed_of_full hk _)
  -- the pause that would have followed is not waited for
  show ((c.take (.listFailed e : Signal α)).take (.backoffOver : Signal α)).reflector.phase = _
  unfold take
  rw [if_neg]
  · exact hbroken
  · rw [show (if c.reflector.phase.awaits (.listFailed e : Signal α) then _ else c) =
      c.take (.listFailed e : Signal α) from rfl, hbroken]
    exact Bool.false_ne_true

end Course

end Reflector

namespace Retry

variable {ρ : Type} {policy : BackoffPolicy} {conduct : Nat → Conduct ρ} {start : Nat}

/-! ## Attempts without a limit -/

theorem Follows.eq_broken {k : Nat} {c : Close ρ} {r : Retry} (h : Follows policy k c r)
    (hvain : c.InVain) (hallows : Allows policy (k + 1)) (hfull : k + 1 = UInt32.size) :
    r = ⟨policy, k + 1, .ended .subtractOverflow⟩ := by
  cases h with
  | returned => exact hvain.elim
  | exhausted _ _ hno => exact absurd hallows hno
  | broken => rfl
  | again _ _ hfits => omega

/-- After an attempt in vain there is a pause, while the count fits. -/
theorem pursue_pausing {k : Nat} (hvain : VainUntil policy conduct (k + 1))
    (hfits : k + 1 < UInt32.size) (hallows : Allows policy (k + 1)) :
    pursue policy conduct start (2 * k + 1) =
      standing policy conduct start (k + 1) (k + 1) (.pausing (policy.delayFor k))
        (timetable policy conduct start k).stopped := by
  have hless : k < UInt32.size := Nat.lt_of_succ_lt hfits
  have hbefore : Allows policy k := by
    unfold Allows at hallows ⊢
    omega
  show (pursue policy conduct start (2 * k)).goOn conduct = _
  rw [pursue_attempting k (fun i hi => hvain i (Nat.lt_succ_of_lt hi)) hless hbefore,
    goOn_attempting,
    (follows_step policy hless _).eq_again (hvain k (Nat.lt_succ_self k)) hallows hfits]
  rfl

/-- The attempt with which the count is full breaks the loop. -/
theorem pursue_broken {k : Nat} (hvain : VainUntil policy conduct (k + 1))
    (hfull : k + 1 = UInt32.size) (hallows : Allows policy (k + 1)) {m : Nat}
    (hm : 2 * k + 1 ≤ m) :
    pursue policy conduct start m =
      standing policy conduct start (k + 1) (k + 1) (.ended .subtractOverflow)
        (timetable policy conduct start k).stopped := by
  have hless : k < UInt32.size := by omega
  have hbefore : Allows policy k := by
    unfold Allows at hallows ⊢
    omega
  refine pursue_from (n := 2 * k + 1) ?_ hm
  show (pursue policy conduct start (2 * k)).goOn conduct = _
  rw [pursue_attempting k (fun i hi => hvain i (Nat.lt_succ_of_lt hi)) hless hbefore,
    goOn_attempting,
    (follows_step policy hless _).eq_broken (hvain k (Nat.lt_succ_self k)) hallows hfull]
  rfl

end Retry

open Reflector Retry

variable {α ρ : Type}

/-- **A loop without a limit goes on until its count of failures is full.**  Take any policy that
sets no limit to the retries.

* Whatever signals a list and watch loop has heard, every failed round is followed by the pause of
  the policy and the next list, as long as fewer than 2^32 rounds have failed in a row.  The round
  that makes them 2^32 breaks the loop.  It ends in no other way but by a shutdown, or at once by a
  fault in the period of its resyncs.
* Whatever the attempts of a retry loop do, every one in vain is followed by the pause of the policy
  and the next attempt, as long as fewer than 2^32 have been in vain.  The one that makes them 2^32
  breaks the loop. -/
theorem goes_on_until_full (timeoutMs baseDelayMs maxDelayMs : UInt64) :
    let policy : BackoffPolicy := ⟨0, timeoutMs, baseDelayMs, maxDelayMs⟩
    (∀ (resource : String) (period : Option Nat) (now : Nat) (signals : List (Signal α)),
      (Course.run resource policy period now signals).Endures (α := α) policy
        (period.bind fun p => periodFault? p now)) ∧
    ∀ (conduct : Nat → Conduct ρ) (start : Nat),
      let s := pursue policy conduct start
      (∀ k, VainUntil policy conduct k → k < UInt32.size →
        (s (2 * k)).loop.phase = .attempting ∧ (s (2 * k)).trials.length = k) ∧
      (∀ k, VainUntil policy conduct (k + 1) → k + 1 < UInt32.size →
        (s (2 * k + 1)).loop.phase = .pausing (policy.delayFor k)) ∧
      ∀ k, VainUntil policy conduct (k + 1) → k + 1 = UInt32.size → ∀ n, 2 * k + 1 ≤ n →
        (s n).loop.phase = .ended .subtractOverflow ∧ (s n).trials.length = k + 1 := by
  intro policy
  have hallows : ∀ k, Allows policy k := fun k => Or.inl rfl
  refine ⟨fun resource period now signals => ?_, fun conduct start => ⟨fun k hvain hk => ?_,
    fun k hvain hk => ?_, fun k hvain hk n hn => ?_⟩⟩
  · have hnone : policy.maxRetries = 0 := rfl
    have h := Course.lasting_run (α := α) resource hnone period now signals
    have hpolicy := (Course.same_run resource policy period now signals).2
    have hendures := h.endures (α := α)
    rwa [hpolicy] at hendures
  · show (pursue policy conduct start (2 * k)).loop.phase = _ ∧ _
    rw [pursue_attempting k hvain hk (hallows k)]
    exact ⟨rfl, length_standing ..⟩
  · show (pursue policy conduct start (2 * k + 1)).loop.phase = _
    rw [pursue_pausing hvain hk (hallows _)]
    rfl
  · show (pursue policy conduct start n).loop.phase = _ ∧ _
    rw [pursue_broken hvain hk (hallows _) hn]
    exact ⟨rfl, length_standing ..⟩

/-- A policy that is accepted and sets neither a limit nor a pause: with lists or attempts that fail
one after the other both loops end by themselves. -/
theorem breaks_without_limit :
    let policy : BackoffPolicy := ⟨0, 1000, 0, 0⟩
    let refused := Error.external "refused"
    policy.validate "retry.relist" = .ok () ∧
      (Course.run "pods" policy none 0
        (Course.listsInVain (α := Nat) refused UInt32.size)).reflector.phase =
          .ended .addOverflow ∧
      (pursue policy (fun _ => (.ends 0 (.error refused) : Conduct Nat)) 0
        (2 * UInt32.size)).loop.phase = .ended .subtractOverflow := by
  intro policy refused
  -- the number of rounds is too large to be evaluated
  obtain ⟨k, hk⟩ : ∃ k, UInt32.size = k + 1 := ⟨maxFailures, rfl⟩
  refine ⟨by decide, ?_, ?_⟩
  · rw [hk]
    exact Course.phase_run_listsInVain "pods" rfl 0 refused hk.symm
  · have hvain : VainUntil policy (fun _ => (.ends 0 (.error refused) : Conduct Nat)) (k + 1) :=
      fun _ _ => trivial
    rw [pursue_broken hvain hk.symm (Or.inl rfl) (by omega)]
    rfl

end InformerHub
