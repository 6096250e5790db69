import Mathlib.Data.List.DropRight
import Mathlib.Data.List.Induction
import InformerHub.Proofs.Reflector

/-!
# Rounds of the list and watch loop

A round is over when its list fails, its watch is not opened, or its stream is lost.  `Course` is a
loop together with the rounds that are over, each with how it ended and whether a change was taken
in it.  The loop waits longer after each failed round, and with a limit gives up:

> the loop counts the rounds since the last one whose stream was closed after it had delivered
> something; it pauses for as long as this count says, and gives up when the count is one more than
> the limit (`counts_run`, `gives_up_after_streak`).

A round whose stream fails does not clear the count, whatever it has delivered (`Round.relapses`).
So a loop may give up although every single round was productive
(`gives_up_after_productive_rounds`).

`Advance` lists all that a signal can do to the loop; `advance_step` is where the loop is opened.
-/

namespace InformerHub.Reflector

variable {α : Type}

/-! ## What a signal does -/

/-- How a round ends. -/
inductive Ending where
  | listFailed
  | listTimedOut
  | watchFailed
  | streamFailed
  | streamEnded
  deriving DecidableEq, Repr

/-- The end that a signal brings to a round, if it brings one. -/
def Signal.ending? : Signal α → Option Ending
  | .listFailed _ => some .listFailed
  | .listTimedOut => some .listTimedOut
  | .openFailed _ => some .watchFailed
  | .streamFailed _ => some .streamFailed
  | .streamEnded => some .streamEnded
  | _ => none

/-- All that a signal can do to a loop that waits for it. -/
inductive Advance (r : Reflector) : Signal α → Reflector → Prop
  | stops : Advance r .shutdown { r with phase := .ended .finished }
  | resumes {delay : Nat} (h : r.phase = .backingOff delay) :
    Advance r .backoffOver { r with phase := .listing }
  | lists (items : List α) (version : String) (h : r.phase = .listing) :
    Advance r (.listed items version) { r with phase := .opening version }
  | opens {version : String} (h : r.phase = .opening version) :
    Advance r .opened { r with phase := .watching false }
  | changes (c : Change α) {received : Bool} (h : r.phase = .watching received) :
    Advance r (.changed c) { r with phase := .watching true }
  | ticks (now : Nat) {received : Bool} (h : r.phase = .watching received) :
    Advance r (.resyncDue now) { r with resync := r.resync.map fun t => t.take now }
  /-- The round is over and has failed. -/
  | fails {sig : Signal α} {e : Ending} (record : LogRecord) (he : sig.ending? = some e)
    (h : r.phase.awaits sig = true) (hidle : e = .streamEnded → r.phase = .watching false) :
    Advance r sig (roundFailed (α := α) r record).1
  | recovers (h : r.phase = .watching true) :
    Advance r .streamEnded { r with failures := 0, phase := .listing }

/-- A step does one of the things that are listed. -/
theorem advance_step {r : Reflector} {sig : Signal α} (h : r.phase.awaits sig = true) :
    Advance r sig (r.step sig).1 := by
  have fails : ∀ {e : Ending} (record : LogRecord), sig.ending? = some e →
      (e = .streamEnded → r.phase = .watching false) →
      Advance r sig (roundFailed (α := α) r record).1 :=
    fun record he hidle => .fails record he h hidle
  unfold step
  split
  next hp =>
    rw [hp] at h
    exact absurd h (by simp [Phase.awaits])
  next => exact .stops
  next hp => exact .resumes hp
  next hp => exact .lists _ _ hp
  next => exact fails _ rfl (by simp)
  next => exact fails _ rfl (by simp)
  next hp => exact .opens hp
  next => exact fails _ rfl (by simp)
  next hp => exact .changes _ hp
  next => exact fails _ rfl (by simp)
  next received hp =>
    cases received with
    | true => exact .recovers hp
    | false => exact fails _ rfl fun _ => hp
  next hp => exact .ticks _ hp
  next hother =>
    simp_all [Phase.awaits]

/-- What comes after a failed round: a pause, or the end if there were too many, or a count that does
not fit any more. -/
theorem roundFailed_cases (r : Reflector) (record : LogRecord) :
    let r' := (roundFailed (α := α) r record).1
    r' = { r with phase := .ended .addOverflow } ∨
      r.policy.exceeded (r.failures + 1) = true ∧ r' = { r with
        failures := r.failures + 1
        phase := .ended (.failed (.informerGaveUp r.resource (r.failures + 1))) } ∨
      r.policy.exceeded (r.failures + 1) = false ∧ r' = { r with
        failures := r.failures + 1
        phase := .backingOff (r.policy.delayFor r.failures) } := by
  unfold roundFailed nextRound
  dsimp only
  split
  next =>
    rw [if_neg (Nat.succ_ne_zero _)]
    split
    next h => exact Or.inr (Or.inl ⟨h, rfl⟩)
    next h => exact Or.inr (Or.inr ⟨Bool.eq_false_iff.mpr h, rfl⟩)
  next => exact Or.inl rfl

/-- A loop keeps its name and its policy. -/
theorem same_advance {r r' : Reflector} {sig : Signal α} (h : Advance r sig r') :
    r'.resource = r.resource ∧ r'.policy = r.policy := by
  cases h with
  | fails record =>
    rcases roundFailed_cases (α := α) r record with hr | ⟨-, hr⟩ | ⟨-, hr⟩ <;> rw [hr] <;>
      exact ⟨rfl, rfl⟩
  | _ => exact ⟨rfl, rfl⟩

/-- A loop begins with a list, or it ends at once by a panic. -/
theorem phase_begin (resource : String) (policy : BackoffPolicy) (period : Option Nat)
    (now : Nat) :
    (Reflector.begin (α := α) resource policy period now).1.phase = .listing ∨
      ∃ text, (Reflector.begin (α := α) resource policy period now).1.phase =
        .ended (.panicked text) := by
  unfold Reflector.begin
  dsimp only
  split
  next fault hfault =>
    refine Or.inr ?_
    obtain ⟨p, -, hp⟩ := Option.bind_eq_some_iff.mp hfault
    unfold periodFault? at hp
    split at hp
    next => exact ⟨_, congrArg _ (Option.some.inj hp).symm⟩
    next =>
      split at hp
      next => exact ⟨_, congrArg _ (Option.some.inj hp).symm⟩
      next => exact absurd hp (by simp)
  next => exact Or.inl rfl

/-! ## Rounds that are over -/

/-- A round that is over, and whether a change was taken in it. -/
structure Round where
  ending : Ending
  delivered : Bool
  deriving DecidableEq, Repr

namespace Round

/-- The stream was closed after it had delivered something. -/
def recovers (round : Round) : Bool := round.delivered && round.ending == .streamEnded

/-- The stream failed after it had delivered something. -/
def relapses (round : Round) : Bool := round.delivered && round.ending == .streamFailed

end Round

/-- A loop and the rounds that are over. -/
structure Course where
  reflector : Reflector
  rounds : List Round
  /-- Whether a change was taken in the present round. -/
  delivered : Bool

namespace Course

/-- The course once its loop has taken a signal and has come to `r`. -/
def note (c : Course) (sig : Signal α) (r : Reflector) : Course where
  reflector := r
  rounds := match sig.ending? with
    | some e => c.rounds ++ [⟨e, c.delivered⟩]
    | none => c.rounds
  delivered := match sig with
    | .changed _ => true
    | _ => sig.ending?.isNone && c.delivered

/-- The course after a signal.  The loop takes those that it waits for. -/
def take (c : Course) (sig : Signal α) : Course :=
  if c.reflector.phase.awaits sig then c.note sig (c.reflector.step sig).1 else c

/-- A loop that has been run and has heard some signals. -/
def run (resource : String) (policy : BackoffPolicy) (period : Option Nat) (now : Nat)
    (signals : List (Signal α)) : Course :=
  signals.foldl take ⟨(Reflector.begin (α := α) resource policy period now).1, [], false⟩

/-- The rounds since the last one that the loop has recovered with. -/
def streak (c : Course) : List Round := c.rounds.rtakeWhile fun round => !round.recovers

def limit (c : Course) : Nat := c.reflector.policy.maxRetries.toNat

/-- The failures are those since the last recovery, and their number says what comes next. -/
structure Counts (c : Course) : Prop where
  productive : ∀ round ∈ c.rounds, round.delivered = true →
    round.recovers = true ∨ round.relapses = true
  current : (∀ o, c.reflector.phase ≠ .ended o) →
    (c.delivered = true ↔ c.reflector.phase = .watching true)
  count : (∀ o, c.reflector.phase ≠ .ended o) → c.reflector.failures = c.streak.length ∧
    c.reflector.policy.exceeded c.streak.length = false
  pause : ∀ d, c.reflector.phase = .backingOff d →
    c.streak ≠ [] ∧ d = c.reflector.policy.delayFor (c.streak.length - 1)
  gaveUp : ∀ text, c.reflector.phase = .ended (.failed (.retryExhausted text)) →
    0 < c.limit ∧ c.streak.length = c.limit + 1 ∧
      .retryExhausted text = Error.informerGaveUp c.reflector.resource (c.limit + 1)

variable {c : Course}

/-- A loop that waits for anything is not at its end. -/
theorem not_ended_of_awaits {r : Reflector} {sig : Signal α} (h : r.phase.awaits sig = true) :
    ∀ o, r.phase ≠ .ended o := by
  intro o ho
  rw [ho] at h
  exact absurd h (by simp [Phase.awaits])

/-- A round that is productive is so to its end, which is that of a stream. -/
theorem productive_note (h : c.Counts) {sig : Signal α} (ha : c.reflector.phase.awaits sig = true)
    (r : Reflector) : ∀ round ∈ (c.note sig r).rounds, round.delivered = true →
      round.recovers = true ∨ round.relapses = true := by
  intro round hmem hdelivered
  unfold note at hmem
  dsimp only at hmem
  split at hmem
  next e he =>
    rcases List.mem_append.mp hmem with hmem | hmem
    · exact h.productive round hmem hdelivered
    · obtain rfl := List.mem_singleton.mp hmem
      have hdelivered : c.delivered = true := hdelivered
      rw [(h.current (not_ended_of_awaits ha)).mp hdelivered] at ha
      unfold Round.recovers Round.relapses
      cases sig with
      | streamEnded => exact Or.inl (by simpa [hdelivered, Signal.ending?] using he.symm)
      | streamFailed => exact Or.inr (by simpa [hdelivered, Signal.ending?] using he.symm)
      | _ => simp [Phase.awaits, Signal.ending?] at ha he
  next => exact h.productive round hmem hdelivered

theorem rtakeWhile_of_recovers (rounds : List Round) {round : Round}
    (h : round.recovers = true) :
    List.rtakeWhile (fun round => !round.recovers) (rounds ++ [round]) = [] :=
  List.rtakeWhile_concat_neg _ _ _ (by simp [h])

theorem rtakeWhile_of_not_recovers (rounds : List Round) {round : Round}
    (h : round.recovers = false) :
    List.rtakeWhile (fun round => !round.recovers) (rounds ++ [round]) =
      List.rtakeWhile (fun round => !round.recovers) rounds ++ [round] :=
  List.rtakeWhile_concat_pos _ _ _ (by simp [h])

/-- The first number of failures that is too large is one more than the limit. -/
theorem eq_limit_of_exceeded {policy : BackoffPolicy} {n : Nat}
    (hbefore : policy.exceeded n = false) (h : policy.exceeded (n + 1) = true) :
    0 < policy.maxRetries.toNat ∧ n + 1 = policy.maxRetries.toNat + 1 := by
  unfold BackoffPolicy.exceeded at hbefore h
  rw [decide_eq_false_iff_not] at hbefore
  rw [decide_eq_true_eq] at h
  omega

/-- A stream that is closed without having delivered anything is no recovery, and nothing else but a
closed stream is one. -/
theorem not_recovers_of_fails (h : c.Counts) (hnot : ∀ o, c.reflector.phase ≠ .ended o) {e : Ending}
    (hidle : e = .streamEnded → c.reflector.phase = .watching false) :
    Round.recovers ⟨e, c.delivered⟩ = false := by
  unfold Round.recovers
  by_cases hend : e = .streamEnded
  · have hdelivered : c.delivered = false := by
      rw [Bool.eq_false_iff, Ne, h.current hnot, hidle hend]
      simp
    rw [hdelivered, Bool.false_and]
  · rw [beq_eq_false_iff_ne.mpr hend, Bool.and_false]

/-- A round that is no recovery is one more of the streak, and the next one begins. -/
theorem streak_note {sig : Signal α} {e : Ending} (he : sig.ending? = some e)
    (hrecovers : Round.recovers ⟨e, c.delivered⟩ = false) (r : Reflector) :
    (c.note sig r).streak = c.streak ++ [⟨e, c.delivered⟩] ∧ (c.note sig r).delivered = false := by
  unfold streak note
  rw [he]
  refine ⟨rtakeWhile_of_not_recovers c.rounds hrecovers, ?_⟩
  cases sig <;> first | rfl | exact absurd he (by simp [Signal.ending?])

/-- At its end a loop counts no more.  All that is left to say is whether it gave up. -/
theorem counts_of_ended {o : Outcome} (hp : c.reflector.phase = .ended o)
    (hproductive : ∀ round ∈ c.rounds, round.delivered = true →
      round.recovers = true ∨ round.relapses = true)
    (hgaveUp : ∀ text, o = .failed (.retryExhausted text) →
      0 < c.limit ∧ c.streak.length = c.limit + 1 ∧
        .retryExhausted text = Error.informerGaveUp c.reflector.resource (c.limit + 1)) :
    c.Counts where
  productive := hproductive
  current ho := absurd hp (ho o)
  count ho := absurd hp (ho o)
  pause d hd := absurd (hp.symm.trans hd) (by simp)
  gaveUp text ht := hgaveUp text (Phase.ended.inj (hp.symm.trans ht))

/-- After a round that fails the loop counts one more. -/
theorem counts_fails (h : c.Counts) {sig : Signal α} {e : Ending} (record : LogRecord)
    (he : sig.ending? = some e) (ha : c.reflector.phase.awaits sig = true)
    (hidle : e = .streamEnded → c.reflector.phase = .watching false) :
    (c.note sig (roundFailed (α := α) c.reflector record).1).Counts := by
  have hnot := not_ended_of_awaits ha
  obtain ⟨hcount, hwithin⟩ := h.count hnot
  obtain ⟨hstreak, hdelivered⟩ := streak_note he (not_recovers_of_fails h hnot hidle)
    (roundFailed (α := α) c.reflector record).1
  have hlength : (c.note sig (roundFailed (α := α) c.reflector record).1).streak.length =
      c.reflector.failures + 1 := by
    rw [hstreak, List.length_append, hcount]
    rfl
  rw [← hcount] at hwithin
  have hcases := roundFailed_cases (α := α) c.reflector record
  generalize hr : (roundFailed (α := α) c.reflector record).1 = r at hcases hlength hdelivered ⊢
  have hproductive := productive_note h ha r
  rcases hcases with rfl | ⟨hmany, rfl⟩ | ⟨hfew, rfl⟩
  · exact counts_of_ended rfl hproductive fun text ht => absurd ht (by simp [Outcome.addOverflow])
  · obtain ⟨hlimit, hn⟩ := eq_limit_of_exceeded hwithin hmany
    refine counts_of_ended rfl hproductive fun text ht => ⟨hlimit, hlength.trans hn, ?_⟩
    rw [← Outcome.failed.inj ht, hn]
    rfl
  · refine ⟨hproductive, fun _ => ?_, fun _ => ⟨hlength.symm, hlength ▸ hfew⟩, fun d hd => ?_,
      fun t ht => ?_⟩
    · rw [hdelivered]
      simp [note]
    · refine ⟨List.ne_nil_of_length_eq_add_one hlength, ?_⟩
      rw [hlength]
      exact (Phase.backingOff.inj hd).symm
    · exact absurd ht (by simp [note])

/-- Within a round, and between a pause and the next list, the streak is the same. -/
theorem Counts.goes_on (h : c.Counts) (hnot : ∀ o, c.reflector.phase ≠ .ended o) {c' : Course}
    (hrounds : c'.rounds = c.rounds) (hfailures : c'.reflector.failures = c.reflector.failures)
    (hpolicy : c'.reflector.policy = c.reflector.policy)
    (hphase : ∀ o d, c'.reflector.phase ≠ .ended o ∧ c'.reflector.phase ≠ .backingOff d)
    (hcurrent : c'.delivered = true ↔ c'.reflector.phase = .watching true) : c'.Counts where
  productive := hrounds ▸ h.productive
  current _ := hcurrent
  count _ := by
    unfold streak
    rw [hrounds, hfailures, hpolicy]
    exact h.count hnot
  pause d hd := absurd hd (hphase .finished d).2
  gaveUp text ht := absurd ht (hphase _ 0).1

theorem counts_take (h : c.Counts) (sig : Signal α) : (c.take sig).Counts := by
  unfold take
  split
  next ha =>
    have hadvance := advance_step ha
    have hproductive := productive_note h ha (c.reflector.step sig).1
    generalize (c.reflector.step sig).1 = r at hadvance hproductive ⊢
    cases hadvance with
    | stops => exact counts_of_ended rfl h.productive fun text ht => absurd ht (by simp)
    | fails record he ha hidle => exact counts_fails h record he ha hidle
    | recovers hp =>
      have hdelivered := (h.current (by simp [hp])).mpr hp
      have hstreak : (c.note (.streamEnded : Signal α)
          { c.reflector with failures := 0, phase := .listing }).streak = [] :=
        rtakeWhile_of_recovers c.rounds (by simp [Round.recovers, hdelivered])
      refine ⟨hproductive, fun _ => by simp [note, Signal.ending?], fun _ => ?_, fun d hd => ?_,
        fun t ht => ?_⟩
      · rw [hstreak]
        exact ⟨rfl, by simp [BackoffPolicy.exceeded]⟩
      · exact absurd hd (by simp [note])
      · exact absurd ht (by simp [note])
    | resumes hp | lists _ _ hp | opens hp =>
      have hidle : c.delivered = false := by
        rw [Bool.eq_false_iff, Ne, h.current (by simp [hp]), hp]
        simp
      exact h.goes_on (by simp [hp]) rfl rfl rfl (by simp [note]) (by simp [note, hidle])
    | changes _ hp =>
      exact h.goes_on (by simp [hp]) rfl rfl rfl (by simp [note]) (by simp [note])
    | ticks _ hp =>
      have hcurrent := h.current (by simp [hp])
      exact h.goes_on (by simp [hp]) rfl rfl rfl (by simp [note, hp])
        (by simpa [note, Signal.ending?] using hcurrent)
  next => exact h

theorem counts_begin (resource : String) (policy : BackoffPolicy) (period : Option Nat)
    (now : Nat) :
    Counts ⟨(Reflector.begin (α := α) resource policy period now).1, [], false⟩ := by
  have hphase := phase_begin (α := α) resource policy period now
  generalize hr : (Reflector.begin (α := α) resource policy period now).1 = r at hphase ⊢
  have hfailures : r.failures = 0 := by
    rw [← hr]
    rfl
  refine ⟨fun _ hround => absurd hround List.not_mem_nil, fun _ => ?_, fun _ => ⟨hfailures, ?_⟩,
    fun d hd => ?_, fun text ht => ?_⟩
  · rcases hphase with hp | ⟨text, hp⟩ <;> simp [hp]
  · simp [streak, BackoffPolicy.exceeded]
  · rcases hphase with hp | ⟨text, hp⟩ <;> simp [hp] at hd
  · rcases hphase with hp | ⟨text, hp⟩ <;> simp [hp] at ht

theorem counts_run (resource : String) (policy : BackoffPolicy) (period : Option Nat) (now : Nat)
    (signals : List (Signal α)) : (run resource policy period now signals).Counts := by
  unfold run
  induction signals using List.reverseRecOn with
  | nil => exact counts_begin resource policy period now
  | append_singleton signals sig ih =>
    rw [List.foldl_append]
    exact counts_take ih sig

/-- A loop keeps its name and its policy. -/
theorem same_run (resource : String) (policy : BackoffPolicy) (period : Option Nat) (now : Nat)
    (signals : List (Signal α)) :
    (run resource policy period now signals).reflector.resource = resource ∧
      (run resource policy period now signals).reflector.policy = policy := by
  unfold run
  induction signals using List.reverseRecOn with
  | nil => exact ⟨rfl, rfl⟩
  | append_singleton signals sig ih =>
    rw [List.foldl_append]
    show (take _ sig).reflector.resource = _ ∧ (take _ sig).reflector.policy = _
    unfold take
    split
    next ha =>
      obtain ⟨hresource, hpolicy⟩ := same_advance (advance_step ha)
      exact ⟨hresource.trans ih.1, hpolicy.trans ih.2⟩
    next => exact ih

/-- What a round of the streak has delivered, it has lost with a stream that failed. -/
theorem relapses_of_mem_streak (h : c.Counts) {round : Round} (hround : round ∈ c.streak)
    (hdelivered : round.delivered = true) : round.relapses = true := by
  have hmem := (List.rtakeWhile_suffix _ _).subset hround
  refine (h.productive round hmem hdelivered).resolve_left fun hrecovers => ?_
  have hnot := List.mem_rtakeWhile_imp hround
  simp [hrecovers] at hnot

/-- The streak begins anew after a recovery. -/
theorem streak_after_recovery {before : List Round} {round next : Round}
    (hr : c.rounds = before ++ [round, next]) (hround : round.recovers = true)
    (hne : c.streak ≠ []) : c.streak = [next] := by
  unfold streak at hne ⊢
  rw [hr, List.append_cons] at hne ⊢
  cases hnext : next.recovers with
  | true => exact absurd (rtakeWhile_of_recovers _ hnext) hne
  | false =>
    rw [rtakeWhile_of_not_recovers _ hnext, rtakeWhile_of_recovers before hround, List.nil_append]

/-- **The loop gives up after too many rounds without a recovery.**  Take any policy, and whatever
signals come.

* If the loop gives up, there is a limit, and the rounds that it gives up after are one more than
  the limit.  None of them has delivered anything, but for those whose stream then failed.
* If every round delivers something, and none has its stream fail after that, it never gives up.
* After a round that delivers and does not have its stream fail, there is no pause.  After the next
  one, if it fails, the pause is the first one of the policy. -/
theorem gives_up_after_streak (resource : String) (policy : BackoffPolicy) (period : Option Nat)
    (now : Nat) (signals : List (Signal α)) :
    let c := run resource policy period now signals
    let limit := policy.maxRetries.toNat
    (∀ text, c.reflector.phase = .ended (.failed (.retryExhausted text)) →
      0 < limit ∧ .retryExhausted text = Error.informerGaveUp resource (limit + 1) ∧
        ∃ before last, c.rounds = before ++ last ∧ last.length = limit + 1 ∧
          ∀ round ∈ last, round.delivered = true → round.relapses = true) ∧
    ((∀ round ∈ c.rounds, round.delivered = true ∧ round.relapses = false) →
      ∀ text, c.reflector.phase ≠ .ended (.failed (.retryExhausted text))) ∧
    (∀ before round, c.rounds = before ++ [round] →
      round.delivered = true → round.relapses = false →
        ∀ d, c.reflector.phase ≠ .backingOff d) ∧
    ∀ before round next, c.rounds = before ++ [round, next] →
      round.delivered = true → round.relapses = false →
        ∀ d, c.reflector.phase = .backingOff d → d = policy.delayFor 0 := by
  intro c limit
  have h : c.Counts := counts_run resource policy period now signals
  obtain ⟨hresource, hpolicy⟩ := same_run resource policy period now signals
  have hlimit : c.limit = limit := congrArg (fun p => p.maxRetries.toNat) hpolicy
  have hrecovers : ∀ round ∈ c.rounds, round.delivered = true → round.relapses = false →
      round.recovers = true := by
    intro round hmem hdelivered hnot
    exact (h.productive round hmem hdelivered).resolve_right (by simp [hnot])
  refine ⟨fun text ht => ?_, fun hall text ht => ?_, fun before round hr hd hn d hp => ?_,
    fun before round next hr hd hn d hp => ?_⟩
  · obtain ⟨hpos, hlength, htext⟩ := h.gaveUp text ht
    rw [hlimit] at hpos hlength htext
    rw [show c.reflector.resource = resource from hresource] at htext
    exact ⟨hpos, htext, _, _, (List.rdropWhile_append_rtakeWhile ..).symm, hlength,
      fun round hround => relapses_of_mem_streak h hround⟩
  · -- all rounds recover, so there is no streak
    obtain ⟨-, hlength, -⟩ := h.gaveUp text ht
    obtain ⟨round, hround⟩ : ∃ round, round ∈ c.streak :=
      List.exists_mem_of_length_pos (by omega)
    have hmem := (List.rtakeWhile_suffix _ _).subset hround
    obtain ⟨hdelivered, hnot⟩ := hall round hmem
    rw [relapses_of_mem_streak h hround hdelivered] at hnot
    exact absurd hnot (by simp)
  · have hmem : round ∈ c.rounds := hr ▸ List.mem_append_right _ (List.mem_singleton_self _)
    refine absurd ?_ (h.pause d hp).1
    unfold streak
    rw [hr]
    exact rtakeWhile_of_recovers before (hrecovers round hmem hd hn)
  · have hmem : round ∈ c.rounds := hr ▸ List.mem_append_right _ List.mem_cons_self
    have hround := hrecovers round hmem hd hn
    obtain ⟨hne, hpause⟩ := h.pause d hp
    have hstreak := streak_after_recovery hr hround hne
    rw [hpause, hstreak, show c.reflector.policy = policy from hpolicy]
    rfl

/-- A policy that allows one retry, at once. -/
def onceMore : BackoffPolicy := ⟨1, 1000, 0, 0⟩

/-- A round whose stream delivers a change, and then fails. -/
def productiveRound (version : String) (n : Nat) : List (Signal Nat) :=
  [.listed [0] version, .opened, .changed (.modified n), .streamFailed (.external "reset")]

/-- Two rounds, and each of them has delivered something: the loop gives up. -/
theorem gives_up_after_productive_rounds :
    let c := run "pods" onceMore none 0
      (productiveRound "1" 1 ++ .backoffOver :: productiveRound "2" 2)
    c.reflector.phase = .ended (.failed (.informerGaveUp "pods" 2)) ∧
      c.rounds = [⟨.streamFailed, true⟩, ⟨.streamFailed, true⟩] := by
  decide +kernel

end Course

end InformerHub.Reflector
