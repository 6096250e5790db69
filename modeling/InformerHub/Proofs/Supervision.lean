import Mathlib.Data.List.Chain
import InformerHub.Barrier

/-!
# What a run of a barrier shows and reports

A run of a barrier shows states to everybody and calls a hook.  `Supervision` is such a run together
with all that may happen around it: time passes, the shutdown comes, and the loop takes turns, in
which the informers have answered or not and the hook has returned or not.  Whatever the run shows
or calls is marked with its time.

> The marks are those of whole heartbeats, one after the other, and of one heartbeat that is under
> way or was cut short (`marks_run`).

A whole heartbeat shows that it waits, and until when, then its outcome; and it calls the hook
unless it was ready and so was the one before it (`Beat.marks`).  The flag that the loop keeps is
`readyAfter` of the heartbeats so far.

`Turn` lists all that a turn can do; `turn_cases` is where the loop is opened, and no later proof
looks into it.  The invariant is `Chronicle`: what marks the present heartbeat has left depends on
where the loop stands (`Stage`).
-/

namespace InformerHub

namespace Heartbeat

variable {h : Heartbeat} {now : Nat} {shutDown returned : Bool} {answers : Option (List String)}

theorem due?_ticking (hp : h.phase = .ticking) : h.due? now shutDown answers returned =
    if shutDown then some .shutdown else if h.ticker.due ≤ now then some (.tick now) else none := by
  simp only [due?, hp]

theorem due?_waiting {d : Nat} (hp : h.phase = .waiting d) :
    h.due? now shutDown answers returned =
      answers.map fun pending => .answered pending shutDown := by
  simp only [due?, hp]

theorem due?_reporting {r : Readiness} (hp : h.phase = .reporting r) :
    h.due? now shutDown answers returned =
      if shutDown then some .shutdown else if returned then some .reported else none := by
  simp only [due?, hp]

theorem due?_ended {o : Outcome} (hp : h.phase = .ended o) :
    h.due? now shutDown answers returned = none := by
  simp only [due?, hp]

end Heartbeat

/-- Something that a run of a barrier lets the outside know. -/
inductive Mark where
  | published (state : BarrierState)
  | called (readiness : Readiness)
  deriving DecidableEq, Repr

/-- A run of a barrier, and what has happened around it. -/
structure Supervision where
  barrier : Barrier
  beat : Heartbeat
  /-- In nanoseconds. -/
  now : Nat
  shutDown : Bool
  /-- Whether the hook has been called and has not returned. -/
  calling : Bool
  /-- What the outside was let know and when, the first mark first. -/
  marks : List (Nat × Mark)
  deriving DecidableEq, Repr

namespace Supervision

inductive Act where
  | pass (time : Nat)
  | shutDown
  /-- The loop takes a turn: what is still pending if all waits are over, and whether the hook has
  returned if it was called. -/
  | turn (answers : Option (List String)) (returned : Bool)

/-- Marks something at the present time. -/
def note (s : Supervision) (m : Mark) : Supervision := { s with marks := s.marks ++ [(s.now, m)] }

def carryOut (s : Supervision) : Heartbeat.Effect → Supervision
  | .log _ => s
  | .publish state => { s with barrier := s.barrier.publish state }.note (.published state)

/-- The run once its loop has taken a signal. -/
def take (s : Supervision) (signal : Heartbeat.Signal) : Supervision :=
  let (beat, effects) := s.beat.step signal
  effects.foldl carryOut { s with beat, calling := false }

/-- The run once its loop has waited for a signal in vain: a hook that is to be told of an outcome
is called, unless it was. -/
def await (s : Supervision) : Supervision :=
  match s.beat.phase with
  | .reporting r => if s.calling then s else { s with calling := true }.note (.called r)
  | _ => s

/-- The run after a turn of its loop. -/
def turn (s : Supervision) (answers : Option (List String)) (returned : Bool) : Supervision :=
  match s.beat.due? s.now s.shutDown answers (s.calling && returned) with
  | some signal => s.take signal
  | none => s.await

def perform (s : Supervision) : Act → Supervision
  | .pass time => { s with now := s.now + time }
  | .shutDown => { s with shutDown := true }
  | .turn answers returned => s.turn answers returned

/-- A run that begins.  What is shown before is the state of the new barrier. -/
def begin (b : Barrier) (waiters now : Nat) : Supervision :=
  let (beat, effects) := Heartbeat.begin b.interval waiters now
  effects.foldl carryOut ⟨b, beat, now, false, false, [(now, .published b.state)]⟩

def run (b : Barrier) (waiters now : Nat) (acts : List Act) : Supervision :=
  acts.foldl perform (begin b waiters now)

/-! ## What a turn can do -/

/-- The longest a heartbeat waits. -/
def timeout (s : Supervision) : Nat := Duration.half s.beat.ticker.period

/-- The outcomes that a heartbeat can have. -/
def IsVerdict (timeout : Nat) (r : Readiness) : Prop := r = .ready ∨ r = .degraded timeout

/-- All that a turn can do, given whether the hook has returned if it was called. -/
inductive Turn (s : Supervision) (returned : Bool) : Supervision → Prop
  | idle : Turn s returned s
  | stops (h : s.shutDown = true) : Turn s returned { s with beat := s.beat.stop, calling := false }
  /-- The deadline cannot be told. -/
  | breaks (h : s.beat.phase = .ticking) :
    Turn s returned
      { s with beat := { s.beat with phase := .ended .instantOverflow }, calling := false }
  | waits (h : s.beat.phase = .ticking) (hs : s.shutDown = false) :
    Turn s returned ({ s with
      barrier := s.barrier.publish (.waiting (s.now + s.timeout))
      beat := { s.beat with
        ticker := s.beat.ticker.take s.now
        phase := .waiting (s.now + s.timeout) }
      calling := false }.note (.published (.waiting (s.now + s.timeout))))
  /-- An outcome that is not reported. -/
  | settles {d : Nat} (h : s.beat.phase = .waiting d) (hs : s.shutDown = false)
      (hr : s.beat.ready = true) :
    Turn s returned ({ s with
      barrier := s.barrier.publish .ready
      beat := { s.beat with phase := .ticking }
      calling := false }.note (.published .ready))
  | decides {d : Nat} {r : Readiness} (h : s.beat.phase = .waiting d) (hs : s.shutDown = false)
      (ho : IsVerdict s.timeout r) (hr : ¬(r = .ready ∧ s.beat.ready = true)) :
    Turn s returned ({ s with
      barrier := s.barrier.publish r.state
      beat := { s.beat with ready := r == Readiness.ready, phase := .reporting r }
      calling := false }.note (.published r.state))
  | calls {r : Readiness} (h : s.beat.phase = .reporting r) (hs : s.shutDown = false)
      (hc : s.calling = false) :
    Turn s returned ({ s with calling := true }.note (.called r))
  | returns {r : Readiness} (h : s.beat.phase = .reporting r) (hs : s.shutDown = false)
      (hc : s.calling = true) (hret : returned = true) :
    Turn s returned { s with beat := { s.beat with phase := .ticking }, calling := false }

theorem state_injective {r r' : Readiness} (h : r.state = r'.state) : r = r' := by
  cases r <;> cases r' <;> simp_all [Readiness.state]

theorem isVerdict_verdict (timeout : Nat) (pending : List String) :
    IsVerdict timeout (Heartbeat.verdict timeout pending).1 := by
  unfold Heartbeat.verdict
  split
  · exact Or.inl rfl
  · exact Or.inr rfl

section Turn

variable {s : Supervision} {returned : Bool}

theorem turn_tick (h : s.beat.phase = .ticking) (hs : s.shutDown = false) :
    Turn s returned (s.take (.tick s.now)) := by
  unfold take Heartbeat.step
  simp only [h]
  split
  next => exact .breaks h
  next => exact .waits h hs

theorem turn_answered {d : Nat} (h : s.beat.phase = .waiting d) (pending : List String) :
    Turn s returned (s.take (.answered pending s.shutDown)) := by
  have ho := isVerdict_verdict s.timeout pending
  unfold take Heartbeat.step
  simp only [h]
  split
  next hs => exact .stops hs
  next hs =>
    have hs : s.shutDown = false := Bool.eq_false_iff.mpr hs
    split
    next hr =>
      have hready : (Heartbeat.verdict s.timeout pending).1 = .ready := hr.1
      have ht : Turn s returned _ := .settles h hs hr.2
      rw [show BarrierState.ready = Readiness.ready.state from rfl, ← hready] at ht
      exact ht
    next hr => exact .decides h hs ho hr

/-- The shutdown while the loop waits for a tick or the hook. -/
theorem turn_shutdown (h : s.beat.phase = .ticking ∨ ∃ r, s.beat.phase = .reporting r)
    (hs : s.shutDown = true) : Turn s returned (s.take .shutdown) := by
  unfold take Heartbeat.step
  rcases h with h | ⟨r, h⟩
  · simp only [h]
    exact .stops hs
  · simp only [h]
    exact .stops hs

theorem turn_reported {r : Readiness} (h : s.beat.phase = .reporting r) (hs : s.shutDown = false)
    (hc : s.calling = true) (hret : returned = true) : Turn s returned (s.take .reported) := by
  unfold take Heartbeat.step
  simp only [h]
  exact .returns h hs hc hret

theorem await_eq_self (h : ∀ r, s.beat.phase ≠ .reporting r) : s.await = s := by
  unfold await
  split
  next r hp => exact absurd hp (h r)
  next => rfl

theorem turn_await (hs : s.shutDown = false) : Turn s returned s.await := by
  unfold await
  split
  next r hp =>
    split
    next => exact .idle
    next hc => exact .calls hp hs (Bool.eq_false_iff.mpr hc)
  next => exact .idle

/-- A turn does one of the things that are listed. -/
theorem turn_cases (s : Supervision) (answers : Option (List String)) (returned : Bool) :
    Turn s returned (s.turn answers returned) := by
  unfold turn
  cases hp : s.beat.phase with
  | ticking =>
    rw [Heartbeat.due?_ticking hp]
    by_cases hs : s.shutDown = true
    · rw [if_pos hs]
      exact turn_shutdown (Or.inl hp) hs
    · rw [if_neg hs]
      have hs : s.shutDown = false := Bool.eq_false_iff.mpr hs
      split
      next signal h =>
        split at h
        next => exact Option.some.inj h ▸ turn_tick hp hs
        next => exact absurd h (by simp)
      next => exact turn_await hs
  | waiting d =>
    rw [Heartbeat.due?_waiting hp]
    cases answers with
    | some pending => exact turn_answered hp pending
    | none =>
      show Turn s returned s.await
      rw [await_eq_self fun r hr => by simp [hp] at hr]
      exact .idle
  | reporting r =>
    rw [Heartbeat.due?_reporting hp]
    by_cases hs : s.shutDown = true
    · rw [if_pos hs]
      exact turn_shutdown (Or.inr ⟨r, hp⟩) hs
    · rw [if_neg hs]
      have hs : s.shutDown = false := Bool.eq_false_iff.mpr hs
      by_cases hc : (s.calling && returned) = true
      · rw [if_pos hc]
        obtain ⟨hcalling, hret⟩ := Bool.and_eq_true_iff.mp hc
        exact turn_reported hp hs hcalling hret
      · rw [if_neg hc]
        exact turn_await hs
  | ended o =>
    rw [Heartbeat.due?_ended hp]
    show Turn s returned s.await
    rw [await_eq_self fun r hr => by simp [hp] at hr]
    exact .idle

end Turn

/-- What an act can lead to: time has passed, the shutdown has come, or the loop has done one of the
things that are listed. -/
theorem perform_cases {s : Supervision} {P : Supervision → Prop}
    (pass : ∀ time, P { s with now := s.now + time }) (shutDown : P { s with shutDown := true })
    (turn : ∀ returned s', Turn s returned s' → P s') (a : Act) : P (s.perform a) := by
  cases a with
  | pass time => exact pass time
  | shutDown => exact shutDown
  | turn answers returned => exact turn returned _ (turn_cases s answers returned)

/-- What every act keeps, every run keeps. -/
theorem foldl_invariant {P : Supervision → Prop} (step : ∀ s a, P s → P (s.perform a))
    (acts : List Act) : ∀ {s : Supervision}, P s → P (acts.foldl perform s) := by
  induction acts with
  | nil => exact fun h => h
  | cons a acts ih => exact fun h => ih (step _ a h)

/-! ## Whole heartbeats -/

/-- A heartbeat that has had its outcome: when it began and ended, and when the hook was called if
it was. -/
structure Beat where
  start : Nat
  ended : Nat
  outcome : Readiness
  called : Nat
  deriving DecidableEq, Repr

/-- The marks of a heartbeat, given whether the outcome before it was ready. -/
def Beat.marks (timeout : Nat) (wasReady : Bool) (b : Beat) : List (Nat × Mark) :=
  [(b.start, .published (.waiting (b.start + timeout))), (b.ended, .published b.outcome.state)] ++
    if wasReady && b.outcome == .ready then [] else [(b.called, .called b.outcome)]

/-- The marks of heartbeats one after the other. -/
def ledger (timeout : Nat) : Bool → List Beat → List (Nat × Mark)
  | _, [] => []
  | wasReady, b :: beats => b.marks timeout wasReady ++ ledger timeout (b.outcome == .ready) beats

/-- Whether the last of some heartbeats was ready. -/
def readyAfter (beats : List Beat) : Bool := beats.foldl (fun _ b => b.outcome == .ready) false

theorem readyAfter_concat (beats : List Beat) (b : Beat) :
    readyAfter (beats ++ [b]) = (b.outcome == .ready) := by
  unfold readyAfter
  rw [List.foldl_append]
  rfl

theorem ledger_concat (timeout : Nat) (beats : List Beat) (b : Beat) :
    ledger timeout false (beats ++ [b]) =
      ledger timeout false beats ++ b.marks timeout (readyAfter beats) := by
  unfold readyAfter
  generalize false = wasReady
  induction beats generalizing wasReady with
  | nil => exact List.append_nil _
  | cons c beats ih =>
    show c.marks timeout wasReady ++ ledger timeout _ (beats ++ [b]) = _
    rw [ih, ← List.append_assoc]
    rfl

/-- The marks of a heartbeat that is not over, given whether the outcome before it was ready. -/
inductive Partial (timeout : Nat) (wasReady : Bool) : List (Nat × Mark) → Prop
  /-- It has not begun. -/
  | none : Partial timeout wasReady []
  | waits (start : Nat) :
    Partial timeout wasReady [(start, .published (.waiting (start + timeout)))]
  /-- Its outcome is to be reported, and the hook has not been called. -/
  | decided (start ended : Nat) {r : Readiness} (ho : IsVerdict timeout r)
      (hr : ¬(r = .ready ∧ wasReady = true)) :
    Partial timeout wasReady
      [(start, .published (.waiting (start + timeout))), (ended, .published r.state)]

/-- Which marks the present heartbeat has left at the place where the loop stands. -/
def Stage (s : Supervision) (beats : List Beat) (rest : List (Nat × Mark)) : Prop :=
  match s.beat.phase with
  | .ticking => rest = [] ∧ s.beat.ready = readyAfter beats
  | .waiting d => s.beat.ready = readyAfter beats ∧
    ∃ start, d = start + s.timeout ∧ rest = [(start, .published (.waiting d))]
  | .reporting r => s.beat.ready = (r == .ready) ∧
    if s.calling then rest = [] ∧ readyAfter beats = (r == .ready)
    else IsVerdict s.timeout r ∧ ¬(r = .ready ∧ readyAfter beats = true) ∧ ∃ start ended,
      rest = [(start, .published (.waiting (start + s.timeout))), (ended, .published r.state)]
  | .ended _ => Partial s.timeout (readyAfter beats) rest ∧ (rest ≠ [] → s.shutDown = true)

/-- The marks are those of whole heartbeats and of the present one. -/
structure Chronicle (start : Nat) (s : Supervision) (beats : List Beat)
    (rest : List (Nat × Mark)) : Prop where
  marks : s.marks = (start, .published .initializing) :: ledger s.timeout false beats ++ rest
  verdicts : ∀ b ∈ beats, IsVerdict s.timeout b.outcome
  stage : Stage s beats rest

variable {s s' : Supervision} {beats : List Beat} {rest : List (Nat × Mark)} {start : Nat}

theorem Stage.isPartial (h : Stage s beats rest) : Partial s.timeout (readyAfter beats) rest := by
  unfold Stage at h
  split at h
  next => exact h.1 ▸ .none
  next =>
    obtain ⟨-, start, rfl, rfl⟩ := h
    exact .waits start
  next =>
    obtain ⟨-, h⟩ := h
    split at h
    next => exact h.1 ▸ .none
    next =>
      obtain ⟨ho, hr, start, ended, rfl⟩ := h
      exact .decided start ended ho hr
  next => exact h.1

/-- One more heartbeat is over. -/
theorem chronicle_concat {b : Beat} (hb : IsVerdict s.timeout b.outcome)
    (hm : s.marks = (start, .published .initializing) :: ledger s.timeout false beats ++
      b.marks s.timeout (readyAfter beats))
    (hv : ∀ b ∈ beats, IsVerdict s.timeout b.outcome) (hs : Stage s (beats ++ [b]) []) :
    Chronicle start s (beats ++ [b]) [] where
  marks := by
    rw [hm, ledger_concat, List.append_nil]
    rfl
  verdicts c hc := by
    rcases List.mem_append.mp hc with hc | hc
    · exact hv c hc
    · rw [List.mem_singleton.mp hc]
      exact hb
  stage := hs

theorem chronicle_turn (h : Chronicle start s beats rest) {returned : Bool}
    (ht : Turn s returned s') :
    ∃ beats' rest', Chronicle start s' beats' rest' := by
  obtain ⟨hmarks, hverdicts, hstage⟩ := h
  cases ht with
  | idle => exact ⟨beats, rest, hmarks, hverdicts, hstage⟩
  | stops hs => exact ⟨beats, rest, hmarks, hverdicts, hstage.isPartial, fun _ => hs⟩
  | breaks hp =>
    simp only [Stage, hp] at hstage
    exact ⟨beats, rest, hmarks, hverdicts, hstage.1 ▸ .none, fun hne => absurd hstage.1 hne⟩
  | waits hp hs =>
    simp only [Stage, hp] at hstage
    obtain ⟨rfl, hready⟩ := hstage
    refine ⟨beats, _, ?_, hverdicts, hready, s.now, rfl, rfl⟩
    show s.marks ++ [_] = _
    rw [hmarks, List.append_nil]
    rfl
  | settles hp hs hr =>
    simp only [Stage, hp] at hstage
    obtain ⟨hready, begun, rfl, rfl⟩ := hstage
    refine ⟨beats ++ [⟨begun, s.now, .ready, 0⟩], [],
      chronicle_concat (Or.inl rfl) ?_ hverdicts ⟨rfl, ?_⟩⟩
    · -- it was ready before, so there is no call
      show s.marks ++ [_] = _
      rw [hmarks, List.append_assoc, ← hready, hr]
      rfl
    · rw [readyAfter_concat]
      exact hr
  | decides hp hs ho hr =>
    simp only [Stage, hp] at hstage
    obtain ⟨hready, begun, rfl, rfl⟩ := hstage
    refine ⟨beats, _, ?_, hverdicts, rfl, ho, hready ▸ hr, begun, s.now, rfl⟩
    show s.marks ++ [_] = _
    rw [hmarks, List.append_assoc]
    rfl
  | @calls r hp hs hc =>
    simp only [Stage, hp, hc, Bool.false_eq_true, if_false] at hstage
    obtain ⟨hready, ho, hr, begun, ended, rfl⟩ := hstage
    refine ⟨beats ++ [⟨begun, ended, r, s.now⟩], [],
      chronicle_concat (s := { s with calling := true }.note (.called r))
        (b := ⟨begun, ended, r, s.now⟩) ho ?_ hverdicts ?_⟩
    · show s.marks ++ [_] = _
      have hreport : (readyAfter beats && r == .ready) = false := by
        refine Bool.eq_false_iff.mpr fun h => hr ?_
        rw [Bool.and_eq_true] at h
        exact ⟨eq_of_beq h.2, h.1⟩
      rw [hmarks, List.append_assoc, Beat.marks, hreport]
      rfl
    · simp [Stage, note, hp, hready, readyAfter_concat]
  | returns hp hs hc =>
    simp only [Stage, hp, hc, if_true] at hstage
    obtain ⟨hready, rfl, hlast⟩ := hstage
    exact ⟨beats, [], hmarks, hverdicts, rfl, hready.trans hlast.symm⟩

theorem chronicle_perform (h : Chronicle start s beats rest) (a : Act) :
    ∃ beats' rest', Chronicle start (s.perform a) beats' rest' := by
  refine perform_cases (P := fun s' => ∃ beats' rest', Chronicle start s' beats' rest')
    (fun time => ?_) ?_ (fun returned s' ht => chronicle_turn h ht) a
  · exact ⟨beats, rest, h.marks, h.verdicts, h.stage⟩
  · refine ⟨beats, rest, h.marks, h.verdicts, ?_⟩
    have hs := h.stage
    cases hp : s.beat.phase with
    | ticking | waiting | reporting =>
      simp only [Stage, hp] at hs ⊢
      exact hs
    | ended o =>
      simp only [Stage, hp] at hs ⊢
      exact ⟨hs.1, fun _ => trivial⟩

theorem new_eq {interval : Nat} {b : Barrier} (hb : Barrier.new interval = .ok b) :
    b = ⟨interval, .initializing, 0, false⟩ := by
  unfold Barrier.new at hb
  split at hb
  next => exact absurd hb (by simp)
  next => exact (Except.ok.inj hb).symm

theorem chronicle_begin {interval : Nat} {b : Barrier} (hb : Barrier.new interval = .ok b)
    (waiters start : Nat) : Chronicle start (begin b waiters start) [] [] where
  marks := by
    rw [new_eq hb]
    rfl
  verdicts _ h := absurd h List.not_mem_nil
  stage := ⟨rfl, rfl⟩

/-! ## After the shutdown, and between calls -/

/-- Whoever shut a run down hears nothing more of it. -/
theorem marks_of_shutDown (hs : s.shutDown = true) (a : Act) :
    (s.perform a).marks = s.marks ∧ (s.perform a).shutDown = true := by
  refine perform_cases (P := fun s' => s'.marks = s.marks ∧ s'.shutDown = true)
    (fun _ => ⟨rfl, hs⟩) ⟨rfl, rfl⟩ (fun returned s' ht => ?_) a
  cases ht with
  | idle | stops | breaks => exact ⟨rfl, hs⟩
  | waits _ h => exact absurd (hs.symm.trans h) (by simp)
  | settles _ h => exact absurd (hs.symm.trans h) (by simp)
  | decides _ h => exact absurd (hs.symm.trans h) (by simp)
  | calls _ h => exact absurd (hs.symm.trans h) (by simp)
  | returns _ h => exact absurd (hs.symm.trans h) (by simp)

theorem marks_foldl_of_shutDown (hs : s.shutDown = true) (acts : List Act) :
    (acts.foldl perform s).marks = s.marks := by
  refine (foldl_invariant (P := fun s' => s'.marks = s.marks ∧ s'.shutDown = true) ?_ acts
    ⟨rfl, hs⟩).1
  rintro s' a ⟨hm, hs'⟩
  obtain ⟨hm', hs''⟩ := marks_of_shutDown hs' a
  exact ⟨hm'.trans hm, hs''⟩

/-- What the hook was told, in order. -/
def reports (marks : List (Nat × Mark)) : List Readiness :=
  marks.filterMap fun
    | (_, .called r) => some r
    | (_, .published _) => none

theorem reports_append (ms ns : List (Nat × Mark)) :
    reports (ms ++ ns) = reports ms ++ reports ns :=
  List.filterMap_append

theorem reports_marks (timeout : Nat) (wasReady : Bool) (b : Beat) :
    reports (b.marks timeout wasReady) =
      if wasReady && b.outcome == .ready then [] else [b.outcome] := by
  unfold Beat.marks
  split <;> rfl

/-- Not both are ready. -/
def Alternate (r r' : Readiness) : Prop := ¬(r = .ready ∧ r' = .ready)

/-- No two reports in a row are ready, and the first one is not if the heartbeat before it was. -/
theorem reports_ledger (timeout : Nat) (beats : List Beat) : ∀ wasReady : Bool,
    (reports (ledger timeout wasReady beats)).IsChain Alternate ∧
      (wasReady = true → ∀ r ∈ (reports (ledger timeout wasReady beats)).head?, r ≠ .ready) := by
  induction beats with
  | nil => exact fun _ => ⟨.nil, fun _ r hr => absurd hr (by simp [ledger, reports])⟩
  | cons b beats ih =>
    intro wasReady
    obtain ⟨hchain, hhead⟩ := ih (b.outcome == .ready)
    rw [ledger, reports_append, reports_marks]
    split
    next hsilent =>
      -- not reported: it was ready, and so is this one
      have hready : (b.outcome == .ready) = true := (Bool.and_eq_true_iff.mp hsilent).2
      exact ⟨hchain, fun _ => hhead hready⟩
    next hloud =>
      refine ⟨List.isChain_cons.mpr ⟨fun r hr hboth => ?_, hchain⟩, fun hw r hr => ?_⟩
      · exact hhead (beq_iff_eq.mpr hboth.1) r hr hboth.2
      · obtain rfl : b.outcome = r := Option.some.inj hr
        intro hready
        exact hloud (by rw [hw, hready]; rfl)

/-- The hook is told of nothing by a heartbeat that is not over. -/
theorem Partial.reports {timeout : Nat} {wasReady : Bool} (h : Partial timeout wasReady rest) :
    reports rest = [] := by
  cases h <;> rfl

/-- A turn makes the call that is to be made. -/
theorem marks_of_uncalled {r : Readiness} (hp : s.beat.phase = .reporting r)
    (hc : s.calling = false) (hs : s.shutDown = false) (answers : Option (List String))
    (returned : Bool) :
    (s.turn answers returned).marks = s.marks ++ [(s.now, .called r)] := by
  unfold turn
  rw [Heartbeat.due?_reporting hp, hs, hc]
  show s.await.marks = _
  unfold await
  rw [hp]
  simp [hc, note]

/-- An outcome that was shown and not reported is reported next, unless the run was shut down. -/
theorem Stage.report {begun ended : Nat} {state : BarrierState} {r : Readiness}
    (h : Stage s beats [(begun, .published state), (ended, .published r.state)]) :
    s.shutDown = true ∨ ∀ answers returned,
      (s.turn answers returned).marks = s.marks ++ [(s.now, .called r)] := by
  cases hs : s.shutDown with
  | true => exact Or.inl rfl
  | false =>
    refine Or.inr fun answers returned => ?_
    cases hp : s.beat.phase with
    | ticking => simp [Stage, hp] at h
    | waiting d => simp [Stage, hp] at h
    | ended o => simp [Stage, hp, hs] at h
    | reporting r' =>
      simp only [Stage, hp] at h
      cases hc : s.calling with
      | true => simp [hc] at h
      | false =>
        simp only [hc, Bool.false_eq_true, if_false] at h
        obtain ⟨-, -, -, begun', ended', hrest⟩ := h
        have hstate : r.state = r'.state := by simp at hrest; exact hrest.2.2
        rw [state_injective hstate]
        exact marks_of_uncalled hp hc hs answers returned

theorem timeout_perform (s : Supervision) (a : Act) : (s.perform a).timeout = s.timeout := by
  refine perform_cases (P := fun s' => s'.timeout = s.timeout) (fun _ => rfl) rfl
    (fun returned s' ht => ?_) a
  cases ht <;> rfl

/-- The states that everybody was shown, in order. -/
def shown (marks : List (Nat × Mark)) : List BarrierState :=
  marks.filterMap fun
    | (_, .published state) => some state
    | (_, .called _) => none

/-- The barrier is in the state that was shown last. -/
theorem shown_perform (h : (shown s.marks).getLast? = some s.barrier.state) (a : Act) :
    (shown (s.perform a).marks).getLast? = some (s.perform a).barrier.state := by
  have hcall : ∀ r, shown (s.marks ++ [(s.now, .called r)]) = shown s.marks := by
    intro r
    simp [shown]
  have hpublish : ∀ state,
      (shown (s.marks ++ [(s.now, .published state)])).getLast? = some state := by
    intro state
    simp [shown]
  refine perform_cases (P := fun s' => (shown s'.marks).getLast? = some s'.barrier.state)
    (fun _ => h) h (fun returned s' ht => ?_) a
  cases ht with
  | idle | stops | breaks | returns => exact h
  | waits => exact hpublish _
  | settles => exact hpublish _
  | decides => exact hpublish _
  | calls => exact (congrArg _ (hcall _)).trans h

/-- **What a run of a barrier shows and reports.**  Take a new barrier, and whatever happens around
its run.  First it is initializing; then come whole heartbeats, each with its wait until half the
interval has passed, its outcome, and a report of the outcome unless it is ready and so was the
one before it; then what there is of a heartbeat that is not over.  If that one's outcome was shown,
its report is the next mark, unless the run was shut down.  Once the run was shut down there are no
more marks. -/
theorem marks_run {interval : Nat} {b : Barrier} (hb : Barrier.new interval = .ok b)
    (waiters start : Nat) (acts : List Act) :
    let s := run b waiters start acts
    let timeout := Duration.half interval
    (∃ beats rest,
      s.marks = (start, .published .initializing) :: ledger timeout false beats ++ rest ∧
      (∀ beat ∈ beats, IsVerdict timeout beat.outcome) ∧
      Partial timeout (readyAfter beats) rest ∧
      ∀ begun ended state r, rest = [(begun, .published state), (ended, .published r.state)] →
        s.shutDown = true ∨ ∀ answers returned,
          (s.turn answers returned).marks = s.marks ++ [(s.now, .called r)]) ∧
    (shown s.marks).getLast? = some s.barrier.state ∧
    (reports s.marks).IsChain Alternate ∧
    (s.shutDown = true → ∀ more : List Act, (more.foldl perform s).marks = s.marks) := by
  intro s timeout
  obtain ⟨beats, rest, hmarks, hverdicts, hstage⟩ : ∃ beats rest, Chronicle start s beats rest := by
    refine foldl_invariant (P := fun s => ∃ beats rest, Chronicle start s beats rest) ?_ acts
      ⟨[], [], chronicle_begin hb waiters start⟩
    rintro s a ⟨beats, rest, h⟩
    exact chronicle_perform h a
  have ht : s.timeout = timeout :=
    foldl_invariant (P := fun s => s.timeout = timeout)
      (fun s a h => (timeout_perform s a).trans h) acts (by rw [new_eq hb]; rfl)
  have hshown : (shown s.marks).getLast? = some s.barrier.state :=
    foldl_invariant (P := fun s => (shown s.marks).getLast? = some s.barrier.state)
      (fun s a h => shown_perform h a) acts rfl
  have hpartial := hstage.isPartial
  rw [ht] at hmarks hverdicts hpartial
  refine ⟨⟨beats, rest, hmarks, hverdicts, hpartial, ?_⟩, hshown, ?_,
    fun hs more => marks_foldl_of_shutDown hs more⟩
  · rintro begun ended state r rfl
    exact hstage.report
  · rw [hmarks, reports_append, hpartial.reports, List.append_nil]
    exact (reports_ledger timeout beats false).1

/-- A heartbeat in vain, a recovery, a heartbeat that stays ready, and one that the shutdown cuts
short. -/
def eventful : List Act :=
  [.turn none false, .pass 5, .turn (some ["f/pods"]) false, .turn none false, .turn none true,
    .pass 5, .turn none false, .turn (some []) false, .turn none false, .turn none true,
    .pass 10, .turn none false, .turn (some []) false,
    .pass 10, .turn none false, .shutDown, .turn (some []) false]

theorem marks_eventful :
    let s := run ⟨10, .initializing, 0, false⟩ 1 0 eventful
    s.marks = [(0, .published .initializing),
      (0, .published (.waiting 5)), (5, .published (.degraded 5)), (5, .called (.degraded 5)),
      (10, .published (.waiting 15)), (10, .published .ready), (10, .called .ready),
      (20, .published (.waiting 25)), (20, .published .ready),
      (30, .published (.waiting 35))] ∧
    (reports s.marks).IsChain Alternate ∧
    ∀ more : List Act, (more.foldl perform s).marks = s.marks := by
  have hb : Barrier.new 10 = .ok ⟨10, .initializing, 0, false⟩ := rfl
  obtain ⟨-, -, hreports, hover⟩ := marks_run hb 1 0 eventful
  exact ⟨by decide +kernel, hreports, hover (by decide +kernel)⟩

end Supervision

end InformerHub
