import InformerHub.Proofs.Supervision

/-!
# A loop that stays ready

A loop that gets only good answers, and gets them at once, goes on in the same way for ever:

> after the first ready outcome come its report, if it has one, and then heartbeats that are ready
> at the instant at which they begin and are not reported (`steady_turn`).

`Steady` says so of the marks, and `Lasts` what is left of the heartbeat that is under way at the
place where the loop stands; `steady_first` is the beginning.
`turn_of_waiting` says more than `turn_cases` of a loop that waits: which outcome follows from which
answers.
-/

namespace InformerHub

namespace Supervision

/-! ## The loop while it waits -/

variable {s : Supervision} {d : Nat}

/-- The run once an outcome has been shown.  It is to be reported, unless it is ready and so was the
one before it. -/
def conclude (s : Supervision) (r : Readiness) : Supervision :=
  { s with
    barrier := s.barrier.publish r.state
    beat :=
      if r = Readiness.ready ∧ s.beat.ready = true then { s.beat with phase := .ticking }
      else { s.beat with ready := r == Readiness.ready, phase := .reporting r }
    calling := false }.note (.published r.state)

theorem take_answered (h : s.beat.phase = .waiting d) (pending : List String) :
    s.take (.answered pending false) = s.conclude (Heartbeat.verdict s.timeout pending).1 := by
  unfold take Heartbeat.step conclude timeout
  simp only [h, Bool.false_eq_true, if_false]
  split
  · rfl
  · rfl

/-- A turn of a loop that waits does nothing without the answers.  With them the loop ends if the
shutdown has come, and there is an outcome if it has not. -/
theorem turn_of_waiting (h : s.beat.phase = .waiting d) (answers : Option (List String))
    (returned : Bool) :
    answers = none ∧ s.turn answers returned = s ∨
      s.shutDown = true ∧ s.turn answers returned =
        { s with beat := s.beat.stop, calling := false } ∨
      ∃ pending, answers = some pending ∧ s.shutDown = false ∧
        s.turn answers returned = s.conclude (Heartbeat.verdict s.timeout pending).1 := by
  unfold turn
  rw [Heartbeat.due?_waiting h]
  cases answers with
  | none =>
    refine Or.inl ⟨rfl, ?_⟩
    show s.await = s
    exact await_eq_self fun r hr => by simp [h] at hr
  | some pending =>
    refine Or.inr ?_
    show _ ∧ s.take (.answered pending s.shutDown) = _ ∨ _
    cases hs : s.shutDown with
    | true =>
      refine Or.inl ⟨rfl, ?_⟩
      unfold take Heartbeat.step
      simp only [h, if_true]
      rw [← hs]
      rfl
    | false => exact Or.inr ⟨pending, rfl, rfl, take_answered h pending⟩

theorem eq_nil_of_verdict {timeout : Nat} {pending : List String}
    (h : (Heartbeat.verdict timeout pending).1 = .ready) : pending = [] := by
  unfold Heartbeat.verdict at h
  split at h
  next hp => exact List.isEmpty_iff.mp hp
  next => exact absurd h (by simp)

/-- Marks are never taken back. -/
theorem marks_prefix_perform (s : Supervision) (a : Act) : s.marks <+: (s.perform a).marks := by
  refine perform_cases (P := fun s' => s.marks <+: s'.marks) (fun _ => List.prefix_rfl)
    List.prefix_rfl (fun returned s' ht => ?_) a
  cases ht with
  | idle | stops | breaks | returns => exact List.prefix_rfl
  | waits | settles | decides | calls => exact List.prefix_append ..

/-! ## A loop that stays ready -/

/-- The marks of a heartbeat that ends ready at the instant at which it begins, and is not
reported. -/
def atOnce (timeout t : Nat) : List (Nat × Mark) :=
  [(t, .published (.waiting (t + timeout))), (t, .published .ready)]

/-- Which marks the present heartbeat has left after a ready one, at the place where the loop
stands. -/
def Lasts (wasReady : Bool) (s : Supervision) (report : List (Nat × Mark)) (times : List Nat)
    (rest : List (Nat × Mark)) : Prop :=
  match s.beat.phase with
  | .ticking => rest = []
  | .waiting _ => rest = [(s.now, .published (.waiting (s.now + s.timeout)))]
  | .reporting r => r = .ready ∧ times = [] ∧ rest = [] ∧
    (s.calling = false → report = [] ∧ wasReady = false)
  | .ended _ => rest = [] ∨
    s.shutDown = true ∧ ∃ t, rest = [(t, .published (.waiting (t + s.timeout)))]

/-- After a ready outcome, which followed another one or did not, nothing was marked but its report,
heartbeats that were ready at once, and the beginning of one more. -/
structure Steady (before : List (Nat × Mark)) (wasReady : Bool) (s : Supervision)
    (report : List (Nat × Mark)) (times : List Nat) (rest : List (Nat × Mark)) : Prop where
  marks : s.marks = before ++ (report ++ times.flatMap (atOnce s.timeout) ++ rest)
  reported : report = [] ∨ wasReady = false ∧ ∃ c, report = [(c, .called .ready)]
  ready : s.beat.ready = true
  lasts : Lasts wasReady s report times rest

variable {before report rest : List (Nat × Mark)} {wasReady : Bool} {times : List Nat}

/-- What is left of a heartbeat is its beginning, and unless it waits it was cut short. -/
theorem Lasts.rest_cases (h : Lasts wasReady s report times rest) :
    rest = [] ∨ ∃ t, rest = [(t, .published (.waiting (t + s.timeout)))] ∧
      (s.now = t ∨ s.shutDown = true) := by
  unfold Lasts at h
  split at h
  next => exact Or.inl h
  next => exact Or.inr ⟨_, h, Or.inl rfl⟩
  next => exact Or.inl h.2.2.1
  next =>
    rcases h with h | ⟨hs, t, h⟩
    · exact Or.inl h
    · exact Or.inr ⟨t, h, Or.inr hs⟩

theorem Lasts.of_ended (h : Lasts wasReady s report times rest) (hs : s.shutDown = true) :
    rest = [] ∨ s.shutDown = true ∧ ∃ t, rest = [(t, .published (.waiting (t + s.timeout)))] :=
  h.rest_cases.imp_right fun ⟨t, hrest, _⟩ => ⟨hs, t, hrest⟩

theorem steady_pass (h : Steady before wasReady s report times rest)
    (hw : ∀ d, s.beat.phase ≠ .waiting d) (time : Nat) :
    Steady before wasReady { s with now := s.now + time } report times rest := by
  refine { h with lasts := ?_ }
  have hl := h.lasts
  cases hp : s.beat.phase with
  | waiting d => exact absurd hp (hw d)
  | ticking | reporting | ended =>
    simp only [Lasts, hp] at hl ⊢
    exact hl

theorem steady_shutDown (h : Steady before wasReady s report times rest) :
    Steady before wasReady { s with shutDown := true } report times rest := by
  refine { h with lasts := ?_ }
  have hl := h.lasts
  cases hp : s.beat.phase with
  | ticking | waiting | reporting =>
    simp only [Lasts, hp] at hl ⊢
    exact hl
  | ended =>
    simp only [Lasts, hp] at hl ⊢
    exact hl.imp_right fun ⟨_, ht⟩ => ⟨trivial, ht⟩

theorem steady_stops (h : Steady before wasReady s report times rest) (hs : s.shutDown = true) :
    Steady before wasReady { s with beat := s.beat.stop, calling := false } report times rest :=
  { h with lasts := h.lasts.of_ended hs }

/-- A good answer ends a heartbeat at the instant at which it began. -/
theorem steady_conclude (h : Steady before wasReady s report times rest)
    (hp : s.beat.phase = .waiting d) :
    Steady before wasReady (s.conclude .ready) report (times ++ [s.now]) [] := by
  have hl := h.lasts
  simp only [Lasts, hp] at hl
  subst hl
  have hbeat : (s.conclude .ready).beat = { s.beat with phase := .ticking } :=
    if_pos ⟨rfl, h.ready⟩
  have htimeout : (s.conclude .ready).timeout = s.timeout := by
    unfold timeout
    rw [hbeat]
  refine ⟨?_, h.reported, ?_, ?_⟩
  · rw [htimeout]
    show s.marks ++ [(s.now, .published .ready)] = _
    simp [h.marks, atOnce]
  · rw [hbeat]
    exact h.ready
  · unfold Lasts
    rw [hbeat]

/-- A turn of a loop that gets only good answers. -/
theorem steady_turn (h : Steady before wasReady s report times rest)
    {answers : Option (List String)} (hgood : ∀ pending, answers = some pending → pending = [])
    (returned : Bool) : ∃ report' times' rest',
      Steady before wasReady (s.turn answers returned) report' times' rest' := by
  have hl := h.lasts
  by_cases hw : ∃ d, s.beat.phase = .waiting d
  · obtain ⟨d, hp⟩ := hw
    rcases turn_of_waiting hp answers returned with ⟨-, he⟩ | ⟨hs, he⟩ | ⟨pending, ha, -, he⟩
    · rw [he]
      exact ⟨report, times, rest, h⟩
    · rw [he]
      exact ⟨report, times, rest, steady_stops h hs⟩
    · obtain rfl := hgood pending ha
      rw [he]
      exact ⟨report, times ++ [s.now], [], steady_conclude h hp⟩
  · have ht := turn_cases s answers returned
    generalize s.turn answers returned = s' at ht ⊢
    cases ht with
    | idle => exact ⟨report, times, rest, h⟩
    | stops hs => exact ⟨report, times, rest, steady_stops h hs⟩
    | breaks hp =>
      simp only [Lasts, hp] at hl
      exact ⟨report, times, rest, { h with lasts := Or.inl hl }⟩
    | waits hp =>
      simp only [Lasts, hp] at hl
      subst hl
      refine ⟨report, times, _, ?_, h.reported, h.ready, rfl⟩
      show s.marks ++ [_] = _
      rw [h.marks, List.append_nil, List.append_assoc]
      rfl
    | settles hp => exact absurd ⟨_, hp⟩ hw
    | decides hp => exact absurd ⟨_, hp⟩ hw
    | calls hp _ hc =>
      simp only [Lasts, hp] at hl
      obtain ⟨rfl, rfl, rfl, hl⟩ := hl
      obtain ⟨rfl, hwas⟩ := hl hc
      refine ⟨[(s.now, .called .ready)], [], [], ?_, Or.inr ⟨hwas, s.now, rfl⟩, h.ready, ?_⟩
      · show s.marks ++ [_] = _
        rw [h.marks]
        simp
      · simp [Lasts, note, hp]
    | returns hp =>
      simp only [Lasts, hp] at hl
      exact ⟨report, times, rest, { h with lasts := hl.2.2.1 }⟩

/-- A first outcome that is ready. -/
theorem steady_first (hm : s.marks = before) :
    Steady (before ++ [(s.now, .published .ready)]) s.beat.ready (s.conclude .ready) [] [] [] := by
  refine ⟨?_, Or.inl rfl, ?_, ?_⟩
  · show s.marks ++ [_] = _
    rw [hm]
    simp [Readiness.state]
  all_goals
    cases hr : s.beat.ready with
    | true => simp [conclude, note, Lasts, hr]
    | false => simp [conclude, note, Lasts, hr]

/-- A heartbeat begins when the loop takes a tick. -/
theorem began_of_marks {answers : Option (List String)} {returned : Bool} {start : Nat}
    (h : (s.turn answers returned).marks = s.marks ++ [(start, .published (.waiting d))]) :
    s.beat.phase = .ticking ∧ (∃ d, (s.turn answers returned).beat.phase = .waiting d) ∧
      (s.turn answers returned).beat.ready = s.beat.ready := by
  have ht := turn_cases s answers returned
  generalize s.turn answers returned = s' at h ht ⊢
  cases ht with
  | idle | stops | breaks | returns => exact absurd h (by simp)
  | waits hp => exact ⟨hp, ⟨_, rfl⟩, rfl⟩
  | settles | calls => exact absurd h (by simp [note])
  | @decides _ r => cases r <;> exact absurd h (by simp [note, Readiness.state])

end Supervision

end InformerHub
