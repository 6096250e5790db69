import InformerHub.Proofs.Report
import InformerHub.Proofs.StoreQueries
import InformerHub.Proofs.Supervision
import InformerHub.Scenario.Object

/-!
# Bindings mirror readiness

The hook of a connection reports readiness on every binding that uses the connection's secret.
`Upkeep` is a run of the connection's barrier, the store of the bindings, and the report that the
hook makes.  Bindings appear at any time, and the client answers the attempts to write as it likes;
what it writes is in the store at once.

> When a heartbeat has ended ready and its report is over, every binding that used the secret when
> the heartbeat began says that the informers have synced, unless a write was given up
> (`marked_of_atReady`).

A ready heartbeat that follows a ready one is not reported.  Then it is the bindings of the last
heartbeat that was reported that say so; a binding that has appeared since, or whose write was given
up, is left as it is until the connection recovers once more (`unmarked_of_added`).

`Supervision.Turn` says what the loop can do, and `Report.proceeds_step` what an answer of the
client does to a report on its way.  `Stage` says what holds of the bindings where the loop stands:
while a heartbeat waits, those that used the secret when it began still do; while a ready report is
on its way, each of these is marked or still to come.
-/

namespace InformerHub

variable {β τ : Type} [Object β] [Conditioned β τ]

/-- A run of a barrier whose hook reports on bindings. -/
structure Upkeep (β : Type) where
  loop : Supervision
  store : Store β
  secretKey : String
  policy : BackoffPolicy
  /-- The report of the hook's last call, if the bindings could be listed. -/
  report : Option (Report β)
  /-- The keys of the bindings that used the secret when the last heartbeat began. -/
  begun : List String
  /-- The same of the last heartbeat that was reported. -/
  reported : List String
  /-- Whether a write of the last report was given up. -/
  missed : Bool
  /-- Whether the last outcome was ready, and the report of it is over if there is one. -/
  atReady : Bool

namespace Upkeep

inductive Act (β τ : Type) where
  | pass (time : Nat)
  | shutDown
  /-- A binding appears.  One whose key is taken does not. -/
  | add (binding : β)
  /-- The loop takes a turn: what is still pending if all waits are over, and the clock reading if
  the hook is called. -/
  | turn (answers : Option (List String)) (reading : τ)
  /-- The client answers an attempt to write, or a time is over. -/
  | answer (signal : Retry.Signal) (reading : τ)

/-- The keys of the bindings that use the secret. -/
def indexed (s : Upkeep β) : List String :=
  match s.store.byIndex bySecret s.secretKey with
  | .ok bindings => bindings.map keyOf
  | .error _ => []

/-- Whether the hook has nothing left to do. -/
def idle (s : Upkeep β) : Bool :=
  match s.report with
  | some r => r.writing.isNone
  | none => true

section Run

variable [DecidableEq τ]

/-- The hook is called, and lists the bindings. -/
def call (s : Upkeep β) (readiness : Readiness) (reading : τ) : Upkeep β :=
  let report := match Report.onStore s.secretKey s.policy readiness s.store reading with
    | .ok (report, _) => some report
    | .error _ => none
  { s with report, reported := s.begun, missed := false }

/-- The run once its loop has come to `loop`. -/
def follow (s : Upkeep β) (loop : Supervision) (reading : τ) : Upkeep β :=
  match loop.beat.phase with
  | .ticking => { s with loop, atReady := loop.beat.ready }
  | .waiting _ =>
    if s.loop.beat.phase = .ticking then { s with loop, begun := s.indexed } else { s with loop }
  | .reporting r =>
    if loop.calling && !s.loop.calling then { s with loop, atReady := false }.call r reading
    else { s with loop, atReady := false }
  | .ended _ => { s with loop }

/-- An answer to the attempt that the hook makes. -/
def answer (s : Upkeep β) (signal : Retry.Signal) (reading : τ) : Upkeep β :=
  match s.report.bind fun r => r.writing.map fun w => (r, w) with
  | some (r, w) =>
    if s.loop.calling then
      { s with
        report := some (r.step signal reading).1
        store := Report.landed s.store w signal
        missed := s.missed || Report.givenUp w signal }
    else s
  | none => s

def add (s : Upkeep β) (b : β) : Upkeep β :=
  match s.store.get? (keyOf b) with
  | some _ => s
  | none => { s with store := (s.store.upsert b).1 }

def perform (s : Upkeep β) : Act β τ → Upkeep β
  | .pass time => { s with loop := s.loop.perform (.pass time) }
  | .shutDown => { s with loop := s.loop.perform .shutDown }
  | .add b => s.add b
  | .turn answers reading => s.follow (s.loop.turn answers s.idle) reading
  | .answer signal reading => s.answer signal reading

/-- A run that begins over a store of bindings. -/
def begin (b : Barrier) (waiters now : Nat) (store : Store β) (secretKey : String)
    (policy : BackoffPolicy) : Upkeep β where
  loop := .begin b waiters now
  store := store
  secretKey := secretKey
  policy := policy
  report := none
  begun := []
  reported := []
  missed := false
  atReady := false

def run (s : Upkeep β) (acts : List (Act β τ)) : Upkeep β := acts.foldl perform s

end Run

/-! ## What the bindings say -/

/-- The bindings of the last report say that the informers have synced. -/
def Shown (s : Upkeep β) : Prop :=
  s.missed = false → ∀ key ∈ s.reported, Report.MarkedIn s.store key

/-- A ready report is on its way, and has not lost a binding. -/
def Underway (s : Upkeep β) : Prop :=
  match s.report with
  | some r => r.Proceeds s.store ∧ (s.missed = false → ∀ key ∈ s.reported, r.Covers s.store key)
  | none => s.Shown

/-- Where the loop stands, and what then holds. -/
def Stage (s : Upkeep β) : Prop :=
  match s.loop.beat.phase with
  | .ticking => s.loop.calling = false ∧ s.atReady = s.loop.beat.ready
  | .waiting _ =>
    s.loop.calling = false ∧ s.atReady = s.loop.beat.ready ∧ ∀ key ∈ s.begun, key ∈ s.indexed
  | .reporting r =>
    s.atReady = false ∧ s.loop.beat.ready = (r == .ready) ∧
      if s.loop.calling then r = .ready → s.Underway else ∀ key ∈ s.begun, key ∈ s.indexed
  | .ended _ => s.loop.calling = false

/-- What holds at every time of a run. -/
structure Kept (s : Upkeep β) : Prop where
  sound : s.store.Sound
  stage : s.Stage
  shown : s.atReady = true → s.Shown
  /-- Since the hook was called, no further heartbeat has begun. -/
  called : ∀ t r, s.loop.marks.getLast? = some (t, .called r) → s.reported = s.begun

/-! ## The loop in the run -/

section Loop

variable [DecidableEq τ]

theorem loop_follow (s : Upkeep β) (loop : Supervision) (reading : τ) :
    (s.follow loop reading).loop = loop := by
  unfold follow
  split
  next => rfl
  next => split <;> rfl
  next => split <;> rfl
  next => rfl

theorem loop_perform (s : Upkeep β) (a : Act β τ) :
    ∃ turns : List Supervision.Act,
      (s.perform a).loop = turns.foldl Supervision.perform s.loop := by
  cases a with
  | pass time => exact ⟨[.pass time], rfl⟩
  | shutDown => exact ⟨[.shutDown], rfl⟩
  | add b =>
    refine ⟨[], ?_⟩
    show (s.add b).loop = s.loop
    unfold add
    split <;> rfl
  | turn answers reading => exact ⟨[.turn answers s.idle], loop_follow s _ reading⟩
  | answer signal reading =>
    refine ⟨[], ?_⟩
    show (s.answer signal reading).loop = s.loop
    unfold answer
    split
    next => split <;> rfl
    next => rfl

/-- The loop in the run is a run of the barrier. -/
theorem loop_run (acts : List (Act β τ)) : ∀ s : Upkeep β,
    ∃ turns : List Supervision.Act,
      (s.run acts).loop = turns.foldl Supervision.perform s.loop := by
  induction acts with
  | nil => exact fun s => ⟨[], rfl⟩
  | cons a acts ih =>
    intro s
    obtain ⟨first, hfirst⟩ := loop_perform s a
    obtain ⟨rest, hrest⟩ := ih (s.perform a)
    refine ⟨first ++ rest, ?_⟩
    rw [List.foldl_append, ← hfirst]
    exact hrest

end Loop

/-! ## The bindings that use the secret -/

variable {s : Upkeep β}

theorem mem_indexed_iff (h : s.store.Sound) {key : String} :
    key ∈ s.indexed ↔ ∃ f, s.store.indexer bySecret = some f ∧
      ∃ b, s.store.get? key = some b ∧ s.secretKey ∈ f b := by
  unfold indexed
  rw [Store.byIndex_eq h]
  cases s.store.indexer bySecret with
  | none => simp
  | some f =>
    rw [List.mem_map]
    constructor
    · rintro ⟨b, hb, rfl⟩
      obtain ⟨hlist, hf⟩ := List.mem_filter.mp hb
      exact ⟨f, rfl, b, (Store.mem_list_iff h).mp hlist, List.contains_iff_mem.mp hf⟩
    · rintro ⟨f', hf', b, hb, hsecret⟩
      obtain rfl := Option.some.inj hf'
      obtain rfl : keyOf b = key := h.keyed hb
      refine ⟨b, List.mem_filter.mpr ⟨(Store.mem_list_iff h).mpr hb, ?_⟩, rfl⟩
      exact List.contains_iff_mem.mpr hsecret

/-- A binding that appears takes no other one's secret away. -/
theorem mem_indexed_upsert (h : s.store.Sound) {b : β} (hb : s.store.get? (keyOf b) = none)
    {key : String} (hkey : key ∈ s.indexed) :
    key ∈ ({ s with store := (s.store.upsert b).1 } : Upkeep β).indexed := by
  obtain ⟨f, hf, a, ha, hsecret⟩ := (mem_indexed_iff h).mp hkey
  refine (mem_indexed_iff (Store.sound_upsert h b)).mpr
    ⟨f, (Store.indexer_upsert s.store b bySecret).trans hf, a, ?_, hsecret⟩
  have hne : key ≠ keyOf b := by
    rintro rfl
    exact Option.some_ne_none a (ha.symm.trans hb)
  exact (Store.get?_upsert_of_ne hne s.store).trans ha

/-! ## One act -/

/-- When the hook has nothing left to do, all has been shown. -/
theorem Underway.shown (h : s.Underway) (hidle : s.idle = true) : s.Shown := by
  unfold Underway at h
  unfold idle at hidle
  split at h
  next r hr =>
    rw [hr] at hidle
    have hwriting : r.writing = none := Option.isNone_iff_eq_none.mp hidle
    have htodo : r.todo = [] := by
      unfold Report.todo
      rw [h.1.finished hwriting, hwriting]
      rfl
    intro hmissed key hkey
    rcases h.2 hmissed key hkey with hm | hcome
    · exact hm
    · rw [htodo] at hcome
      exact absurd hcome List.not_mem_nil
  next => exact h

theorem Shown.upsert (h : s.Shown) {b : β} (hb : s.store.get? (keyOf b) = none) :
    ({ s with store := (s.store.upsert b).1 } : Upkeep β).Shown :=
  fun hmissed key hkey => Report.markedIn_upsert_new (h hmissed key hkey) hb

theorem Underway.upsert (h : s.Underway) {b : β} (hb : s.store.get? (keyOf b) = none) :
    ({ s with store := (s.store.upsert b).1 } : Upkeep β).Underway := by
  unfold Underway at h ⊢
  cases hr : s.report with
  | none =>
    simp only [hr] at h ⊢
    exact h.upsert hb
  | some r =>
    simp only [hr] at h ⊢
    refine ⟨h.1.upsert hb, fun hmissed key hkey => ?_⟩
    rcases h.2 hmissed key hkey with hm | hcome
    · exact Or.inl (Report.markedIn_upsert_new hm hb)
    · exact Or.inr hcome

/-- The loop stands where it stood; what its stage says of the bindings is kept. -/
theorem Stage.of_loop_eq {s' : Upkeep β} (h : s.Stage) (hloop : s'.loop = s.loop)
    (hat : s'.atReady = s.atReady)
    (hbegun : (∀ key ∈ s.begun, key ∈ s.indexed) → ∀ key ∈ s'.begun, key ∈ s'.indexed)
    (hunderway : s.Underway → s'.Underway) : s'.Stage := by
  unfold Stage at h ⊢
  rw [hloop, hat]
  cases hp : s.loop.beat.phase with
  | ticking | ended =>
    simp only [hp] at h ⊢
    exact h
  | waiting d =>
    simp only [hp] at h ⊢
    exact ⟨h.1, h.2.1, hbegun h.2.2⟩
  | reporting r =>
    simp only [hp] at h ⊢
    refine ⟨h.1, h.2.1, ?_⟩
    cases hc : s.loop.calling with
    | true =>
      simp only [hc, if_true] at h ⊢
      exact fun hready => hunderway (h.2.2 hready)
    | false =>
      simp only [hc, Bool.false_eq_true, if_false] at h ⊢
      exact hbegun h.2.2

theorem kept_add (h : Kept s) (b : β) : Kept (s.add b) := by
  unfold add
  split
  next => exact h
  next hb =>
    refine ⟨Store.sound_upsert h.sound b, ?_, fun hat => (h.shown hat).upsert hb, h.called⟩
    refine h.stage.of_loop_eq rfl rfl (fun hbegun key hkey => ?_) fun hunderway => ?_
    · exact mem_indexed_upsert h.sound hb (hbegun key hkey)
    · exact hunderway.upsert hb

/-- The loop is in no other phase while the hook has not returned. -/
theorem Stage.reporting (h : s.Stage) (hc : s.loop.calling = true) :
    ∃ r, s.loop.beat.phase = .reporting r := by
  unfold Stage at h
  split at h
  next => exact absurd (h.1.symm.trans hc) (by simp)
  next => exact absurd (h.1.symm.trans hc) (by simp)
  next r hp => exact ⟨r, hp⟩
  next => exact absurd (h.symm.trans hc) (by simp)

theorem stage_calling {r : Readiness} (hp : s.loop.beat.phase = .reporting r)
    (hc : s.loop.calling = true) (hat : s.atReady = false)
    (hready : s.loop.beat.ready = (r == .ready)) (hunderway : r = .ready → s.Underway) :
    s.Stage := by
  simp only [Stage, hp, hc, if_true]
  exact ⟨hat, hready, hunderway⟩

section Lawful

variable [DecidableEq τ] [LawfulConditioned β τ]

/-- The hook makes a ready report of all that used the secret when the heartbeat began. -/
theorem underway_call (h : s.store.Sound) (hbegun : ∀ key ∈ s.begun, key ∈ s.indexed)
    (reading : τ) : (s.call .ready reading).Underway := by
  unfold Underway call Report.onStore
  unfold indexed at hbegun
  cases hlist : s.store.byIndex bySecret s.secretKey with
  | error e =>
    simp only [hlist, Except.map] at hbegun ⊢
    exact fun _ key hkey => absurd (hbegun key hkey) List.not_mem_nil
  | ok bs =>
    simp only [hlist, Except.map] at hbegun ⊢
    obtain ⟨hdistinct, hstored⟩ := Store.listed_of_byIndex h hlist
    obtain ⟨hproceeds, hcovers⟩ :=
      Report.begins hdistinct hstored s.secretKey s.policy reading
    exact ⟨hproceeds, fun _ key hkey => hcovers key (hbegun key hkey)⟩

theorem underway_answer (h : s.Underway) {r : Report β} (hr : s.report = some r)
    {w : Report.Write β} (hw : r.writing = some w) (signal : Retry.Signal) (reading : τ) :
    ({ s with
      report := some (r.step signal reading).1
      store := Report.landed s.store w signal
      missed := s.missed || Report.givenUp w signal } : Upkeep β).Underway := by
  unfold Underway at h ⊢
  simp only [hr] at h ⊢
  obtain ⟨hproceeds, hkeeps⟩ := Report.proceeds_step h.1 hw signal reading
  refine ⟨hproceeds, fun hmissed key hkey => ?_⟩
  obtain ⟨hbefore, hnow⟩ := Bool.or_eq_false_iff.mp hmissed
  exact hkeeps hnow key (h.2 hbefore key hkey)

theorem kept_answer (h : Kept s) (signal : Retry.Signal) (reading : τ) :
    Kept (s.answer signal reading) := by
  unfold answer
  split
  next r w hrw =>
    split
    next hc =>
      obtain ⟨r', hr, hw⟩ := Option.bind_eq_some_iff.mp hrw
      obtain ⟨w', hwriting, he⟩ := Option.map_eq_some_iff.mp hw
      obtain ⟨rfl, rfl⟩ := Prod.mk.inj he
      obtain ⟨readiness, hp⟩ := h.stage.reporting hc
      have hs := h.stage
      simp only [Stage, hp, hc, if_true] at hs
      obtain ⟨hat, hready, hunderway⟩ := hs
      refine ⟨Report.sound_landed h.sound _ signal, stage_calling hp hc hat hready fun he => ?_,
        fun hat' => absurd (hat.symm.trans hat') (by simp), h.called⟩
      exact underway_answer (hunderway he) hr hwriting signal reading
    next => exact h
  next => exact h

end Lawful

/-! ## The loop goes on -/

section Follow

variable [DecidableEq τ] {loop : Supervision} {reading : τ}

theorem follow_ticking (h : loop.beat.phase = .ticking) :
    s.follow loop reading = { s with loop, atReady := loop.beat.ready } := by
  unfold follow
  rw [h]

theorem follow_waiting {d : Nat} (h : loop.beat.phase = .waiting d) :
    s.follow loop reading =
      if s.loop.beat.phase = .ticking then { s with loop, begun := s.indexed }
      else { s with loop } := by
  unfold follow
  rw [h]

theorem follow_reporting {r : Readiness} (h : loop.beat.phase = .reporting r) :
    s.follow loop reading =
      if loop.calling && !s.loop.calling then { s with loop, atReady := false }.call r reading
      else { s with loop, atReady := false } := by
  unfold follow
  rw [h]

theorem follow_ended {o : Outcome} (h : loop.beat.phase = .ended o) :
    s.follow loop reading = { s with loop } := by
  unfold follow
  rw [h]

theorem follow_self (h : s.Stage) (reading : τ) : s.follow s.loop reading = s := by
  unfold Stage at h
  cases hp : s.loop.beat.phase with
  | ticking =>
    simp only [hp] at h
    rw [follow_ticking hp, ← h.2]
  | waiting d => rw [follow_waiting hp, if_neg (by simp [hp])]
  | reporting r =>
    simp only [hp] at h
    rw [follow_reporting hp, Bool.and_not_self, if_neg (by simp), ← h.1]
  | ended o => rw [follow_ended hp]

end Follow

/-- A mark that is not a call. -/
theorem not_called {marks : List (Nat × Mark)} {now t : Nat} {state : BarrierState}
    {r : Readiness} (h : (marks ++ [(now, Mark.published state)]).getLast? = some (t, .called r)) :
    False := by
  rw [List.getLast?_concat] at h
  simp at h

variable [DecidableEq τ] [LawfulConditioned β τ]

theorem kept_follow (h : Kept s) {loop : Supervision} (ht : Supervision.Turn s.loop s.idle loop)
    (reading : τ) : Kept (s.follow loop reading) := by
  have hs := h.stage
  cases ht with
  | idle =>
    rw [follow_self h.stage reading]
    exact h
  | stops | breaks =>
    rw [follow_ended rfl]
    exact ⟨h.sound, rfl, h.shown, h.called⟩
  | waits hp =>
    simp only [Stage, hp] at hs
    rw [follow_waiting rfl, if_pos hp]
    exact ⟨h.sound, ⟨rfl, hs.2, fun key hkey => hkey⟩, h.shown, fun t r hm => (not_called hm).elim⟩
  | settles hp _ hready =>
    simp only [Stage, hp] at hs
    rw [follow_ticking rfl]
    have hat : s.atReady = true := hs.2.1.trans hready
    exact ⟨h.sound, ⟨rfl, rfl⟩, fun _ => h.shown hat, fun t r hm => (not_called hm).elim⟩
  | decides hp =>
    simp only [Stage, hp] at hs
    rw [follow_reporting rfl, if_neg (by simp [Supervision.note])]
    exact ⟨h.sound, ⟨rfl, rfl, hs.2.2⟩, fun hat => absurd hat (by simp),
      fun t r hm => (not_called hm).elim⟩
  | @calls r hp _ hc =>
    simp only [Stage, hp, hc, Bool.false_eq_true, if_false] at hs
    have hloop : ({ s.loop with calling := true }.note (.called r)).beat.phase = .reporting r := hp
    rw [follow_reporting hloop, if_pos (by rw [hc]; rfl)]
    refine ⟨h.sound, stage_calling hp rfl rfl hs.2.1 ?_, fun hat => absurd hat (by simp [call]),
      fun t r hm => rfl⟩
    rintro rfl
    exact underway_call h.sound hs.2.2 reading
  | @returns r hp _ hc hidle =>
    simp only [Stage, hp, hc, if_true] at hs
    rw [follow_ticking rfl]
    refine ⟨h.sound, ⟨rfl, rfl⟩, fun hat => ?_, h.called⟩
    have hready : r = .ready := eq_of_beq (hs.2.1.symm.trans hat)
    exact (hs.2.2 hready).shown hidle

theorem kept_perform (h : Kept s) (a : Act β τ) : Kept (s.perform a) := by
  cases a with
  | pass time => exact ⟨h.sound, h.stage, h.shown, h.called⟩
  | shutDown => exact ⟨h.sound, h.stage, h.shown, h.called⟩
  | add b => exact kept_add h b
  | turn answers reading =>
    exact kept_follow h (Supervision.turn_cases s.loop answers s.idle) reading
  | answer signal reading => exact kept_answer h signal reading

theorem kept_run (acts : List (Act β τ)) : ∀ {s : Upkeep β}, Kept s → Kept (s.run acts) := by
  induction acts with
  | nil => exact fun h => h
  | cons a acts ih => exact fun h => ih (kept_perform h a)

/-- **Bindings mirror readiness.**  Take a run over a store that was filled in any way, and whatever
happens: time passes, bindings appear, waits are answered in time or in vain, the client writes or
fails, the shutdown comes.  Whenever the last outcome was ready and its report is over, and no write
of the last report was given up, each binding that used the secret when the reported heartbeat began
says that the informers have synced.  As long as no heartbeat has begun since the hook was called,
that is the last heartbeat; and between reports it depends on the last outcome alone whether it was
ready. -/
theorem marked_of_atReady (b : Barrier) (waiters start : Nat) (calls : List (Store.Mutation β))
    (secretKey : String) (policy : BackoffPolicy) (acts : List (Act β τ)) :
    let s := (begin b waiters start (.after calls) secretKey policy).run acts
    (∃ turns, s.loop = Supervision.run b waiters start turns) ∧
    (s.atReady = true → s.missed = false → ∀ key ∈ s.reported,
      ∃ binding, s.store.get? key = some binding ∧ Report.Marked binding) ∧
    (∀ t r, s.loop.marks.getLast? = some (t, .called r) → s.reported = s.begun) ∧
    (∀ d, s.loop.beat.phase = .ticking ∨ s.loop.beat.phase = .waiting d →
      s.atReady = s.loop.beat.ready) := by
  intro s
  have hbegin : Kept (begin b waiters start (.after calls) secretKey policy) :=
    ⟨Store.sound_after calls, ⟨rfl, rfl⟩, fun hat => absurd hat (by simp [begin]), fun _ _ _ => rfl⟩
  have h : Kept s := kept_run acts hbegin
  refine ⟨loop_run acts _, h.shown, h.called, fun d hp => ?_⟩
  have hs := h.stage
  unfold Stage at hs
  rcases hp with hp | hp
  · simp only [hp] at hs
    exact hs.2
  · simp only [hp] at hs
    exact hs.2.1

end Upkeep

/-! ## Two runs over bindings of a scenario -/

namespace Scenario

instance : Object Binding := ⟨Binding.ns, Binding.name⟩

instance : Conditioned Binding Moment :=
  ⟨Binding.conditions, fun b conditions => { b with conditions }⟩

instance : LawfulConditioned Binding Moment where
  keyOf_withConditions _ _ := rfl
  conditions_withConditions _ _ := rfl

end Scenario

namespace Upkeep

open Scenario

/-- A binding that uses the secret `ns/s` and has no conditions. -/
def unreported (name : String) : Binding := ⟨none, name, ["ns/s"], []⟩

/-- A run with some bindings, three attempts for each write, and a heartbeat every ten
nanoseconds. -/
def watching (names : List String) (acts : List (Act Binding Moment)) : Upkeep Binding :=
  (begin ⟨10, .initializing, 0, false⟩ 1 0
    (.after (.addIndex bySecret Binding.secrets :: names.map fun name => .upsert (unreported name)))
    "ns/s" ⟨3, 1000, 10, 100⟩).run acts

/-- A heartbeat in vain and its report; then one that is ready, and whose report fails at first to
write `b2`. -/
def recovery : List (Act Binding Moment) :=
  [.turn none (.reading 0), .pass 5, .turn (some ["pods"]) (.reading 5), .turn none (.reading 5),
    .answer .succeeded (.reading 5), .answer .succeeded (.reading 5), .turn none (.reading 5),
    .pass 5, .turn none (.reading 10), .turn (some []) (.reading 10), .turn none (.reading 10),
    .answer .succeeded (.reading 10), .answer .timedOut (.reading 11),
    .answer .pauseOver (.reading 12), .answer .succeeded (.reading 12), .turn none (.reading 12)]

theorem marked_of_recovered :
    let s := watching ["b1", "b2"] recovery
    s.atReady = true ∧ s.missed = false ∧ s.begun = ["b1", "b2"] ∧
      ∀ key ∈ s.begun, Report.MarkedIn s.store key := by
  intro s
  have hat : s.atReady = true := by decide +kernel
  have hmissed : s.missed = false := by decide +kernel
  have hbegun : s.begun = ["b1", "b2"] := by decide +kernel
  have hreported : s.reported = s.begun := by decide +kernel
  obtain ⟨-, hmarked, -⟩ := marked_of_atReady ⟨10, .initializing, 0, false⟩ 1 0
    (.addIndex bySecret Binding.secrets :: ["b1", "b2"].map fun name => .upsert (unreported name))
    "ns/s" ⟨3, 1000, 10, 100⟩ recovery
  refine ⟨hat, hmissed, hbegun, ?_⟩
  rw [← hreported]
  exact hmarked hat hmissed

/-- A binding appears after the recovery, and the next heartbeat is ready once more. -/
def newcomer : List (Act Binding Moment) :=
  [.turn none (.reading 0), .turn (some []) (.reading 0), .turn none (.reading 0),
    .answer .succeeded (.reading 1), .turn none (.reading 1), .add (unreported "b2"),
    .pass 10, .turn none (.reading 10), .turn (some []) (.reading 10)]

/-- A ready heartbeat after a ready one writes nothing, so a binding that has appeared in between
stays as it is. -/
theorem unmarked_of_added :
    let s := watching ["b1"] newcomer
    s.loop.barrier.state = .ready ∧ s.atReady = true ∧ s.missed = false ∧ "b2" ∈ s.begun ∧
      ¬Report.MarkedIn s.store "b2" := by
  refine ⟨by decide +kernel, by decide +kernel, by decide +kernel, by decide +kernel, ?_⟩
  rintro ⟨b, hb, hmarked⟩
  have hstored : (watching ["b1"] newcomer).store.get? "b2" = some (unreported "b2") := by
    decide +kernel
  obtain rfl := Option.some.inj (hstored.symm.trans hb)
  unfold Report.Marked at hmarked
  exact absurd hmarked (by decide)

end Upkeep

end InformerHub
