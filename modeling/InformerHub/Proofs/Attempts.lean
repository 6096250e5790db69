import InformerHub.Proofs.Upkeep

/-!
# What an attempt to write carries

A report takes one snapshot of the bindings and then writes them one after the other, with attempts
and pauses, while the informer of the bindings goes on changing the store.  `Rollout` is one such
report together with those changes and the answers of the client; every attempt is noted with what
the store holds at the moment it starts.

> Every attempt carries a binding of the snapshot, with nothing changed but the condition that the
> report is about (`carries_of_attempted`).

So it carries what is stored as long as nothing has changed the binding since the report began
(`Mutation.Keeps`).  A binding that was changed meanwhile is written as it was read, and one that
was deleted is written all the same (`lags_of_changed`).

`Condition.Rewrites` says what writing a condition does to a list, and `tracks_step` that a report
on its way has nothing but bindings of its snapshot before it.
-/

namespace InformerHub

namespace Condition

variable {τ : Type} {c : Condition τ} {cs ds : List (Condition τ)}

/-- Nothing is changed in a list but the condition that `c` is: it is written over the first of its
kind, or it is new, and then the others may stand in another order. -/
inductive Rewrites (c : Condition τ) : List (Condition τ) → List (Condition τ) → Prop
  | instead {before after : List (Condition τ)} {old : Condition τ} (hkind : old.kind = c.kind)
      (hfirst : ∀ d ∈ before, d.kind ≠ c.kind) :
    Rewrites c (before ++ old :: after) (before ++ carryOver old c :: after)
  | new {cs ds : List (Condition τ)} (habsent : ∀ d ∈ cs, d.kind ≠ c.kind)
      (hperm : ds.Perm (c :: cs)) : Rewrites c cs ds

/-- Where the first condition of a kind stands, and what any write of that kind does to it. -/
theorem overwrite_of_get? {old : Condition τ} (h : get? cs c.kind = some old) :
    ∃ before after, cs = before ++ old :: after ∧ old.kind = c.kind ∧
      (∀ d ∈ before, d.kind ≠ c.kind) ∧
      ∀ d, d.kind = c.kind → overwrite d cs = before ++ carryOver old d :: after := by
  unfold get? at h
  obtain ⟨hkind, before, after, rfl, hbefore⟩ := List.find?_eq_some_iff_append.mp h
  have hkind : old.kind = c.kind := of_decide_eq_true hkind
  have hfirst : ∀ d ∈ before, d.kind ≠ c.kind := fun d hd => by simpa using hbefore d hd
  refine ⟨before, after, rfl, hkind, hfirst, fun e he => ?_⟩
  clear h hbefore
  induction before with
  | nil => simp [overwrite, hkind, he]
  | cons d before ih =>
    rw [List.cons_append, overwrite, if_neg fun hd => hfirst d List.mem_cons_self (hd.trans he),
      ih fun d' hd' => hfirst d' (List.mem_cons_of_mem d hd')]
    rfl

theorem rewrites_overwrite {old : Condition τ} (h : get? cs c.kind = some old) :
    Rewrites c cs (overwrite c cs) := by
  obtain ⟨before, after, hcs, hkind, hfirst, hover⟩ := overwrite_of_get? h
  rw [hover c rfl, hcs]
  exact .instead hkind hfirst

/-- Writing a condition changes no other. -/
theorem rewrites_set (cs : List (Condition τ)) (c : Condition τ) : Rewrites c cs (set cs c) := by
  unfold set
  split
  next old h => exact rewrites_overwrite h
  next h =>
    refine .new (fun d hd => ?_) ?_
    · simpa using List.find?_eq_none.mp h d hd
    · unfold sortByKind
      exact (List.mergeSort_perm _ _).trans (List.perm_append_singleton c cs)

/-- A condition of another kind was there before. -/
theorem Rewrites.mem_of_kind_ne (h : Rewrites c cs ds) {d : Condition τ} (hd : d ∈ ds)
    (hkind : d.kind ≠ c.kind) : d ∈ cs := by
  cases h with
  | @instead before after old hold _ =>
    rcases List.mem_append.mp hd with hleft | hright
    · exact List.mem_append_left _ hleft
    · rcases List.mem_cons.mp hright with rfl | hafter
      · exact absurd ((kind_carryOver old c).trans rfl) hkind
      · exact List.mem_append_right _ (List.mem_cons_of_mem old hafter)
  | new _ hperm =>
    rcases List.mem_cons.mp (hperm.mem_iff.mp hd) with rfl | hmem
    · exact absurd rfl hkind
    · exact hmem

end Condition

namespace Retry

/-- Whether a phase waits for a signal. -/
def Phase.awaits : Phase → Signal → Bool
  | .attempting, .pauseOver => false
  | .attempting, _ => true
  | .pausing _, .pauseOver => true
  | _, _ => false

end Retry

namespace Store.Mutation

variable {α : Type} [Object α]

/-- An item that is stored is still stored after the call. -/
def Keeps (a : α) (m : Mutation α) : Prop :=
  ∀ content : String → Option α, content (keyOf a) = some a → m.update content (keyOf a) = some a

theorem get?_foldl_of_keeps {a : α} (ms : List (Mutation α)) (h : ∀ m ∈ ms, m.Keeps a) :
    ∀ {s : Store α}, s.get? (keyOf a) = some a → (ms.foldl apply s).get? (keyOf a) = some a := by
  induction ms with
  | nil => exact fun hs => hs
  | cons m ms ih =>
    intro s hs
    refine ih (fun m' hm' => h m' (List.mem_cons_of_mem m hm')) ?_
    exact (apply_items s m (keyOf a)).trans (h m List.mem_cons_self s.items.get? hs)

end Store.Mutation

variable {β τ : Type} [Object β] [Conditioned β τ]

/-- An attempt to write a binding. -/
structure Attempt (β : Type) where
  /-- What is to be written. -/
  value : β
  /-- What the store holds under the binding's key when the attempt starts. -/
  held : Option β
  /-- The changes of the store between the snapshot and the attempt. -/
  since : List (Store.Mutation β)

/-- A report on the bindings of a store that goes on changing. -/
structure Rollout (β : Type) where
  store : Store β
  /-- None if the bindings could not be listed. -/
  report : Option (Report β)
  /-- The changes since the report began. -/
  changes : List (Store.Mutation β)
  /-- The attempts made so far, the first one first. -/
  attempts : List (Attempt β)

namespace Rollout

inductive Act (β τ : Type) where
  /-- The informer of the bindings changes the store. -/
  | change (m : Store.Mutation β)
  /-- The client answers an attempt, or a time is over, at a clock reading. -/
  | answer (signal : Retry.Signal) (reading : τ)

/-- The run at a moment at which an attempt starts if the report stands at one. -/
def attempt (s : Rollout β) : Rollout β :=
  match s.report.bind Report.writing with
  | some w =>
    if w.attempts.phase = .attempting then
      let held := s.store.get? (keyOf w.updated)
      { s with attempts := s.attempts ++ [⟨w.updated, held, s.changes⟩] }
    else s
  | none => s

section Run

variable [DecidableEq τ]

/-- A report that begins over a store: the bindings are listed, and the first of them that the
outcome changes is attempted. -/
def begin (store : Store β) (secretKey : String) (policy : BackoffPolicy) (readiness : Readiness)
    (reading : τ) : Rollout β :=
  let report := match Report.onStore secretKey policy readiness store reading with
    | .ok (report, _) => some report
    | .error _ => none
  attempt ⟨store, report, [], []⟩

/-- An answer that the write under way waits for. -/
def answer (s : Rollout β) (signal : Retry.Signal) (reading : τ) : Rollout β :=
  match s.report with
  | some r => match r.writing with
    | some w =>
      if w.attempts.phase.awaits signal then
        attempt { s with report := some (r.step signal reading).1 }
      else s
    | none => s
  | none => s

def perform (s : Rollout β) : Act β τ → Rollout β
  | .change m => { s with store := m.apply s.store, changes := s.changes ++ [m] }
  | .answer signal reading => s.answer signal reading

def run (s : Rollout β) (acts : List (Act β τ)) : Rollout β := acts.foldl perform s

end Run

/-! ## Bindings of the snapshot -/

/-- A binding is stored and uses the secret. -/
def Uses (store : Store β) (secretKey : String) (b : β) : Prop :=
  store.get? (keyOf b) = some b ∧
    ∃ secrets, store.indexer bySecret = some secrets ∧ secretKey ∈ secrets b

/-- A value is a binding with nothing changed but the condition that shows the outcome. -/
def Carries (readiness : Readiness) (b value : β) : Prop :=
  ∃ (now : τ) (cs : List (Condition τ)), value = Conditioned.withConditions b cs ∧
    Condition.Rewrites (readiness.condition now) (Conditioned.conditions b) cs

/-- What is listed uses the secret. -/
theorem uses_of_byIndex {store : Store β} (h : store.Sound) {secretKey : String} {bs : List β}
    (hlist : store.byIndex bySecret secretKey = .ok bs) : ∀ b ∈ bs, Uses store secretKey b := by
  intro b hb
  refine ⟨(Store.listed_of_byIndex h hlist).2 b hb, ?_⟩
  rw [Store.byIndex_eq h] at hlist
  split at hlist
  next secrets hs =>
    obtain rfl := Except.ok.inj hlist
    exact ⟨secrets, hs, List.contains_iff_mem.mp (List.mem_filter.mp hb).2⟩
  next => exact absurd hlist (by simp)

omit [Object β] in
theorem carries_updated (readiness : Readiness) (now : τ) (b : β) :
    Carries readiness b (Report.updated readiness now b) :=
  ⟨now, _, rfl, Condition.rewrites_set _ _⟩

/-- A report on its way has nothing before it but bindings of the snapshot. -/
structure Tracks (start : Store β) (secretKey : String) (readiness : Readiness) (r : Report β) :
    Prop where
  outcome : r.readiness = readiness
  remaining : ∀ b ∈ r.remaining, Uses start secretKey b
  writing : ∀ w, r.writing = some w → Uses start secretKey w.read ∧
    Carries readiness w.read w.updated

variable {start : Store β} {secretKey : String} {readiness : Readiness}

section Tracks

variable [DecidableEq τ] {r : Report β}

theorem tracks_advance (hr : r.readiness = readiness) (now : τ) {bs : List β}
    (hbs : ∀ b ∈ bs, Uses start secretKey b) :
    Tracks start secretKey readiness (r.advance now bs).1 := by
  obtain ⟨skipped, rest, rfl, -, hreadiness, hremaining, hwriting⟩ := Report.advance_spec r now bs
  have hrest : ∀ b ∈ rest, Uses start secretKey b :=
    fun b hb => hbs b (List.mem_append_right skipped hb)
  refine ⟨hreadiness.trans hr, fun b hb => ?_, fun w hw => ?_⟩
  · rw [hremaining] at hb
    exact hrest b (List.mem_of_mem_tail hb)
  · rw [hwriting] at hw
    obtain ⟨b, hb, rfl⟩ := Option.map_eq_some_iff.mp hw
    rw [hr]
    exact ⟨hrest b (List.mem_of_mem_head? hb), carries_updated readiness now b⟩

theorem tracks_step (h : Tracks start secretKey readiness r) (signal : Retry.Signal) (now : τ) :
    Tracks start secretKey readiness (r.step signal now).1 := by
  cases hw : r.writing with
  | none =>
    unfold Report.step
    rw [hw]
    exact h
  | some w =>
    rcases Report.step_cases hw start signal now with ⟨he, -⟩ | ⟨he, -⟩ | ⟨attempts, he, -⟩
    · rw [he]
      exact tracks_advance (r := { r with written := r.written + 1 }) h.outcome now h.remaining
    · rw [he]
      exact tracks_advance h.outcome now h.remaining
    · -- the same write once more
      rw [he]
      refine ⟨h.outcome, h.remaining, fun w' hw' => ?_⟩
      obtain rfl := Option.some.inj hw'
      exact h.writing w hw

end Tracks

/-! ## Attempts -/

/-- An attempt is one for a binding of the snapshot, and is noted with what has become of it. -/
def Sincere (start : Store β) (secretKey : String) (readiness : Readiness) (a : Attempt β) : Prop :=
  ∃ b, Uses start secretKey b ∧ keyOf a.value = keyOf b ∧ Carries readiness b a.value ∧
    a.held = (a.since.foldl Store.Mutation.apply start).get? (keyOf b)

/-- What holds at every time of a report. -/
structure Kept (start : Store β) (secretKey : String) (readiness : Readiness) (s : Rollout β) :
    Prop where
  store : s.store = s.changes.foldl Store.Mutation.apply start
  report : ∀ r, s.report = some r → Tracks start secretKey readiness r
  attempts : ∀ a ∈ s.attempts, Sincere start secretKey readiness a

variable [LawfulConditioned β τ] {s : Rollout β}

theorem kept_attempt (h : Kept start secretKey readiness s) :
    Kept start secretKey readiness s.attempt := by
  unfold attempt
  split
  next w hw =>
    split
    next =>
      refine ⟨h.store, h.report, fun a ha => ?_⟩
      rcases List.mem_append.mp ha with hold | hnew
      · exact h.attempts a hold
      · obtain rfl := List.mem_singleton.mp hnew
        obtain ⟨r, hr, hwriting⟩ := Option.bind_eq_some_iff.mp hw
        obtain ⟨huses, hcarries⟩ := (h.report r hr).writing w hwriting
        have hkey : keyOf w.updated = keyOf w.read := by
          obtain ⟨now, cs, hvalue, -⟩ := hcarries
          rw [hvalue]
          exact LawfulConditioned.keyOf_withConditions w.read cs
        refine ⟨w.read, huses, hkey, hcarries, ?_⟩
        rw [← h.store, ← hkey]
    next => exact h
  next => exact h

variable [DecidableEq τ]

theorem kept_begin (h : start.Sound) (policy : BackoffPolicy) (reading : τ) :
    Kept start secretKey readiness (begin start secretKey policy readiness reading) := by
  refine kept_attempt ⟨rfl, fun r hr => ?_, fun a ha => absurd ha List.not_mem_nil⟩
  unfold Report.onStore at hr
  cases hlist : start.byIndex bySecret secretKey with
  | error e => simp [hlist, Except.map] at hr
  | ok bs =>
    simp only [hlist, Except.map] at hr
    obtain rfl := Option.some.inj hr
    refine tracks_advance ?_ reading (uses_of_byIndex h hlist)
    rfl

theorem kept_perform (h : Kept start secretKey readiness s) (a : Act β τ) :
    Kept start secretKey readiness (s.perform a) := by
  cases a with
  | change m =>
    refine ⟨?_, h.report, h.attempts⟩
    show m.apply s.store = (s.changes ++ [m]).foldl Store.Mutation.apply start
    rw [h.store, List.foldl_append]
    rfl
  | answer signal reading =>
    show Kept start secretKey readiness (s.answer signal reading)
    unfold answer
    split
    next r hr =>
      split
      next w hw =>
        split
        next =>
          refine kept_attempt ⟨h.store, fun r' hr' => ?_, h.attempts⟩
          obtain rfl := Option.some.inj hr'
          exact tracks_step (h.report r hr) signal reading
        next => exact h
      next => exact h
    next => exact h

theorem kept_run (acts : List (Act β τ)) : ∀ {s : Rollout β},
    Kept start secretKey readiness s → Kept start secretKey readiness (s.run acts) := by
  induction acts with
  | nil => exact fun h => h
  | cons a acts ih => exact fun h => ih (kept_perform h a)

/-- **What an attempt carries.**  Take a report that begins over a store that was filled in any way,
and whatever happens while it is on its way: the store is changed, attempts succeed, fail or are cut
off, pauses end.  Every attempt is for a binding that was stored and used the secret when the report
began, and carries it as it was stored then, with nothing changed but the condition that shows the
outcome.  If every change since has kept the binding, that is what the store holds when the attempt
starts. -/
theorem carries_of_attempted (calls : List (Store.Mutation β)) (secretKey : String)
    (policy : BackoffPolicy) (readiness : Readiness) (reading : τ) (acts : List (Act β τ)) :
    let start : Store β := .after calls
    let s := (begin start secretKey policy readiness reading).run acts
    ∀ a ∈ s.attempts, ∃ b, Uses start secretKey b ∧ keyOf a.value = keyOf b ∧
      Carries readiness b a.value ∧ ((∀ m ∈ a.since, m.Keeps b) → a.held = some b) := by
  intro start s a ha
  have h : Kept start secretKey readiness s :=
    kept_run acts (kept_begin (Store.sound_after calls) policy reading)
  obtain ⟨b, huses, hkey, hcarries, hheld⟩ := h.attempts a ha
  refine ⟨b, huses, hkey, hcarries, fun hkeeps => ?_⟩
  rw [hheld]
  exact Store.Mutation.get?_foldl_of_keeps a.since hkeeps huses.1

/-! ## A slow write -/

section Slow

open Scenario

/-- The binding `b2` with a condition on its connection; its informers have not synced so far. -/
def connected (status : ConditionStatus) : Binding :=
  ⟨none, "b2", ["ns/s"], [⟨"Connected", status, .unrated, "", "", .reading 0⟩,
    .failing informersSynced "" .error "" (.reading 0)]⟩

/-- Three bindings and the index by secret. -/
def threeBindings : List (Store.Mutation Binding) :=
  [.addIndex bySecret Binding.secrets, .upsert (Upkeep.unreported "b1"),
    .upsert (connected .holds), .upsert (Upkeep.unreported "b3")]

/-- While the first binding is written, the condition of the second is replaced and the third is
deleted. -/
def meanwhile : List (Act Binding Moment) :=
  [.change (.upsert (connected .fails)), .change (.delete "b3"),
    .answer .timedOut (.reading 1), .answer .pauseOver (.reading 2),
    .answer .succeeded (.reading 3), .answer .succeeded (.reading 4)]

def slow : Rollout Binding :=
  (begin (.after threeBindings) "ns/s" ⟨3, 1000, 10, 100⟩ .ready (.reading 0)).run meanwhile

/-- The second attempt for `b1` carries what is stored, two changes of other bindings aside. -/
theorem carries_of_slow :
    slow.attempts.map (fun a => keyOf a.value) = ["b1", "b1", "b2", "b3"] ∧
      ∀ a ∈ slow.attempts, ∃ b, Uses (.after threeBindings) "ns/s" b ∧ keyOf a.value = keyOf b ∧
        Carries .ready b a.value ∧ ((∀ m ∈ a.since, m.Keeps b) → a.held = some b) := by
  have hcarries :=
    carries_of_attempted threeBindings "ns/s" ⟨3, 1000, 10, 100⟩ .ready (.reading 0) meanwhile
  exact ⟨by decide +kernel, hcarries⟩

/-- What is attempted for `b2` brings back the condition that was replaced, and `b3` is attempted
although it is stored no more. -/
theorem lags_of_changed :
    (∃ a ∈ slow.attempts, a.held = some (connected .fails) ∧
      ¬Carries .ready (connected .fails) a.value) ∧
    ∃ a ∈ slow.attempts, a.held = none := by
  have hnoted : slow.attempts.map (fun a => (a.value.conditions.contains
      ⟨"Connected", .holds, .unrated, "", "", .reading 0⟩, a.held)) =
      [(false, some (Upkeep.unreported "b1")), (false, some (Upkeep.unreported "b1")),
        (true, some (connected .fails)), (false, none)] := by
    decide +kernel
  constructor
  · obtain ⟨a, ha, he⟩ : ∃ a ∈ slow.attempts, _ = (true, some (connected .fails)) :=
      List.mem_map.mp (by rw [hnoted]; simp)
    obtain ⟨hold, hheld⟩ := Prod.mk.inj he
    refine ⟨a, ha, hheld, ?_⟩
    rintro ⟨now, cs, hvalue, hrewrites⟩
    rw [hvalue] at hold
    -- the old condition is of another kind, so it would have to be stored
    have hstored := hrewrites.mem_of_kind_ne (List.contains_iff_mem.mp hold)
      (show "Connected" ≠ informersSynced by decide)
    exact absurd hstored (by decide)
  · obtain ⟨a, ha, he⟩ : ∃ a ∈ slow.attempts, _ = (false, none) :=
      List.mem_map.mp (by rw [hnoted]; simp)
    exact ⟨a, ha, (Prod.mk.inj he).2⟩

end Slow

end Rollout

end InformerHub
