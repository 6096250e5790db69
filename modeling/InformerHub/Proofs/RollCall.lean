import Mathlib.Data.List.Induction
import Mathlib.Data.List.Infix
import InformerHub.Proofs.Foundry
import InformerHub.Proofs.Vigil
import InformerHub.Scenario.Object

/-!
# When a wait for caches returns

Somebody waits until the informers of a factory have synced, while others ask the factory for more
informers, start them, and run them.  `RollCall` is such a wait with everything around it: it takes
turns, its token may be cancelled, and time passes up to the end of a pause.

> The wait looks at regular intervals and returns with the first look that finds all started
> informers synced, or at once when it is cancelled (`returns_at_first_look`).

The interval is the factory's, as far as a timer reaches.  What the wait returns is the status at
that instant: one entry for each informer that was started by then.

`Kept` is the invariant.  It says where the wait stands between its looks, and that each look that
is past was in vain (`Vain`); a turn is what makes a look one of the past (`kept_turn`).
-/

namespace InformerHub

open Duration

/-! ## The factory meanwhile -/

namespace Foundry

variable {α : Nat → Type} [∀ i, Object (α i)]

/-- An act does to the factory what a call of the factory does, or nothing. -/
theorem factory_perform (s : Foundry α) (a : Act α) :
    (∃ resource itemType, (s.perform a).factory =
        (s.factory.obtain resource itemType s.built.length).1) ∨
      (s.perform a).factory = s.factory.start.1 ∨ (s.perform a).factory = s.factory := by
  cases a with
  | ask resource itemType =>
    refine Or.inl ⟨resource, itemType, ?_⟩
    show (s.ask resource itemType).factory = (s.answer resource itemType).1
    unfold ask
    split
    next h => rw [h]
    next h => rw [h]
  | start token => exact Or.inr (Or.inl rfl)
  | begin job now =>
    refine Or.inr (Or.inr ?_)
    show (s.begin job now).factory = s.factory
    unfold begin
    split
    · dsimp only
      split <;> rfl
    · rfl
  | move i a => exact Or.inr (Or.inr rfl)

theorem pollInterval_perform (s : Foundry α) (a : Act α) :
    (s.perform a).factory.pollInterval = s.factory.pollInterval := by
  rcases factory_perform s a with ⟨resource, itemType, h⟩ | h | h
  · rw [h]
    exact Vigil.obtain_pollInterval s.factory resource itemType s.built.length
  · rw [h]
    rfl
  · rw [h]

/-- What a factory has started it runs from then on. -/
theorem runs_perform {s : Foundry α} {i : Nat} (h : s.factory.Runs i) (a : Act α) :
    (s.perform a).factory.Runs i := by
  rcases factory_perform s a with ⟨resource, itemType, hf⟩ | hf | hf
  · rw [hf]
    exact h.obtain resource itemType s.built.length
  · rw [hf]
    exact h.start
  · rw [hf]
    exact h

end Foundry

/-- A wait for the informers of a factory. -/
structure RollCall (α : Nat → Type) where
  foundry : Foundry α
  /-- None before the first look. -/
  wait : Option SyncWait
  /-- In nanoseconds. -/
  now : Nat
  cancelled : Bool
  /-- When the wait returned, and with which status. -/
  returned : Option (Nat × List (String × Bool))

namespace RollCall

/-- What may happen while somebody waits. -/
inductive Act (α : Nat → Type) where
  /-- An informer is asked for, all of them are started, or one of them gets on. -/
  | life (a : Foundry.Act α)
  | cancel
  /-- The wait takes a turn if there is anything to do. -/
  | turn
  /-- Nanoseconds pass unless there is anything to do, and at most to the end of a pause. -/
  | pass (n : Nat)

variable {α : Nat → Type}

/-- A turn of the wait.  None if there is nothing to do. -/
def turn? (r : RollCall α) : Option SyncWait :=
  match r.wait with
  | none => some (SyncWait.look r.foundry.factory.pollInterval r.now r.foundry.syncStatus)
  | some w => w.turn r.foundry.factory.pollInterval r.now r.cancelled r.foundry.syncStatus

def goOn (r : RollCall α) : SyncWait → RollCall α
  | .pausing due => { r with wait := some (.pausing due) }
  | .ended status =>
    { r with wait := some (.ended status), returned := some (r.now, status) }

def pass (r : RollCall α) (n : Nat) : RollCall α :=
  match r.turn?, r.wait with
  | some _, _ => r
  | none, some (.pausing due) => { r with now := min (r.now + n) due }
  | none, _ => { r with now := r.now + n }

section Run

variable [∀ i, Object (α i)]

def perform (r : RollCall α) : Act α → RollCall α
  | .life a => { r with foundry := r.foundry.perform a }
  | .cancel => { r with cancelled := true }
  | .turn =>
    match r.turn? with
    | some w => r.goOn w
    | none => r
  | .pass n => r.pass n

/-- A wait that begins. -/
def begin (f : Foundry α) (start : Nat) : RollCall α := ⟨f, none, start, false, none⟩

def run (f : Foundry α) (start : Nat) (acts : List (Act α)) : RollCall α :=
  acts.foldl perform (begin f start)

end Run

/-- Every informer that was started has synced. -/
def AllSynced (r : RollCall α) : Prop :=
  ∀ i, r.foundry.factory.Runs i → (r.foundry.informers i).informer.synced = true

/-- The instants of the looks. -/
def look (f : Foundry α) (start k : Nat) : Nat :=
  start + k * min f.factory.pollInterval horizon

/-- What a wait may return that stands as `before` does. -/
structure Answer (before : RollCall α) (e : Nat) (status : List (String × Bool)) : Prop where
  waiting : before.returned = none
  instant : before.now = e
  once : (status.map Prod.fst).Nodup
  entries : ∀ resource b, (resource, b) ∈ status ↔
    ∃ entry, before.foundry.factory.entries.get? resource = some entry ∧ entry.started = true ∧
      (before.foundry.informers entry.informer).informer.synced = b

/-! ## Turns -/

variable {r : RollCall α} {w : SyncWait}

theorem allSynced_syncStatus :
    SyncWait.allSynced r.foundry.syncStatus = true ↔ r.AllSynced :=
  Factory.allSynced_syncStatus

/-- It is time for a look. -/
def Looks (r : RollCall α) : Prop :=
  r.wait = none ∨ ∃ due, r.wait = some (.pausing due) ∧ due ≤ r.now

/-- What a turn can do. -/
inductive Turn (r : RollCall α) : SyncWait → Prop
  | complete (hlooks : r.Looks) (hall : r.AllSynced) : Turn r (.ended r.foundry.syncStatus)
  | hurried (hcancelled : r.cancelled = true) : Turn r (.ended r.foundry.syncStatus)
  | again (hlooks : r.Looks) (hnot : ¬r.AllSynced) :
    Turn r (.pausing (timerEnd r.now r.foundry.factory.pollInterval))

theorem turn_of_look (hlooks : r.Looks) :
    Turn r (SyncWait.look r.foundry.factory.pollInterval r.now r.foundry.syncStatus) := by
  rcases Watch.look_cases r.foundry.factory.pollInterval r.now r.foundry.syncStatus with
    ⟨he, hs⟩ | ⟨he, hs⟩
  · rw [he]
    exact .complete hlooks (allSynced_syncStatus.mp hs)
  · rw [he]
    refine .again hlooks fun hall => ?_
    rw [allSynced_syncStatus.mpr hall] at hs
    exact absurd hs (by decide)

theorem turn_of_turn? (h : r.turn? = some w) : Turn r w := by
  unfold turn? at h
  split at h
  next hw =>
    obtain rfl := Option.some.inj h
    exact turn_of_look (Or.inl hw)
  next wait hw =>
    cases wait with
    | ended status => exact absurd h (by simp [SyncWait.turn])
    | pausing due =>
      unfold SyncWait.turn at h
      dsimp only at h
      split at h
      next hc =>
        obtain rfl := Option.some.inj h
        exact .hurried hc
      next =>
        split at h
        next hdue =>
          obtain rfl := Option.some.inj h
          exact turn_of_look (Or.inr ⟨due, hw, hdue⟩)
        next => exact absurd h (by simp)

/-- Where there is nothing to do the wait is over, or it pauses and nobody has cancelled it. -/
theorem turn?_eq_none : r.turn? = none ↔
    (∃ status, r.wait = some (.ended status)) ∨
      r.cancelled = false ∧ ∃ due, r.wait = some (.pausing due) ∧ r.now < due := by
  unfold turn?
  cases hw : r.wait with
  | none => simp
  | some wait =>
    cases wait with
    | ended status => simp [SyncWait.turn]
    | pausing due => cases hc : r.cancelled <;> simp [SyncWait.turn]

/-- The status of an instant is what a wait may return at that instant. -/
theorem answer_syncStatus (hr : r.returned = none) : Answer r r.now r.foundry.syncStatus where
  waiting := hr
  instant := rfl
  once := r.foundry.factory.nodup_syncStatus _
  entries _ _ := Factory.mem_syncStatus

theorem Answer.all_synced {before : RollCall α} {e : Nat} {status : List (String × Bool)}
    (h : Answer before e status) (hall : before.AllSynced) : ∀ x ∈ status, x.2 = true := by
  rintro ⟨resource, b⟩ hx
  obtain ⟨entry, he, hs, rfl⟩ := (h.entries resource b).mp hx
  exact hall entry.informer ⟨resource, entry, he, hs, rfl⟩

/-! ## Instants -/

theorem look_mono {f : Foundry α} {start j k : Nat} (h : j ≤ k) : look f start j ≤ look f start k :=
  Nat.add_le_add_left (Nat.mul_le_mul_right _ h) start

theorem look_succ (f : Foundry α) (start k : Nat) :
    look f start (k + 1) = timerEnd (look f start k) f.factory.pollInterval := by
  unfold look timerEnd
  rw [Nat.succ_mul, Nat.add_assoc]

/-- The instant up to which the wait has gone on. -/
def reached (r : RollCall α) : Nat :=
  match r.returned with
  | some (e, _) => e
  | none => r.now

theorem reached_of_waiting (h : r.returned = none) : r.reached = r.now := by
  unfold reached
  rw [h]

theorem reached_of_returned {e : Nat} {status : List (String × Bool)}
    (h : r.returned = some (e, status)) : r.reached = e := by
  unfold reached
  rw [h]

theorem reached_goOn (h : r.returned = none) (w : SyncWait) : (r.goOn w).reached = r.now := by
  cases w with
  | pausing due => exact reached_of_waiting h
  | ended status => rfl

/-! ## Acts -/

@[simp] theorem goOn_foundry (r : RollCall α) (w : SyncWait) :
    (r.goOn w).foundry = r.foundry := by
  cases w <;> rfl

@[simp] theorem goOn_now (r : RollCall α) (w : SyncWait) : (r.goOn w).now = r.now := by
  cases w <;> rfl

@[simp] theorem goOn_cancelled (r : RollCall α) (w : SyncWait) :
    (r.goOn w).cancelled = r.cancelled := by
  cases w <;> rfl

theorem pass_of_turn {n : Nat} (h : r.turn? ≠ none) : r.pass n = r := by
  obtain ⟨w, hw⟩ := Option.ne_none_iff_exists'.mp h
  unfold pass
  rw [hw]

theorem pass_of_pausing {n due : Nat} (h : r.turn? = none) (hw : r.wait = some (.pausing due)) :
    r.pass n = { r with now := min (r.now + n) due } := by
  unfold pass
  rw [h, hw]

theorem pass_of_ended {n : Nat} {status : List (String × Bool)}
    (hw : r.wait = some (.ended status)) : r.pass n = { r with now := r.now + n } := by
  unfold pass
  rw [turn?_eq_none.mpr (Or.inl ⟨status, hw⟩), hw]

/-- The passing of time is seen on the clock only. -/
theorem pass_eq (r : RollCall α) (n : Nat) : ∃ t, r.now ≤ t ∧ r.pass n = { r with now := t } := by
  by_cases h : r.turn? = none
  · rcases turn?_eq_none.mp h with ⟨status, hw⟩ | ⟨-, due, hw, hlt⟩
    · exact ⟨_, Nat.le_add_right .., pass_of_ended hw⟩
    · exact ⟨_, Nat.le_min.mpr ⟨Nat.le_add_right .., hlt.le⟩, pass_of_pausing h hw⟩
  · exact ⟨r.now, Nat.le_refl _, pass_of_turn h⟩

/-- After a turn there is nothing more to do, unless the wait is cancelled as it pauses. -/
theorem turn?_goOn (ht : r.turn? = some w) (hpoll : 0 < r.foundry.factory.pollInterval) :
    (r.goOn w).turn? = none ∨
      r.cancelled = true ∧ ∃ due, (r.goOn w).wait = some (.pausing due) := by
  cases turn_of_turn? ht with
  | complete | hurried => exact Or.inl (turn?_eq_none.mpr (Or.inl ⟨_, rfl⟩))
  | again =>
    cases hc : r.cancelled with
    | true => exact Or.inr ⟨rfl, _, rfl⟩
    | false =>
      have hhorizon : 0 < horizon := by decide
      refine Or.inl (turn?_eq_none.mpr (Or.inr ⟨hc, _, rfl, ?_⟩))
      rw [goOn_now]
      unfold timerEnd
      omega

/-- A cancelled wait that pauses returns with its next turn. -/
theorem turn?_goOn_of_cancelled {due : Nat} (hc : r.cancelled = true)
    (hw : r.wait = some (.pausing due)) (ht : r.turn? = some w) : (r.goOn w).turn? = none := by
  have hended : r.turn? = some (.ended r.foundry.syncStatus) := by
    unfold turn? SyncWait.turn
    rw [hw]
    exact if_pos hc
  obtain rfl := Option.some.inj (hended.symm.trans ht)
  exact turn?_eq_none.mpr (Or.inl ⟨_, rfl⟩)

theorem now_pass_one (h : r.turn? = none) : (r.pass 1).now = r.now + 1 := by
  rcases turn?_eq_none.mp h with ⟨status, hw⟩ | ⟨-, due, hw, hlt⟩
  · rw [pass_of_ended hw]
  · rw [pass_of_pausing h hw]
    exact Nat.min_eq_left hlt

/-- The wait or time gets on, and nothing else happens. -/
def Act.Idle (a : Act α) : Prop := a = .turn ∨ ∃ n, a = .pass n

/-- What the wait does within one nanosecond. -/
def tick : List (Act α) := [.turn, .turn, .pass 1]

theorem idle_of_mem_tick {a : Act α} (h : a ∈ tick) : a.Idle := by
  simp only [tick, List.mem_cons, List.not_mem_nil, or_false] at h
  rcases h with rfl | rfl | rfl
  · exact Or.inl rfl
  · exact Or.inl rfl
  · exact Or.inr ⟨1, rfl⟩

/-- How a wait stands against an earlier moment of it. -/
structure Later (r r' : RollCall α) : Prop where
  now : r.now ≤ r'.now
  cancelled : r.cancelled = true → r'.cancelled = true
  runs : ∀ i, r.foundry.factory.Runs i → r'.foundry.factory.Runs i
  poll : r'.foundry.factory.pollInterval = r.foundry.factory.pollInterval

theorem Later.trans {r r' r'' : RollCall α} (h : Later r r') (h' : Later r' r'') :
    Later r r'' where
  now := h.now.trans h'.now
  cancelled := h'.cancelled ∘ h.cancelled
  runs i := h'.runs i ∘ h.runs i
  poll := h'.poll.trans h.poll

theorem later_refl (r : RollCall α) : Later r r := ⟨Nat.le_refl _, id, fun _ => id, rfl⟩

section Run

variable [∀ i, Object (α i)]

theorem perform_turn_of_none (h : r.turn? = none) : r.perform .turn = r := by
  show (match r.turn? with | some w => r.goOn w | none => r) = r
  rw [h]

theorem perform_turn_of_some (h : r.turn? = some w) : r.perform .turn = r.goOn w := by
  show (match r.turn? with | some w => r.goOn w | none => r) = r.goOn w
  rw [h]

theorem later_perform (r : RollCall α) (a : Act α) : Later r (r.perform a) := by
  cases a with
  | life a =>
    exact ⟨Nat.le_refl _, id, fun i h => Foundry.runs_perform h a,
      Foundry.pollInterval_perform r.foundry a⟩
  | cancel => exact ⟨Nat.le_refl _, fun _ => rfl, fun _ => id, rfl⟩
  | turn =>
    cases ht : r.turn? with
    | none =>
      rw [perform_turn_of_none ht]
      exact later_refl r
    | some w =>
      rw [perform_turn_of_some ht]
      exact ⟨(goOn_now r w).ge, fun h => (goOn_cancelled r w).trans h,
        fun i h => (goOn_foundry r w).symm ▸ h, by rw [goOn_foundry]⟩
  | pass n =>
    obtain ⟨t, ht, he⟩ := pass_eq r n
    rw [show r.perform (.pass n) = r.pass n from rfl, he]
    exact ⟨ht, id, fun _ => id, rfl⟩

variable {f : Foundry α} {start : Nat} {acts pre : List (Act α)}

theorem run_concat (f : Foundry α) (start : Nat) (acts : List (Act α)) (a : Act α) :
    run f start (acts ++ [a]) = (run f start acts).perform a :=
  List.foldl_append

theorem later_run (h : pre <+: acts) : Later (run f start pre) (run f start acts) := by
  obtain ⟨rest, rfl⟩ := h
  induction rest using List.reverseRecOn with
  | nil => rw [List.append_nil]; exact later_refl _
  | append_singleton rest a ih =>
    rw [← List.append_assoc, run_concat]
    exact ih.trans (later_perform _ a)

/-! ## Looks that are past -/

/-- At the instant of a look there was a moment at which some informer had not synced. -/
def Vain (f : Foundry α) (start : Nat) (acts : List (Act α)) (k : Nat) : Prop :=
  ∃ pre, pre <+: acts ∧ (run f start pre).now = look f start k ∧ ¬(run f start pre).AllSynced

theorem Vain.concat {k : Nat} (h : Vain f start acts k) (a : Act α) :
    Vain f start (acts ++ [a]) k := by
  obtain ⟨pre, hpre, hv⟩ := h
  exact ⟨pre, hpre.trans (List.prefix_append ..), hv⟩

/-- The wait has returned what it might return at that moment: when everything had synced it was the
time of a look, and else the wait was cancelled. -/
def Answered (f : Foundry α) (start : Nat) (acts : List (Act α)) (e : Nat)
    (status : List (String × Bool)) : Prop :=
  ∃ pre rest, acts = pre ++ .turn :: rest ∧ Answer (run f start pre) e status ∧
    ((run f start pre).AllSynced ∧ (∃ k, e = look f start k) ∨
      (run f start pre).cancelled = true)

theorem Answered.concat {e : Nat} {status : List (String × Bool)}
    (h : Answered f start acts e status) (a : Act α) :
    Answered f start (acts ++ [a]) e status := by
  obtain ⟨pre, rest, rfl, h⟩ := h
  exact ⟨pre, rest ++ [a], by simp, h⟩

/-- Where a wait stands. -/
inductive Stage (f : Foundry α) (start : Nat) (acts : List (Act α)) (r : RollCall α) : Prop
  | fresh (hwait : r.wait = none) (hreturned : r.returned = none) (hnow : r.now = start)
  | pausing (k : Nat) (hwait : r.wait = some (.pausing (look f start (k + 1))))
      (hreturned : r.returned = none) (huntil : r.now ≤ look f start (k + 1))
      (hvain : ∀ j ≤ k, Vain f start acts j)
  | ended (e : Nat) (status : List (String × Bool)) (hwait : r.wait = some (.ended status))
      (hreturned : r.returned = some (e, status)) (hpast : e ≤ r.now)
      (hanswered : Answered f start acts e status)
      (hvain : ∀ k, look f start k < e → Vain f start acts k)

theorem Stage.reached_le (h : Stage f start acts r) : r.reached ≤ r.now := by
  cases h with
  | fresh _ hr _ | pausing _ _ hr _ _ => exact (reached_of_waiting hr).le
  | ended e status _ hr hpast _ _ => rw [reached_of_returned hr]; exact hpast

/-- Each look before the instant that is reached was in vain. -/
theorem Stage.vain (h : Stage f start acts r) {k : Nat} (hk : look f start k < r.reached) :
    Vain f start acts k := by
  cases h with
  | fresh _ hr hnow =>
    rw [reached_of_waiting hr, hnow] at hk
    exact absurd hk (Nat.not_lt.mpr (Nat.le_add_right ..))
  | pausing j _ hr huntil hvain =>
    rw [reached_of_waiting hr] at hk
    refine hvain k (Nat.le_of_lt_succ (Nat.lt_of_not_le fun hle => ?_))
    exact absurd (hk.trans_le huntil) (Nat.not_lt.mpr (look_mono hle))
  | ended e status _ hr _ _ hvain =>
    rw [reached_of_returned hr] at hk
    exact hvain k hk

/-- What does not move the wait leaves it at its stage. -/
theorem Stage.concat (h : Stage f start acts r) (a : Act α) {r' : RollCall α}
    (hwait : r'.wait = r.wait) (hreturned : r'.returned = r.returned) (hnow : r'.now = r.now) :
    Stage f start (acts ++ [a]) r' := by
  cases h with
  | fresh hw hr hn => exact .fresh (hwait.trans hw) (hreturned.trans hr) (hnow.trans hn)
  | pausing k hw hr hu hv =>
    exact .pausing k (hwait.trans hw) (hreturned.trans hr) (hnow.trans_le hu)
      fun j hj => (hv j hj).concat a
  | ended e status hw hr hp ha hv =>
    exact .ended e status (hwait.trans hw) (hreturned.trans hr) (hp.trans hnow.ge) (ha.concat a)
      fun k hk => (hv k hk).concat a

/-! ## What is kept -/

/-- What holds of a wait after any acts. -/
structure Kept (f : Foundry α) (start : Nat) (acts : List (Act α)) : Prop where
  stage : Stage f start acts (run f start acts)
  /-- Once the wait is cancelled it goes on no more. -/
  prompt : ∀ pre, pre <+: acts → (run f start pre).cancelled = true →
    (run f start acts).reached ≤ (run f start pre).now

theorem poll_run (f : Foundry α) (start : Nat) (acts : List (Act α)) :
    (run f start acts).foundry.factory.pollInterval = f.factory.pollInterval :=
  (later_run (List.nil_prefix (l := acts))).poll

theorem kept_begin (f : Foundry α) (start : Nat) : Kept f start [] where
  stage := .fresh rfl rfl rfl
  prompt pre hpre hc := by
    obtain rfl := List.prefix_nil.mp hpre
    exact absurd hc Bool.false_ne_true

theorem Kept.concat (h : Kept f start acts) (a : Act α)
    (hstage : Stage f start (acts ++ [a]) ((run f start acts).perform a))
    (hreached : (run f start acts).cancelled = true →
      ((run f start acts).perform a).reached ≤ (run f start acts).reached) :
    Kept f start (acts ++ [a]) := by
  rw [← run_concat] at hstage hreached
  refine ⟨hstage, fun pre hpre hc => ?_⟩
  rcases List.prefix_concat_iff.mp hpre with rfl | hpre
  · exact hstage.reached_le
  · exact (hreached ((later_run hpre).cancelled hc)).trans (h.prompt pre hpre hc)

theorem kept_life (h : Kept f start acts) (a : Foundry.Act α) :
    Kept f start (acts ++ [.life a]) :=
  h.concat _ (h.stage.concat _ rfl rfl rfl) fun _ => Nat.le_refl _

theorem kept_cancel (h : Kept f start acts) : Kept f start (acts ++ [.cancel]) :=
  h.concat _ (h.stage.concat _ rfl rfl rfl) fun _ => Nat.le_refl _

theorem kept_pass (h : Kept f start acts) (n : Nat) : Kept f start (acts ++ [.pass n]) := by
  by_cases ht : (run f start acts).turn? = none
  · rcases turn?_eq_none.mp ht with ⟨status, hw⟩ | ⟨hc, due, hw, hlt⟩
    · have hpass : (run f start acts).perform (.pass n) = _ := pass_of_ended hw
      cases h.stage with
      | fresh hw' | pausing _ hw' => exact absurd (hw.symm.trans hw') (by simp)
      | ended e status hw hr hp ha hv =>
        refine h.concat _ ?_ fun _ => ?_
        · rw [hpass]
          exact .ended e status hw hr (hp.trans (Nat.le_add_right ..)) (ha.concat _)
            fun k hk => (hv k hk).concat _
        · rw [hpass]
          simp only [reached, hr, Nat.le_refl]
    · have hpass : (run f start acts).perform (.pass n) = _ := pass_of_pausing ht hw
      cases h.stage with
      | fresh hw' | ended _ _ hw' => exact absurd (hw.symm.trans hw') (by simp)
      | pausing k hw' hr hu hv =>
        obtain rfl := SyncWait.pausing.inj (Option.some.inj (hw.symm.trans hw'))
        refine h.concat _ ?_ fun hc' => absurd (hc.symm.trans hc') (by decide)
        rw [hpass]
        exact .pausing k hw hr (Nat.min_le_right ..) fun j hj => (hv j hj).concat _
  · have hpass : (run f start acts).perform (.pass n) = _ := pass_of_turn ht
    refine h.concat _ ?_ fun _ => ?_
    · rw [hpass]
      exact h.stage.concat _ rfl rfl rfl
    · rw [hpass]

/-- The instant of a look, before the wait has returned. -/
theorem Stage.at_look (h : Stage f start acts r) (hlooks : r.Looks) :
    ∃ k, r.now = look f start k ∧ ∀ j < k, Vain f start acts j := by
  rcases hlooks with hw | ⟨due, hw, hdue⟩
  · cases h with
    | fresh _ _ hnow => exact ⟨0, by simp [hnow, look], fun j hj => absurd hj (Nat.not_lt_zero j)⟩
    | pausing _ hw' | ended _ _ hw' => exact absurd (hw.symm.trans hw') (by simp)
  · cases h with
    | fresh hw' | ended _ _ hw' => exact absurd (hw.symm.trans hw') (by simp)
    | pausing k hw' _ hu hv =>
      obtain rfl := SyncWait.pausing.inj (Option.some.inj (hw.symm.trans hw'))
      exact ⟨k + 1, Nat.le_antisymm hu hdue, fun j hj => hv j (Nat.le_of_lt_succ hj)⟩

theorem Stage.waiting_of_turn? (h : Stage f start acts r) (ht : r.turn? ≠ none) :
    r.returned = none := by
  cases h with
  | fresh _ hr _ | pausing _ _ hr _ _ => exact hr
  | ended e status hw => exact absurd (turn?_eq_none.mpr (Or.inl ⟨status, hw⟩)) ht

/-- The wait returns with a turn. -/
theorem Kept.ended (h : Kept f start acts) (hr : (run f start acts).returned = none)
    (hwhy : (run f start acts).AllSynced ∧ (∃ k, (run f start acts).now = look f start k) ∨
      (run f start acts).cancelled = true) :
    Stage f start (acts ++ [.turn])
      ((run f start acts).goOn (.ended (run f start acts).foundry.syncStatus)) := by
  refine .ended (run f start acts).now _ rfl rfl (Nat.le_refl _)
    ⟨acts, [], rfl, answer_syncStatus hr, hwhy⟩ fun k hk => (h.stage.vain ?_).concat _
  rw [reached_of_waiting hr]
  exact hk

theorem kept_turn (h : Kept f start acts) : Kept f start (acts ++ [.turn]) := by
  cases ht : (run f start acts).turn? with
  | none =>
    have hturn := perform_turn_of_none ht
    refine h.concat _ ?_ fun _ => ?_
    · rw [hturn]
      exact h.stage.concat _ rfl rfl rfl
    · rw [hturn]
  | some w =>
    have hturn := perform_turn_of_some ht
    have hr : (run f start acts).returned = none :=
      h.stage.waiting_of_turn? (by rw [ht]; exact Option.some_ne_none w)
    refine h.concat _ ?_ fun _ => ?_
    · rw [hturn]
      cases turn_of_turn? ht with
      | complete hlooks hall =>
        obtain ⟨k, hk, -⟩ := h.stage.at_look hlooks
        exact h.ended hr (Or.inl ⟨hall, k, hk⟩)
      | hurried hc => exact h.ended hr (Or.inr hc)
      | again hlooks hnot =>
        obtain ⟨k, hk, hv⟩ := h.stage.at_look hlooks
        rw [poll_run, hk, ← look_succ]
        refine .pausing k rfl hr ?_ fun j hj => ?_
        · exact hk.trans_le (look_mono (Nat.le_succ k))
        · rcases Nat.lt_or_eq_of_le hj with hj | rfl
          · exact (hv j hj).concat _
          · exact ⟨acts, List.prefix_append .., hk, hnot⟩
    · rw [hturn, reached_goOn hr, reached_of_waiting hr]

theorem kept_run (f : Foundry α) (start : Nat) (acts : List (Act α)) : Kept f start acts := by
  induction acts using List.reverseRecOn with
  | nil => exact kept_begin f start
  | append_singleton acts a ih =>
    cases a with
    | life a => exact kept_life ih a
    | cancel => exact kept_cancel ih
    | turn => exact kept_turn ih
    | pass n => exact kept_pass ih n

/-! ## Time does not stand still -/

theorem turn?_perform_turn_turn (hpoll : 0 < r.foundry.factory.pollInterval) :
    ((r.perform .turn).perform .turn).turn? = none := by
  cases ht : r.turn? with
  | none => rw [perform_turn_of_none ht, perform_turn_of_none ht, ht]
  | some w =>
    rw [perform_turn_of_some ht]
    cases ht' : (r.goOn w).turn? with
    | none => rw [perform_turn_of_none ht', ht']
    | some w' =>
      rw [perform_turn_of_some ht']
      rcases turn?_goOn ht hpoll with hn | ⟨hc, due, hw⟩
      · exact absurd (hn.symm.trans ht') (by simp)
      · exact turn?_goOn_of_cancelled ((goOn_cancelled r w).trans hc) hw ht'

theorem now_perform_turn (r : RollCall α) : (r.perform .turn).now = r.now := by
  cases ht : r.turn? with
  | none => rw [perform_turn_of_none ht]
  | some w => rw [perform_turn_of_some ht, goOn_now]

theorem foundry_of_idle {a : Act α} (h : a.Idle) (r : RollCall α) :
    (r.perform a).foundry = r.foundry := by
  rcases h with rfl | ⟨n, rfl⟩
  · cases ht : r.turn? with
    | none => rw [perform_turn_of_none ht]
    | some w => rw [perform_turn_of_some ht, goOn_foundry]
  · obtain ⟨t, -, he⟩ := pass_eq r n
    rw [show r.perform (.pass n) = r.pass n from rfl, he]

theorem foundry_run_of_idle (acts : List (Act α)) {more : List (Act α)}
    (h : ∀ a ∈ more, a.Idle) :
    (run f start (acts ++ more)).foundry = (run f start acts).foundry := by
  induction more using List.reverseRecOn with
  | nil => rw [List.append_nil]
  | append_singleton more a ih =>
    rw [← List.append_assoc, run_concat, foundry_of_idle (h a (by simp)),
      ih fun b hb => h b (List.mem_append_left _ hb)]

theorem now_tick (hpoll : 0 < r.foundry.factory.pollInterval) :
    (tick.foldl perform r).now = r.now + 1 := by
  show (((r.perform .turn).perform .turn).pass 1).now = r.now + 1
  rw [now_pass_one (turn?_perform_turn_turn hpoll), now_perform_turn, now_perform_turn]

/-- Turns and time alone lead past every instant. -/
theorem time_goes_on (hpoll : 0 < f.factory.pollInterval) (acts : List (Act α)) (n : Nat) :
    ∃ more, (∀ a ∈ more, a.Idle) ∧
      (run f start (acts ++ more)).now = (run f start acts).now + n := by
  induction n with
  | zero => exact ⟨[], by simp, by simp⟩
  | succ n ih =>
    obtain ⟨more, hidle, hnow⟩ := ih
    refine ⟨more ++ tick, fun a ha => ?_, ?_⟩
    · rcases List.mem_append.mp ha with ha | ha
      · exact hidle a ha
      · exact idle_of_mem_tick ha
    · have hrun : run f start (acts ++ (more ++ tick)) =
          tick.foldl perform (run f start (acts ++ more)) := by
        rw [← List.append_assoc]
        exact List.foldl_append
      rw [hrun, now_tick (by rw [poll_run]; exact hpoll), hnow, Nat.add_assoc]

/-- A wait in which everything has synced, or which is cancelled, returns without further help. -/
theorem exists_returned (hpoll : 0 < f.factory.pollInterval)
    (h : (run f start acts).AllSynced ∨ (run f start acts).cancelled = true) :
    ∃ more, (∀ a ∈ more, a.Idle) ∧ (run f start (acts ++ more)).returned ≠ none := by
  obtain ⟨more, hidle, hnow⟩ : ∃ more : List (Act α), (∀ a ∈ more, a.Idle) ∧
      (run f start (acts ++ more)).now =
        (run f start acts).now + (min f.factory.pollInterval horizon + 1) :=
    time_goes_on hpoll acts _
  refine ⟨more, hidle, fun hr => ?_⟩
  have hkept := kept_run f start (acts ++ more)
  rcases h with hall | hc
  · -- the pause is the one after a look that came later than everything had synced
    obtain ⟨k, hlate, hvain⟩ : ∃ k, (run f start acts).now < look f start k ∧
        Vain f start (acts ++ more) k := by
      cases hkept.stage with
      | fresh _ _ hstart =>
        have hlater : Later (run f start []) (run f start acts) := later_run List.nil_prefix
        have hnow := hlater.now
        rw [show (run f start []).now = start from rfl] at hnow
        omega
      | pausing k _ _ huntil hvain =>
        refine ⟨k, ?_, hvain k (Nat.le_refl k)⟩
        rw [look_succ, timerEnd, hnow] at huntil
        omega
      | ended e status _ hreturned => exact absurd (hr.symm.trans hreturned) (by simp)
    obtain ⟨pre, hpre, hlook, hnot⟩ := hvain
    rcases List.prefix_or_prefix_of_prefix hpre (List.prefix_append acts more) with hle | hle
    · have hlater : Later (run f start pre) (run f start acts) := later_run hle
      have hnow := hlater.now
      omega
    · obtain ⟨rest, rfl⟩ := hle
      rw [List.prefix_append_right_inj] at hpre
      refine hnot ?_
      unfold AllSynced
      rw [foundry_run_of_idle acts fun a ha => hidle a (hpre.subset ha)]
      exact hall
  · have := hkept.prompt acts (List.prefix_append ..) hc
    rw [reached_of_waiting hr] at this
    omega

/-! ## The return -/

/-- **A wait for caches returns with the first look that finds everything synced**, or when it is
cancelled.  The looks are taken at the poll interval, or at the horizon of the timers if the
interval is longer than that.

* What it returns has one entry for each informer that was started by then, and says whether that
  one has synced.  Unless the wait is cancelled everything has.
* Before that, at each instant of a look, there was a moment at which some informer had been started
  and had not synced; and the wait did not go on after it was cancelled.
* The same holds of a wait that has not returned yet.  If everything has synced, or if it is
  cancelled, it does return when nothing else happens but turns and time.
* Informers that have been started at some moment are waited for from then on. -/
theorem returns_at_first_look (f : Foundry α) (start : Nat) (hpoll : 0 < f.factory.pollInterval)
    (acts : List (Act α)) :
    let after := run f start
    (∀ e status, (after acts).returned = some (e, status) →
      (∃ pre rest, acts = pre ++ .turn :: rest ∧ Answer (after pre) e status ∧
        ((∃ k, e = look f start k) ∧ (after pre).AllSynced ∧ (∀ x ∈ status, x.2 = true) ∨
          (after pre).cancelled = true)) ∧
      (∀ k, look f start k < e → Vain f start acts k) ∧
      ∀ pre, pre <+: acts → (after pre).cancelled = true → e ≤ (after pre).now) ∧
    ((after acts).returned = none →
      (∀ k, look f start k < (after acts).now → Vain f start acts k) ∧
      ∀ pre, pre <+: acts → (after pre).cancelled = true →
        (after pre).now = (after acts).now) ∧
    ((after acts).AllSynced ∨ (after acts).cancelled = true →
      ∃ more, (∀ a ∈ more, a.Idle) ∧ (after (acts ++ more)).returned ≠ none) ∧
    ∀ pre, pre <+: acts → ∀ i, (after pre).foundry.factory.Runs i →
      (after acts).foundry.factory.Runs i := by
  intro after
  have hkept := kept_run f start acts
  refine ⟨fun e status hr => ⟨?_, fun k hk => ?_, fun pre hpre hc => ?_⟩,
    fun hr => ⟨fun k hk => ?_, fun pre hpre hc => ?_⟩, exists_returned hpoll,
    fun pre hpre => (later_run hpre).runs⟩
  · cases hkept.stage with
    | fresh _ hn _ | pausing _ _ hn _ _ => exact absurd (hn.symm.trans hr) (by simp)
    | ended e' status' _ hr' _ hanswered _ =>
      obtain ⟨rfl, rfl⟩ := Prod.mk.inj (Option.some.inj (hr'.symm.trans hr))
      obtain ⟨pre, rest, rfl, hanswer, hwhy⟩ := hanswered
      refine ⟨pre, rest, rfl, hanswer, hwhy.imp_left ?_⟩
      rintro ⟨hall, hlook⟩
      exact ⟨hlook, hall, hanswer.all_synced hall⟩
  · rw [← reached_of_returned hr] at hk
    exact hkept.stage.vain hk
  · rw [← reached_of_returned hr]
    exact hkept.prompt pre hpre hc
  · rw [← reached_of_waiting hr] at hk
    exact hkept.stage.vain hk
  · have hle := hkept.prompt pre hpre hc
    rw [reached_of_waiting hr] at hle
    exact Nat.le_antisymm (later_run hpre).now hle

end Run

/-- A factory with a poll interval in milliseconds. -/
def provider (poll : UInt64) : Foundry fun _ => Scenario.Obj :=
  .new "provider" { (default : Settings) with heartbeat := ⟨default, poll⟩ }

/-- The informer for pods is made and started. -/
def started : List (Act fun _ => Scenario.Obj) := [.life (.ask "pods" "Pod"), .life (.start 0)]

/-- Its first list has been taken in. -/
def synced : List (Act fun _ => Scenario.Obj) :=
  [.life (.move 0 (.batch (.relist []))), .life (.move 0 .proceed)]

/-- The first look is in vain and the second one is not. -/
theorem returns_at_second_look :
    (run (provider 100) 0 (started ++ .turn :: synced ++ [.pass (ofMillis 100), .turn])).returned =
      some (ofMillis 100, [("pods", true)]) ∧
    ∃ pre rest, started ++ .turn :: synced ++ [.pass (ofMillis 100), .turn] = pre ++ .turn :: rest ∧
      Answer (run (provider 100) 0 pre) (ofMillis 100) [("pods", true)] := by
  have hr : (run (provider 100) 0
      (started ++ .turn :: synced ++ [.pass (ofMillis 100), .turn])).returned =
        some (ofMillis 100, [("pods", true)]) := by decide +kernel
  obtain ⟨hreturned, -⟩ := returns_at_first_look (provider 100) 0 (by decide +kernel)
    (started ++ .turn :: synced ++ [.pass (ofMillis 100), .turn])
  obtain ⟨⟨pre, rest, he, hanswer, -⟩, -⟩ := hreturned _ _ hr
  exact ⟨hr, pre, rest, he, hanswer⟩

/-- With a poll interval beyond the horizon of the timers the second look comes earlier than that:
the wait returns at an instant that is no multiple of the interval. -/
theorem returns_before_poll_interval :
    (run (provider 1000000000000000) 0
      (started ++ .turn :: synced ++ [.pass horizon, .turn])).returned =
        some (horizon, [("pods", true)]) ∧
    (run (provider 1000000000000000) 0
      (started ++ .turn :: synced ++ [.pass horizon, .turn])).cancelled = false ∧
    ∀ k, horizon ≠ 0 + k * (provider 1000000000000000).factory.pollInterval := by
  refine ⟨by decide +kernel, by decide +kernel, fun k hk => ?_⟩
  have hpoll : (provider 1000000000000000).factory.pollInterval = ofMillis 1000000000000000 := by
    decide +kernel
  rw [hpoll] at hk
  cases k with
  | zero => exact absurd hk (by decide)
  | succ k =>
    have hlt : horizon < ofMillis 1000000000000000 := by decide
    rw [Nat.zero_add, Nat.succ_mul] at hk
    omega

end RollCall

end InformerHub
