import InformerHub.Factory
import InformerHub.Proofs.SortedMap
import InformerHub.SyncWait

/-!
# Waiting for one factory

A heartbeat waits for each of its factories in the same way: it looks at the sync status, pauses,
looks again, until everything has synced or the wait is cancelled.  A factory reports on the
informers that it `Runs`, those that it has started (`allSynced_syncStatus`).

`Watch` is a factory with its wait.  A turn of it ends the wait with the status of that moment, or
sets it to pause again because something had not synced (`turn?_cases`); after that there is
nothing to do until the pause is over or the wait is cancelled (`turn?_poll`).
-/

namespace InformerHub

open Duration

/-! ## Informers that a factory has started -/

namespace Factory

variable {ι : Type} {f : Factory ι} {i : ι}

/-- An informer that a factory has started. -/
def Runs (f : Factory ι) (i : ι) : Prop :=
  ∃ resource e, f.entries.get? resource = some e ∧ e.started = true ∧ e.informer = i

/-- A factory reports on the informers that it has started, and on no others. -/
theorem allSynced_syncStatus {hasSynced : ι → Bool} :
    SyncWait.allSynced (f.syncStatus hasSynced) = true ↔ ∀ i, f.Runs i → hasSynced i = true := by
  unfold SyncWait.allSynced syncStatus
  rw [List.all_eq_true]
  constructor
  · rintro h i ⟨resource, e, he, hs, rfl⟩
    refine h (resource, hasSynced e.informer) (List.mem_filterMap.mpr ⟨(resource, e), ?_, ?_⟩)
    · exact SortedMap.mem_entries_iff.mpr he
    · exact if_pos hs
  · intro h x hx
    obtain ⟨⟨resource, e⟩, he, hx⟩ := List.mem_filterMap.mp hx
    obtain ⟨hs, hx⟩ := (Option.ite_none_right_eq_some ..).mp hx
    obtain rfl := Option.some.inj hx
    exact h e.informer ⟨resource, e, SortedMap.mem_entries_iff.mp he, hs, rfl⟩

/-- The informers that a factory has started, resource by resource. -/
def running (f : Factory ι) : List ι :=
  f.entries.entries.filterMap fun e => if e.2.started then some e.2.informer else none

theorem mem_running : i ∈ f.running ↔ f.Runs i := by
  unfold running
  rw [List.mem_filterMap]
  constructor
  · rintro ⟨⟨resource, e⟩, he, hi⟩
    obtain ⟨hs, hi⟩ := (Option.ite_none_right_eq_some ..).mp hi
    exact ⟨resource, e, SortedMap.mem_entries_iff.mp he, hs, Option.some.inj hi⟩
  · rintro ⟨resource, e, he, hs, rfl⟩
    exact ⟨(resource, e), SortedMap.mem_entries_iff.mpr he, if_pos hs⟩

/-- An informer that is made stops no other one. -/
theorem Runs.obtain (h : f.Runs i) (resource itemType : String) (fresh : ι) :
    (f.obtain resource itemType fresh).1.Runs i := by
  unfold Factory.obtain
  split
  next => exact h
  next => exact h
  next hl =>
    obtain ⟨other, e, he, hs, hi⟩ := h
    refine ⟨other, e, (SortedMap.get?_insert_of_ne ?_ ..).trans he, hs, hi⟩
    rintro rfl
    unfold lookup at hl
    rw [Option.map_eq_none_iff, he] at hl
    exact absurd hl (by simp)

theorem Runs.start (h : f.Runs i) : f.start.1.Runs i := by
  obtain ⟨resource, e, he, -, hi⟩ := h
  refine ⟨resource, { e with started := true }, ?_, rfl, hi⟩
  show (f.entries.mapValues _).get? resource = _
  rw [SortedMap.get?_mapValues, he]
  rfl

end Factory

/-! ## Waiting for one factory -/

theorem SyncWait.unsynced_eq_nil {name : String} {status : List (String × Bool)} :
    SyncWait.unsynced name status = [] ↔ SyncWait.allSynced status = true := by
  unfold SyncWait.unsynced SyncWait.allSynced
  rw [List.map_eq_nil_iff, List.filter_eq_nil_iff, List.all_eq_true]
  simp

/-- A factory that a heartbeat waits for, and the wait once it has begun. -/
structure Watch where
  factory : Factory Nat
  wait : Option SyncWait

namespace Watch

/-- The sync status of the factory, given which informers have synced. -/
def status (w : Watch) (synced : List Nat) : List (String × Bool) :=
  w.factory.syncStatus fun i => synced.contains i

def goOn (w : Watch) (wait : SyncWait) : Watch := { w with wait := some wait }

/-- A turn of the wait.  None if there is nothing to do. -/
def turn? (w : Watch) (now : Nat) (cancelled : Bool) (synced : List Nat) : Option Watch :=
  match w.wait with
  | none => some (w.goOn (SyncWait.look w.factory.pollInterval now (w.status synced)))
  | some wait => (wait.turn w.factory.pollInterval now cancelled (w.status synced)).map w.goOn

/-- What has not synced, if the wait is over. -/
def answer (w : Watch) : Option (List String) :=
  match w.wait with
  | some (.ended status) => some (SyncWait.unsynced w.factory.name status)
  | _ => none

/-- What has not synced, if all of some waits are over. -/
def answers (ws : List Watch) : Option (List String) :=
  if ws.all fun w => w.answer.isSome then some (ws.flatMap fun w => w.answer.getD []) else none

variable {w w' : Watch} {now : Nat} {cancelled : Bool} {synced : List Nat}

theorem look_cases (poll now : Nat) (status : List (String × Bool)) :
    SyncWait.look poll now status = .ended status ∧ SyncWait.allSynced status = true ∨
      SyncWait.look poll now status = .pausing (timerEnd now poll) ∧
        SyncWait.allSynced status = false := by
  unfold SyncWait.look
  split
  next h => exact Or.inl ⟨rfl, h⟩
  next h => exact Or.inr ⟨rfl, Bool.eq_false_iff.mpr h⟩

/-- What a turn can do: the wait ends with the status of this moment, or it goes on because some
informer has not synced. -/
theorem turn?_cases (h : w.turn? now cancelled synced = some w') :
    w' = w.goOn (.ended (w.status synced)) ∧
        (SyncWait.allSynced (w.status synced) = true ∨ cancelled = true) ∨
      w' = w.goOn (.pausing (timerEnd now w.factory.pollInterval)) ∧
        SyncWait.allSynced (w.status synced) = false ∧ (cancelled = true → w.wait = none) := by
  have hlook := look_cases w.factory.pollInterval now (w.status synced)
  unfold turn? at h
  split at h
  next hw =>
    obtain rfl := Option.some.inj h
    rcases hlook with ⟨he, hs⟩ | ⟨he, hs⟩
    · exact Or.inl ⟨congrArg w.goOn he, Or.inl hs⟩
    · exact Or.inr ⟨congrArg w.goOn he, hs, fun _ => hw⟩
  next wait hw =>
    obtain ⟨wait', ht, rfl⟩ := Option.map_eq_some_iff.mp h
    cases wait with
    | ended status => exact absurd ht (by simp [SyncWait.turn])
    | pausing due =>
      unfold SyncWait.turn at ht
      dsimp only at ht
      split at ht
      next hc =>
        obtain rfl := Option.some.inj ht
        exact Or.inl ⟨rfl, Or.inr hc⟩
      next hc =>
        split at ht
        next =>
          obtain rfl := Option.some.inj ht
          rcases hlook with ⟨he, hs⟩ | ⟨he, hs⟩
          · exact Or.inl ⟨congrArg w.goOn he, Or.inl hs⟩
          · exact Or.inr ⟨congrArg w.goOn he, hs, fun hcc => absurd hcc hc⟩
        next => exact absurd ht (by simp)

/-- Where there is nothing to do the wait is over, or it pauses and nobody has cancelled it. -/
theorem turn?_eq_none : w.turn? now cancelled synced = none ↔
    (∃ status, w.wait = some (.ended status)) ∨
      cancelled = false ∧ ∃ due, w.wait = some (.pausing due) ∧ now < due := by
  unfold turn?
  cases hw : w.wait with
  | none => simp
  | some wait =>
    cases wait with
    | ended status => simp [SyncWait.turn]
    | pausing due =>
      cases cancelled <;> simp [SyncWait.turn]

/-- The wait after a turn, if it takes one. -/
def poll (now : Nat) (cancelled : Bool) (synced : List Nat) (w : Watch) : Watch :=
  (w.turn? now cancelled synced).getD w

/-- What there is after a turn: the same wait, or one that has just looked. -/
theorem poll_cases (w : Watch) (now : Nat) (cancelled : Bool) (synced : List Nat) :
    w.poll now cancelled synced = w ∧ w.wait ≠ none ∨
      w.poll now cancelled synced = w.goOn (.ended (w.status synced)) ∧
        (SyncWait.allSynced (w.status synced) = true ∨ cancelled = true) ∨
      w.poll now cancelled synced = w.goOn (.pausing (timerEnd now w.factory.pollInterval)) ∧
        SyncWait.allSynced (w.status synced) = false := by
  unfold poll
  cases ht : w.turn? now cancelled synced with
  | none =>
    refine Or.inl ⟨rfl, fun hn => ?_⟩
    simp [turn?, hn] at ht
  | some w' =>
    rcases turn?_cases ht with ⟨rfl, hs⟩ | ⟨rfl, hs, -⟩
    · exact Or.inr (Or.inl ⟨rfl, hs⟩)
    · exact Or.inr (Or.inr ⟨rfl, hs⟩)

theorem poll_factory (w : Watch) (now : Nat) (cancelled : Bool) (synced : List Nat) :
    (w.poll now cancelled synced).factory = w.factory := by
  rcases poll_cases w now cancelled synced with ⟨h, -⟩ | ⟨h, -⟩ | ⟨h, -⟩ <;> rw [h] <;> rfl

theorem wait_poll_ne_none (w : Watch) (now : Nat) (cancelled : Bool) (synced : List Nat) :
    (w.poll now cancelled synced).wait ≠ none := by
  rcases poll_cases w now cancelled synced with ⟨h, hw⟩ | ⟨h, -⟩ | ⟨h, -⟩
  · rw [h]
    exact hw
  · rw [h]
    exact Option.some_ne_none _
  · rw [h]
    exact Option.some_ne_none _

/-- A wait that is over was so before, or has just ended with the status of this moment. -/
theorem ended_poll {status : List (String × Bool)}
    (h : (w.poll now cancelled synced).wait = some (.ended status)) :
    w.wait = some (.ended status) ∨ status = w.status synced ∧
      (SyncWait.allSynced (w.status synced) = true ∨ cancelled = true) := by
  rcases poll_cases w now cancelled synced with ⟨he, -⟩ | ⟨he, hs⟩ | ⟨he, -⟩
  · exact Or.inl (he ▸ h)
  · rw [he] at h
    exact Or.inr ⟨(SyncWait.ended.inj (Option.some.inj h)).symm, hs⟩
  · rw [he] at h
    exact absurd (Option.some.inj h) (by simp)

/-- A wait that pauses did so before, or has just looked in vain. -/
theorem pausing_poll {due : Nat} (h : (w.poll now cancelled synced).wait = some (.pausing due)) :
    w.wait = some (.pausing due) ∨ due = timerEnd now w.factory.pollInterval ∧
      SyncWait.allSynced (w.status synced) = false := by
  rcases poll_cases w now cancelled synced with ⟨he, -⟩ | ⟨he, -⟩ | ⟨he, hs⟩
  · exact Or.inl (he ▸ h)
  · rw [he] at h
    exact absurd (Option.some.inj h) (by simp)
  · rw [he] at h
    exact Or.inr ⟨(SyncWait.pausing.inj (Option.some.inj h)).symm, hs⟩

/-- After a turn there is nothing more to do at the same instant. -/
theorem turn?_poll (hasked : cancelled = true → w.wait ≠ none)
    (hpoll : 0 < w.factory.pollInterval) :
    (w.poll now cancelled synced).turn? now cancelled synced = none := by
  unfold poll
  cases ht : w.turn? now cancelled synced with
  | none => exact ht
  | some w' =>
    refine turn?_eq_none.mpr ?_
    rcases turn?_cases ht with ⟨rfl, -⟩ | ⟨rfl, -, hc⟩
    · exact Or.inl ⟨_, rfl⟩
    · have hcancelled : cancelled = false := Bool.eq_false_iff.mpr fun h => hasked h (hc h)
      have hhorizon : 0 < horizon := by decide
      refine Or.inr ⟨hcancelled, _, rfl, ?_⟩
      unfold timerEnd
      omega

/-- All waits are over, and nothing is pending if all of them ended well. -/
theorem answers_eq_some {ws : List Watch} {pending : List String} (h : answers ws = some pending) :
    (∀ w ∈ ws, ∃ status, w.wait = some (.ended status)) ∧
      (pending = [] ↔ ∀ w ∈ ws, ∀ status, w.wait = some (.ended status) →
        SyncWait.allSynced status = true) := by
  unfold answers at h
  split at h
  next hall =>
    obtain rfl := Option.some.inj h
    rw [List.all_eq_true] at hall
    have hended : ∀ w ∈ ws, ∃ status, w.wait = some (.ended status) := by
      intro w hw
      obtain ⟨answer, ha⟩ := Option.isSome_iff_exists.mp (hall w hw)
      unfold Watch.answer at ha
      split at ha
      next status hs => exact ⟨status, hs⟩
      next => exact absurd ha (by simp)
    refine ⟨hended, ?_⟩
    rw [List.flatMap_eq_nil_iff]
    refine forall₂_congr fun w hw => ?_
    obtain ⟨status, hs⟩ := hended w hw
    have hanswer : w.answer.getD [] = SyncWait.unsynced w.factory.name status := by
      simp [Watch.answer, hs]
    rw [hanswer, SyncWait.unsynced_eq_nil]
    constructor
    · intro hsynced status' hs'
      obtain rfl := SyncWait.ended.inj (Option.some.inj (hs.symm.trans hs'))
      exact hsynced
    · exact fun h => h status hs
  next => exact absurd h (by simp)

/-- Without answers some wait has none. -/
theorem exists_unanswered {ws : List Watch} (h : answers ws = none) :
    ∃ w ∈ ws, w.answer = none := by
  unfold answers at h
  split at h
  next => exact absurd h (Option.some_ne_none _)
  next hall =>
    rw [Bool.not_eq_true, List.all_eq_false] at hall
    obtain ⟨w, hw, hanswer⟩ := hall
    exact ⟨w, hw, Option.not_isSome_iff_eq_none.mp hanswer⟩

/-- As soon as all waits are over there are answers. -/
theorem isSome_answers {ws : List Watch}
    (h : ∀ w ∈ ws, ∃ status, w.wait = some (.ended status)) : (answers ws).isSome = true := by
  unfold answers
  rw [if_pos]
  · rfl
  · refine List.all_eq_true.mpr fun w hw => ?_
    obtain ⟨status, hs⟩ := h w hw
    simp [answer, hs]

end Watch

end InformerHub
