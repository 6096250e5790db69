import Mathlib.Data.List.Induction
import InformerHub.Proofs.Session

/-!
# Who stays registered

Nothing but its removal ends a registration:

> a handler is registered until its id is removed (`registered_of_kept`), a fan-out until it is
> dropped or its id is removed (`fanOut_registered_of_kept`), and a handler behind a fan-out stays
> there until its key leaves (`joined_of_kept`).

To drop a fan-out is to remove the id of its registration, so it would take others with it if ids
were shared.  They are not, as each one is given out once (`Issued`).  Keys behind a fan-out are not
shared either, as their epochs grow (`Seated`).
-/

namespace InformerHub.Session

open Informer

variable {α H : Type}

/-! ## What a request does to a fan-out -/

/-- A fan-out after a request, in which the handler `n` may join. -/
def Request.onFanOut (n : H) (k : Nat) (f : FanOut H) : Request → FanOut H
  | .join index name => if index = k then (f.join name n).1 else f
  | .leave index key => if index = k then (f.leave key).1 else f
  | _ => f

/-- One fan-out of a list is changed. -/
theorem getElem?_set_change {fs : List (FanOut H)} {index k : Nat} {f g : FanOut H}
    (hg : fs[index]? = some g) (hf : fs[k]? = some f) (change : FanOut H → FanOut H) :
    (fs.set index (change g))[k]? = some (if index = k then change f else f) := by
  by_cases hi : index = k
  · subst hi
    obtain ⟨hk, -⟩ := List.getElem?_eq_some_iff.mp hf
    rw [List.getElem?_set_self hk, if_pos rfl, Option.some.inj (hg.symm.trans hf)]
  · rw [List.getElem?_set_ne hi, hf, if_neg hi]

/-- What a request makes of a fan-out that is there. -/
theorem fanOut_carryOut {inf : Informer α H} {k : Nat} {f : FanOut H}
    (hf : inf.fanOuts[k]? = some f) (n : H) (r : Request) :
    (r.carryOut inf n).fanOuts[k]? = some (r.onFanOut n k f) := by
  have hne : ∀ {index}, inf.fanOuts[index]? = none → index ≠ k := by
    rintro index hg rfl
    exact absurd (hg.symm.trans hf) (by simp)
  cases r with
  | addHandler a => cases a <;> exact hf
  | removeHandler a id => cases a <;> exact hf
  | addFanOut a =>
    cases a with
    | direct =>
      obtain ⟨hk, -⟩ := List.getElem?_eq_some_iff.mp hf
      exact (List.getElem?_append_left hk).trans hf
    | dynamic => exact hf
  | dropFanOut index =>
    show (inf.dropFanOut index).fanOuts[k]? = some f
    unfold dropFanOut
    split <;> exact hf
  | join index name =>
    simp only [Request.carryOut, Request.onFanOut, join?]
    cases hg : inf.fanOuts[index]? with
    | none => exact hf.trans (congrArg some (if_neg (hne hg)).symm)
    | some g => exact getElem?_set_change hg hf fun f => (f.join name n).1
  | leave index key =>
    simp only [Request.carryOut, Request.onFanOut, leave]
    cases hg : inf.fanOuts[index]? with
    | none => exact hf.trans (congrArg some (if_neg (hne hg)).symm)
    | some g => exact getElem?_set_change hg hf fun f => (f.leave key).1

/-! ## Counting in 64 bits -/

/-- What a word tells that counts things one after the other. -/
def countUp {β : Type} (xs : List β) : UInt64 := xs.foldl (fun w _ => w + 1) 0

/-- Until it is full, a word tells how many there were. -/
theorem toNat_countUp {β : Type} {xs : List β} (h : xs.length < UInt64.size) :
    (countUp xs).toNat = xs.length := by
  induction xs using List.reverseRecOn with
  | nil => rfl
  | append_singleton xs x ih =>
    rw [List.length_append, List.length_singleton] at h ⊢
    have hbefore : (countUp xs).toNat = xs.length := ih (Nat.lt_of_succ_lt h)
    have hone : countUp (xs ++ [x]) = countUp xs + 1 := List.foldl_append
    rw [hone, UInt64.toNat_add, hbefore]
    exact Nat.mod_eq_of_lt h

/-- The numbers that are given out one after the other are those that a word tells, until it is
full. -/
theorem toNat_countUp_take {β : Type} {number : β → Nat} {xs : List β}
    (hnumbered : xs.map number = List.range xs.length) {i : Nat} {x : β} (hx : xs[i]? = some x)
    (hroom : i < UInt64.size) : (countUp (xs.take i)).toNat = number x := by
  obtain ⟨hi, rfl⟩ := List.getElem?_eq_some_iff.mp hx
  have hlength : (xs.take i).length = i := List.length_take_of_le (Nat.le_of_lt hi)
  have hnumber : number xs[i] = i := by
    have hmapped : (xs.map number)[i]? = some (number xs[i]) := by
      rw [List.getElem?_map, hx, Option.map_some]
    rw [hnumbered, List.getElem?_range hi] at hmapped
    exact (Option.some.inj hmapped).symm
  rw [toNat_countUp (hlength.symm ▸ hroom), hlength, hnumber]

/-! ## Ids -/

/-- The ids under which the fan-outs were registered. -/
def fanOutIds (inf : Informer α H) : List Nat := inf.fanOuts.map FanOut.registration

/-- The ids that have been given out are below the next one, and a fan-out shares its id with its
own registration only. -/
structure Issued (inf : Informer α H) : Prop where
  registered : ∀ g ∈ inf.registrations, g.id < inf.nextId
  owned : ∀ id ∈ fanOutIds inf, id < inf.nextId
  matched : ∀ g ∈ inf.registrations, ∀ k, (fanOutIds inf)[k]? = some g.id ↔ g.target = .fanOut k

theorem issued_of_subset {inf inf' : Informer α H} (h : Issued inf)
    (hregs : inf'.registrations ⊆ inf.registrations) (hnext : inf'.nextId = inf.nextId)
    (hids : fanOutIds inf' = fanOutIds inf) : Issued inf' where
  registered g hg := hnext ▸ h.registered g (hregs hg)
  owned id hid := hnext ▸ h.owned id (hids ▸ hid)
  matched g hg k := hids ▸ h.matched g (hregs hg) k

theorem issued_steady {inf inf' : Informer α H} (h : Issued inf) (hs : Steady inf inf') :
    Issued inf' :=
  issued_of_subset h (hs.registrations ▸ List.Subset.refl _) hs.nextId
    (congrArg (List.map _) hs.fanOuts)

/-- The next id is taken, and all ids are below the one after it. -/
theorem lt_of_mem_concat {β : Type} {f : β → Nat} {l : List β} {x : β} (h : ∀ y ∈ l, f y < f x) :
    ∀ y ∈ l ++ [x], f y < f x + 1 := by
  intro y hy
  rcases List.mem_append.mp hy with hy | hy
  · exact Nat.lt_succ_of_lt (h y hy)
  · rw [List.mem_singleton.mp hy]
    exact Nat.lt_succ_self _

/-- A handler is given an id that no fan-out has. -/
theorem issued_register {inf : Informer α H} (h : Issued inf) (n : H) :
    Issued (inf.register (.handler n)).1 where
  registered := lt_of_mem_concat (f := Registration.id) h.registered
  owned id hid := Nat.lt_succ_of_lt (h.owned id hid)
  matched g hg k := by
    rcases List.mem_append.mp hg with hg | hg
    · exact h.matched g hg k
    · rw [List.mem_singleton.mp hg]
      refine ⟨fun hk => ?_, fun hk => absurd hk (by simp)⟩
      exact absurd (h.owned _ (List.mem_of_getElem? hk)) (Nat.lt_irrefl _)

/-- What stands in a list that has one more at its end. -/
theorem getElem?_concat_eq_some {β : Type} {l : List β} {x y : β} {k : Nat} :
    (l ++ [x])[k]? = some y ↔ l[k]? = some y ∨ k = l.length ∧ x = y := by
  by_cases hk : k < l.length
  · rw [List.getElem?_append_left hk]
    exact ⟨Or.inl, fun h => h.resolve_right fun h => Nat.ne_of_lt hk h.1⟩
  · have hk' : l.length ≤ k := Nat.le_of_not_lt hk
    rw [List.getElem?_append_right hk', List.getElem?_eq_none hk', List.getElem?_singleton]
    have hzero : k - l.length = 0 ↔ k = l.length := by omega
    simp [hzero]

/-- A fan-out that is added is registered under the next id, and keeps it. -/
theorem addFanOut_spec {inf inf' : Informer α H} {a : Access} {index : Nat}
    (h : inf.addFanOut a = .ok (inf', index)) :
    inf'.registrations = inf.registrations ++ [⟨inf.nextId, .fanOut inf.fanOuts.length⟩] ∧
      inf'.nextId = inf.nextId + 1 ∧ fanOutIds inf' = fanOutIds inf ++ [inf.nextId] := by
  cases a with
  | dynamic => exact absurd h (by simp [addFanOut])
  | direct =>
    obtain ⟨rfl, -⟩ := Prod.mk.inj (Except.ok.inj h)
    exact ⟨rfl, rfl, List.map_append⟩

/-- A fan-out is given an id that nothing else has. -/
theorem issued_addFanOut {inf inf' : Informer α H} {a : Access} {index : Nat} (h : Issued inf)
    (ha : inf.addFanOut a = .ok (inf', index)) : Issued inf' := by
  obtain ⟨hregs, hnext, hids⟩ := addFanOut_spec ha
  have hlength : (fanOutIds inf).length = inf.fanOuts.length := List.length_map _
  refine ⟨fun g hg => ?_, fun i hi => ?_, fun g hg k => ?_⟩
  · rw [hnext]
    exact lt_of_mem_concat (f := Registration.id) h.registered g (hregs ▸ hg)
  · rw [hnext]
    exact lt_of_mem_concat (f := id) h.owned i (hids ▸ hi)
  · rw [hids, getElem?_concat_eq_some, hlength]
    rcases List.mem_append.mp (hregs ▸ hg) with hg | hg
    · have hne : inf.nextId ≠ g.id := (Nat.ne_of_lt (h.registered g hg)).symm
      rw [h.matched g hg]
      exact ⟨fun ho => ho.resolve_right fun hn => hne hn.2, Or.inl⟩
    · rw [List.mem_singleton.mp hg]
      refine ⟨fun ho => ?_, fun ht => Or.inr ⟨(Target.fanOut.inj ht).symm, rfl⟩⟩
      rcases ho with ho | ⟨rfl, -⟩
      · exact absurd (h.owned _ (List.mem_of_getElem? ho)) (Nat.lt_irrefl _)
      · rfl

/-- No fan-out has its registration exchanged. -/
theorem fanOutIds_set {inf : Informer α H} {index : Nat} {f f' : FanOut H}
    (hf : inf.fanOuts[index]? = some f) (h : f'.registration = f.registration) :
    fanOutIds { inf with fanOuts := inf.fanOuts.set index f' } = fanOutIds inf := by
  unfold fanOutIds
  obtain ⟨hi, rfl⟩ := List.getElem?_eq_some_iff.mp hf
  rw [List.map_set, h, ← List.getElem_map FanOut.registration (h := by simpa using hi)]
  exact List.set_getElem_self _

theorem issued_carryOut {inf : Informer α H} (h : Issued inf) (n : H) (r : Request) :
    Issued (r.carryOut inf n) := by
  cases r with
  | addHandler a =>
    cases a with
    | direct => exact issued_register h n
    | dynamic => exact h
  | removeHandler a id =>
    cases a with
    | direct => exact issued_of_subset h List.filter_sublist.subset rfl rfl
    | dynamic => exact h
  | addFanOut a =>
    cases a with
    | direct => exact issued_addFanOut (a := .direct) h rfl
    | dynamic => exact h
  | dropFanOut index =>
    show Issued (inf.dropFanOut index)
    unfold dropFanOut
    split
    next f _ => exact issued_of_subset h List.filter_sublist.subset rfl rfl
    next => exact h
  | join index name =>
    simp only [Request.carryOut, join?]
    cases hf : inf.fanOuts[index]? with
    | none => exact h
    | some f => exact issued_of_subset h (List.Subset.refl _) rfl (fanOutIds_set hf rfl)
  | leave index key =>
    simp only [Request.carryOut, leave]
    cases hf : inf.fanOuts[index]? with
    | none => exact h
    | some f => exact issued_of_subset h (List.Subset.refl _) rfl (fanOutIds_set hf rfl)

/-! ## What ends a registration -/

/-- A request removes the id of a registration, or drops the fan-out that it is for. -/
def Request.Ends (g : Registration H) (r : Request) : Prop :=
  r = .removeHandler .direct g.id ∨ ∃ index, g.target = .fanOut index ∧ r = .dropFanOut index

/-- No other request takes a registration away. -/
theorem mem_registrations_carryOut {inf : Informer α H} {g : Registration H} (h : Issued inf)
    (hg : g ∈ inf.registrations) (n : H) {r : Request} (hr : ¬r.Ends g) :
    g ∈ (r.carryOut inf n).registrations := by
  have hkeep : ∀ {id}, id ≠ g.id → g ∈ (inf.unregister id).1.registrations := by
    intro id hid
    exact List.mem_filter.mpr ⟨hg, bne_iff_ne.mpr hid.symm⟩
  cases r with
  | addHandler a =>
    cases a with
    | direct => exact List.mem_append_left _ hg
    | dynamic => exact hg
  | removeHandler a id =>
    cases a with
    | direct => exact hkeep fun hid => hr (Or.inl (hid ▸ rfl))
    | dynamic => exact hg
  | addFanOut a =>
    cases a with
    | direct => exact List.mem_append_left _ hg
    | dynamic => exact hg
  | dropFanOut index =>
    show g ∈ (inf.dropFanOut index).registrations
    unfold dropFanOut
    split
    next f hf =>
      -- only the registration of the fan-out itself has its id
      refine hkeep fun hid => hr (Or.inr ⟨index, (h.matched g hg index).mp ?_, rfl⟩)
      rw [← hid]
      exact (List.getElem?_map ..).trans (congrArg _ hf)
    next => exact hg
  | join index name =>
    simp only [Request.carryOut, join?]
    cases inf.fanOuts[index]? <;> exact hg
  | leave index key =>
    simp only [Request.carryOut, leave]
    cases inf.fanOuts[index]? <;> exact hg

section Run

variable [Object α]

theorem issued_run (acts : List (Act α)) : Issued (run acts).informer := by
  induction acts using List.reverseRecOn with
  | nil =>
    exact ⟨fun g hg => absurd hg (List.not_mem_nil), fun id hid => absurd hid (List.not_mem_nil),
      fun g hg => absurd hg (List.not_mem_nil)⟩
  | append_singleton acts a ih =>
    rw [run_concat]
    rcases steady_perform (run acts) a with ⟨r, rfl⟩ | hs
    · exact issued_carryOut ih _ r
    · exact issued_steady ih hs

/-- A fan-out that has just been added has the index after all others, and nobody is behind it. -/
theorem fanOut_added (before : List (Act α)) :
    (run (before ++ [.request (.addFanOut .direct)])).informer.fanOuts[
      (run before).informer.fanOuts.length]? = some (.new (run before).informer.nextId) := by
  rw [run_concat]
  exact List.getElem?_concat_length

/-- A registration stays as long as no request ends it. -/
theorem mem_registrations_run {g : Registration Nat} (before : List (Act α))
    (hg : g ∈ (run before).informer.registrations) (after : List (Act α))
    (hkept : ∀ r, .request r ∈ after → ¬r.Ends g) :
    g ∈ (run (before ++ after)).informer.registrations := by
  induction after using List.reverseRecOn with
  | nil => rwa [List.append_nil]
  | append_singleton after a ih =>
    have hmem := ih fun r hr => hkept r (List.mem_append_left _ hr)
    rw [← List.append_assoc, run_concat]
    rcases steady_perform (run (before ++ after)) a with ⟨r, rfl⟩ | hs
    · exact mem_registrations_carryOut (issued_run _) hmem _
        (hkept r (List.mem_append_right _ (List.mem_singleton_self _)))
    · rw [hs.registrations]
      exact hmem

/-- A handler is registered until its id is removed. -/
theorem registered_of_kept (before after : List (Act α))
    (hkept : .request (.removeHandler .direct (run before).informer.nextId) ∉ after) :
    .handler (run before).arrivals ∈
      (run (before ++ .request (.addHandler .direct) :: after)).informer.targets := by
  have hnew : ⟨(run before).informer.nextId, .handler (run before).arrivals⟩ ∈
      (run (before ++ [.request (.addHandler .direct)])).informer.registrations := by
    rw [run_concat]
    exact List.mem_append_right _ (List.mem_singleton_self _)
  have hmem := mem_registrations_run _ hnew after fun r hr he => by
    rcases he with rfl | ⟨k, hk, -⟩
    · exact hkept hr
    · exact absurd hk (by simp)
  rw [List.append_assoc] at hmem
  exact List.mem_map_of_mem hmem

/-- A fan-out is registered until it is dropped or its id is removed. -/
theorem fanOut_registered_of_kept (before after : List (Act α)) {index : Nat} {f : FanOut Nat}
    (hf : (run before).informer.fanOuts[index]? = some f)
    (ht : .fanOut index ∈ (run before).informer.targets)
    (hdrop : .request (.dropFanOut index) ∉ after)
    (hkept : .request (.removeHandler .direct f.registration) ∉ after) :
    .fanOut index ∈ (run (before ++ after)).informer.targets := by
  obtain ⟨g, hg, htarget⟩ := List.mem_map.mp ht
  have hid : f.registration = g.id := by
    have hk := ((issued_run before).matched g hg index).mpr htarget
    exact Option.some.inj (((List.getElem?_map ..).trans (congrArg _ hf)).symm.trans hk)
  have hmem := mem_registrations_run before hg after fun r hr he => by
    rcases he with rfl | ⟨k, hk, rfl⟩
    · exact hkept (hid ▸ hr)
    · obtain rfl : index = k := Target.fanOut.inj (htarget.symm.trans hk)
      exact hdrop hr
  exact List.mem_map.mpr ⟨g, hmem, htarget⟩

end Run

/-! ## Behind a fan-out -/

/-- A handler is behind a fan-out under a key that is not given out again. -/
def Seated (inf : Informer α H) (index : Nat) (key : HandlerKey) (n : H) : Prop :=
  ∃ f, inf.fanOuts[index]? = some f ∧ f.handlers.get? key = some n ∧ key.epoch < f.nextEpoch

theorem Seated.mem_joined {inf : Informer α H} {index : Nat} {key : HandlerKey} {n : H}
    (h : Seated inf index key n) : .handler n ∈ inf.joined index := by
  obtain ⟨f, hf, hkey, -⟩ := h
  rw [joined_of_getElem? hf]
  exact List.mem_map_of_mem (SortedMap.mem_values_iff.mpr ⟨key, hkey⟩)

/-- A handler that joins takes the seat of the next epoch. -/
theorem seated_join {inf : Informer α H} {index : Nat} {f : FanOut H}
    (hf : inf.fanOuts[index]? = some f) (name : String) (n : H) :
    Seated (Request.carryOut inf n (.join index name)) index ⟨name, f.nextEpoch⟩ n := by
  refine ⟨(f.join name n).1, ?_, SortedMap.get?_insert_self .., Nat.lt_succ_self _⟩
  exact (fanOut_carryOut hf n _).trans (congrArg some (if_pos rfl))

/-- Only its own key takes a handler away. -/
theorem seated_carryOut {inf : Informer α H} {index : Nat} {key : HandlerKey} {n : H}
    (h : Seated inf index key n) (m : H) {r : Request} (hr : r ≠ .leave index key) :
    Seated (r.carryOut inf m) index key n := by
  obtain ⟨f, hf, hkey, hepoch⟩ := h
  refine ⟨_, fanOut_carryOut hf m r, ?_⟩
  cases r with
  | join k name =>
    unfold Request.onFanOut
    dsimp only
    split
    next =>
      -- the key of the newcomer is of a later epoch
      have hne : key ≠ ⟨name, f.nextEpoch⟩ := fun he => by
        rw [he] at hepoch
        exact Nat.lt_irrefl _ hepoch
      exact ⟨(SortedMap.get?_insert_of_ne hne ..).trans hkey, Nat.lt_succ_of_lt hepoch⟩
    next => exact ⟨hkey, hepoch⟩
  | leave k key' =>
    unfold Request.onFanOut
    dsimp only
    split
    next hk =>
      subst hk
      have hne : key ≠ key' := fun he => hr (he ▸ rfl)
      exact ⟨(SortedMap.get?_erase_of_ne hne _).trans hkey, hepoch⟩
    next => exact ⟨hkey, hepoch⟩
  | addHandler a => exact ⟨hkey, hepoch⟩
  | removeHandler a id => exact ⟨hkey, hepoch⟩
  | addFanOut a => exact ⟨hkey, hepoch⟩
  | dropFanOut k => exact ⟨hkey, hepoch⟩

theorem seated_perform [Object α] {s : Session α} {index n : Nat} {key : HandlerKey}
    (h : Seated s.informer index key n) {a : Act α} (ha : a ≠ .request (.leave index key)) :
    Seated (s.perform a).informer index key n := by
  rcases steady_perform s a with ⟨r, rfl⟩ | hs
  · exact seated_carryOut h _ fun hr => ha (hr ▸ rfl)
  · unfold Seated
    rw [hs.fanOuts]
    exact h

/-- A handler that joins a fan-out stays behind it until its key leaves. -/
theorem joined_of_kept [Object α] (before : List (Act α)) {index : Nat} {f : FanOut Nat}
    (hf : (run before).informer.fanOuts[index]? = some f) (name : String) (after : List (Act α))
    (hkept : .request (.leave index ⟨name, f.nextEpoch⟩) ∉ after) :
    .handler (run before).arrivals ∈
      (run (before ++ .request (.join index name) :: after)).informer.joined index := by
  suffices h : Seated (run (before ++ .request (.join index name) :: after)).informer index
      ⟨name, f.nextEpoch⟩ (run before).arrivals from h.mem_joined
  induction after using List.reverseRecOn with
  | nil =>
    rw [run_concat]
    exact seated_join hf name _
  | append_singleton after a ih =>
    rw [← List.cons_append, ← List.append_assoc, run_concat]
    refine seated_perform (ih fun h => hkept (List.mem_append_left _ h)) ?_
    rintro rfl
    exact hkept (List.mem_append_right _ (List.mem_singleton_self _))

end InformerHub.Session
