import InformerHub.Informer
import InformerHub.Proofs.SortedMap

/-!
# What is ahead of a target

An informer calls its targets in the order in which its deliveries hold the calls, the innermost
delivery first.  `ahead p` is what remains to be told, by the deliveries under way, to the targets
that a test `p` picks.  A test and not a single target, because a handler behind a fan-out hears
both what is pending for itself and what is pending for the fan-out.

What an operation does to a target that it is not about is one fact, `Keeps`:

> the store and what is ahead stay as they are, and the targets that `p` picks become no more,
> neither among the registrations nor behind a fan-out.

Each operation that does not begin a batch has its `keeps_…` lemma.  A batch puts its events in
front, once for each picked target (`eventsFor_callsOf`).
-/

namespace InformerHub.Informer

variable {α H : Type} {p : Target H → Bool}

/-- Everything that is registered, in the order of registration. -/
def targets (inf : Informer α H) : List (Target H) := inf.registrations.map Registration.target

/-- The handlers behind a fan-out as targets, in the order in which they are called. -/
def joined (inf : Informer α H) (index : Nat) : List (Target H) :=
  (inf.handlersOf index).map .handler

/-- The events among some calls that go to a target that `p` picks. -/
def eventsFor (p : Target H → Bool) (calls : List (Call α H)) : List (Event α) :=
  (calls.filter fun c => p c.target).map Call.event

/-- What the deliveries under way have still to tell. -/
def ahead (inf : Informer α H) (p : Target H → Bool) : List (Event α) :=
  eventsFor p (inf.deliveries.flatMap Delivery.pending)

/-! ## Who is there -/

/-- Nobody has come or gone. -/
structure Steady (inf inf' : Informer α H) : Prop where
  registrations : inf'.registrations = inf.registrations
  nextId : inf'.nextId = inf.nextId
  fanOuts : inf'.fanOuts = inf.fanOuts

theorem steady_refl (inf : Informer α H) : Steady inf inf := ⟨rfl, rfl, rfl⟩

theorem Steady.trans {inf₁ inf₂ inf₃ : Informer α H} (h : Steady inf₁ inf₂)
    (h' : Steady inf₂ inf₃) : Steady inf₁ inf₃ :=
  ⟨h'.registrations.trans h.registrations, h'.nextId.trans h.nextId, h'.fanOuts.trans h.fanOuts⟩

theorem Steady.targets {inf inf' : Informer α H} (h : Steady inf inf') :
    inf'.targets = inf.targets := by
  unfold Informer.targets
  rw [h.registrations]

theorem Steady.joined {inf inf' : Informer α H} (h : Steady inf inf') (k : Nat) :
    inf'.joined k = inf.joined k := by
  unfold Informer.joined handlersOf
  rw [h.fanOuts]

/-! ## Events among calls -/

theorem eventsFor_append (p : Target H → Bool) (cs ds : List (Call α H)) :
    eventsFor p (cs ++ ds) = eventsFor p cs ++ eventsFor p ds := by
  unfold eventsFor
  rw [List.filter_append, List.map_append]

theorem eventsFor_cons (p : Target H → Bool) (c : Call α H) (cs : List (Call α H)) :
    eventsFor p (c :: cs) = eventsFor p [c] ++ eventsFor p cs :=
  eventsFor_append p [c] cs

theorem eventsFor_singleton (p : Target H → Bool) (c : Call α H) :
    eventsFor p [c] = if p c.target then [c.event] else [] := by
  by_cases h : p c.target <;> simp [eventsFor, h]

theorem of_mem_callsOf {es : List (Event α)} {ts : List (Target H)} {c : Call α H}
    (h : c ∈ callsOf es ts) : c.event ∈ es ∧ c.target ∈ ts := by
  obtain ⟨e, he, hc⟩ := List.mem_flatMap.mp h
  obtain ⟨t, ht, rfl⟩ := List.mem_map.mp hc
  exact ⟨he, ht⟩

/-- One event for some targets is heard as often as `p` picks one of them. -/
theorem eventsFor_map (p : Target H → Bool) (e : Event α) (ts : List (Target H)) :
    eventsFor p (ts.map fun t => ⟨t, e⟩) = List.replicate (ts.countP p) e := by
  induction ts with
  | nil => rfl
  | cons t ts ih =>
    rw [List.map_cons, eventsFor_cons, ih, eventsFor_singleton, List.countP_cons]
    split
    next h => rw [List.replicate_succ]; rfl
    next h => rfl

theorem eventsFor_callsOf (p : Target H → Bool) (es : List (Event α)) (ts : List (Target H)) :
    eventsFor p (callsOf es ts) = es.flatMap fun e => List.replicate (ts.countP p) e := by
  induction es with
  | nil => rfl
  | cons e es ih =>
    rw [List.flatMap_cons, ← ih, ← eventsFor_map, ← eventsFor_append]
    rfl

/-- Where `p` picks nobody, nothing is heard. -/
theorem eventsFor_callsOf_of_none {ts : List (Target H)} (h : ts.countP p = 0)
    (es : List (Event α)) : eventsFor p (callsOf es ts) = [] := by
  rw [eventsFor_callsOf, h]
  simp

/-- Where `p` picks one target, every event is heard, once and in order. -/
theorem eventsFor_callsOf_of_one {ts : List (Target H)} (h : ts.countP p = 1)
    (es : List (Event α)) : eventsFor p (callsOf es ts) = es := by
  rw [eventsFor_callsOf, h]
  simp

/-- What a single target is told is heard if `p` picks it. -/
theorem eventsFor_callsOf_singleton (p : Target H → Bool) (es : List (Event α)) (t : Target H) :
    eventsFor p (callsOf es [t]) = if p t then es else [] := by
  split
  next h => exact eventsFor_callsOf_of_one (List.countP_singleton.trans (if_pos h)) es
  next h => exact eventsFor_callsOf_of_none (List.countP_singleton.trans (if_neg h)) es

/-! ## Deliveries -/

theorem ahead_deliver (inf : Informer α H) (calls : List (Call α H)) (completes : Bool)
    (p : Target H → Bool) :
    (inf.deliver calls completes).ahead p = eventsFor p calls ++ inf.ahead p := by
  unfold ahead deliver
  rw [List.flatMap_cons, eventsFor_append]

/-- The next call is the first of what is ahead; to take it changes nothing else. -/
theorem ahead_of_next? {inf inf' : Informer α H} {c : Call α H} (h : inf.next? = some (c, inf')) :
    (∀ p, inf.ahead p = eventsFor p [c] ++ inf'.ahead p) ∧ inf'.store = inf.store ∧
      Steady inf inf' := by
  unfold next? at h
  split at h
  next c' cs completes ds hd =>
    obtain ⟨rfl, rfl⟩ := Prod.mk.inj (Option.some.inj h)
    refine ⟨fun p => ?_, rfl, rfl, rfl, rfl⟩
    unfold ahead
    rw [hd, List.flatMap_cons, List.flatMap_cons, ← eventsFor_append]
    rfl
  next => exact absurd h (by simp)

theorem close_store (inf : Informer α H) : inf.close.store = inf.store := by
  unfold close
  split <;> rfl

theorem steady_close (inf : Informer α H) : Steady inf inf.close := by
  unfold close
  split <;> exact ⟨rfl, rfl, rfl⟩

/-- Where no call is next, the innermost delivery has none left. -/
theorem ahead_close {inf : Informer α H} (h : inf.next? = none) (p : Target H → Bool) :
    inf.close.ahead p = inf.ahead p := by
  unfold next? at h
  unfold close
  split at h
  next => exact absurd h (by simp)
  next hd =>
    split
    next d ds hds =>
      obtain ⟨pending, completes⟩ := d
      cases pending with
      | nil =>
        unfold ahead
        rw [hds]
        rfl
      | cons c cs => exact absurd hds (hd c cs completes ds)
    next => rfl

/-! ## What operations keep -/

/-- Nothing happened that concerns the targets that `p` picks, but that some of them may have gone
away. -/
structure Keeps (p : Target H → Bool) (inf inf' : Informer α H) : Prop where
  store : inf'.store = inf.store
  ahead : inf'.ahead p = inf.ahead p
  registered : inf'.targets.countP p ≤ inf.targets.countP p
  joined : ∀ k, (inf'.joined k).countP p ≤ (inf.joined k).countP p

theorem keeps_refl (p : Target H → Bool) (inf : Informer α H) : Keeps p inf inf :=
  ⟨rfl, rfl, Nat.le_refl _, fun _ => Nat.le_refl _⟩

theorem targets_register (inf : Informer α H) (t : Target H) :
    (inf.register t).1.targets = inf.targets ++ [t] :=
  List.map_append

theorem ahead_register (inf : Informer α H) (t : Target H) (p : Target H → Bool) :
    (inf.register t).1.ahead p =
      (if p t then Event.replay inf.store.list else []) ++ inf.ahead p := by
  rw [← eventsFor_callsOf_singleton]
  exact ahead_deliver _ _ _ p

theorem keeps_register {t : Target H} (h : p t = false) (inf : Informer α H) :
    Keeps p inf (inf.register t).1 where
  store := rfl
  ahead := by
    rw [ahead_register, h]
    rfl
  registered := by
    rw [targets_register, List.countP_append, List.countP_singleton, h]
    exact Nat.le_refl _
  joined _ := Nat.le_refl _

theorem keeps_unregister (inf : Informer α H) (id : Nat) : Keeps p inf (inf.unregister id).1 where
  store := rfl
  ahead := rfl
  registered := (List.filter_sublist.map Registration.target).countP_le
  joined _ := Nat.le_refl _

/-! ## What fan-outs keep -/

/-- A fan-out that is added has nobody behind it. -/
theorem joined_append_new (inf : Informer α H) (id k : Nat) :
    ({ inf with fanOuts := inf.fanOuts ++ [.new id] } : Informer α H).joined k = inf.joined k := by
  unfold joined handlersOf
  refine congrArg _ ?_
  dsimp only
  by_cases hk : k < inf.fanOuts.length
  · rw [List.getElem?_append_left hk]
  · -- beyond the old ones there is at most the new one, which is empty
    have hk' : inf.fanOuts.length ≤ k := Nat.le_of_not_lt hk
    rw [List.getElem?_append_right hk', List.getElem?_eq_none hk', List.getElem?_singleton]
    split
    next f hf =>
      split at hf
      next => rw [← Option.some.inj hf]; rfl
      next => exact absurd hf (by simp)
    next => rfl

/-- The handlers behind a fan-out that is replaced, and behind the others. -/
theorem joined_set {inf : Informer α H} {index : Nat} {f : FanOut H}
    (hf : inf.fanOuts[index]? = some f) (f' : FanOut H) (k : Nat) :
    ({ inf with fanOuts := inf.fanOuts.set index f' } : Informer α H).joined k =
      if k = index then f'.handlers.values.map .handler else inf.joined k := by
  obtain ⟨hi, -⟩ := List.getElem?_eq_some_iff.mp hf
  unfold joined handlersOf
  dsimp only
  by_cases hk : k = index
  · subst hk
    rw [List.getElem?_set_self hi, if_pos rfl]
  · rw [List.getElem?_set_ne (fun h => hk h.symm), if_neg hk]

theorem joined_of_getElem? {inf : Informer α H} {index : Nat} {f : FanOut H}
    (hf : inf.fanOuts[index]? = some f) :
    inf.joined index = f.handlers.values.map .handler := by
  unfold joined handlersOf
  rw [hf]

theorem keeps_addFanOut {inf inf' : Informer α H} {a : Access} {index : Nat}
    (h : inf.addFanOut a = .ok (inf', index)) (hp : p (.fanOut inf.fanOuts.length) = false) :
    Keeps p inf inf' := by
  cases a with
  | dynamic => exact absurd h (by simp [addFanOut])
  | direct =>
    obtain ⟨rfl, -⟩ := Prod.mk.inj (Except.ok.inj h)
    have hr := keeps_register hp inf
    refine ⟨hr.store, hr.ahead, hr.registered, fun k => ?_⟩
    rw [joined_append_new]
    exact hr.joined k

theorem keeps_dropFanOut (inf : Informer α H) (index : Nat) :
    Keeps p inf (inf.dropFanOut index) := by
  unfold dropFanOut
  split
  next f _ => exact keeps_unregister inf f.registration
  next => exact keeps_refl p inf

/-- What a handler that joins a fan-out brings: its replay in front of all that is ahead, and its
place behind the fan-out. -/
theorem join?_spec {inf inf' : Informer α H} {index : Nat} {name : String} {g : H}
    {key : HandlerKey} (h : inf.join? index name g = some (inf', key)) (p : Target H → Bool) :
    inf'.store = inf.store ∧ inf'.targets = inf.targets ∧
      inf'.ahead p =
        (if p (.handler g) then Event.replay inf.store.list else []) ++ inf.ahead p ∧
      ∀ k, (inf'.joined k).countP p ≤
        (inf.joined k).countP p + if k = index ∧ p (.handler g) then 1 else 0 := by
  unfold join? at h
  obtain ⟨f, hf, he⟩ := Option.map_eq_some_iff.mp h
  obtain ⟨rfl, -⟩ := Prod.mk.inj he
  refine ⟨rfl, rfl, ?_, fun k => ?_⟩
  · rw [← eventsFor_callsOf_singleton]
    exact ahead_deliver _ _ _ p
  · show (({ inf with fanOuts := inf.fanOuts.set index (f.join name g).1 } :
      Informer α H).joined k).countP p ≤ _
    rw [joined_set hf]
    by_cases hk : k = index
    · subst hk
      rw [if_pos rfl, joined_of_getElem? hf, List.countP_map, List.countP_map]
      have hc : (f.join name g).1.handlers.values.countP (p ∘ .handler) ≤
          f.handlers.values.countP (p ∘ .handler) + if p (.handler g) then 1 else 0 :=
        f.handlers.countP_values_insert (p ∘ .handler) _ g
      by_cases hg : p (.handler g)
      · rw [if_pos ⟨rfl, hg⟩]
        simpa [hg] using hc
      · rw [if_neg fun he => hg he.2]
        simpa [hg] using hc
    · rw [if_neg hk, if_neg fun he => hk he.1]
      exact Nat.le_refl _

theorem keeps_join? {inf inf' : Informer α H} {index : Nat} {name : String} {g : H}
    {key : HandlerKey} (h : inf.join? index name g = some (inf', key))
    (hp : p (.handler g) = false) : Keeps p inf inf' := by
  obtain ⟨hs, ht, ha, hj⟩ := join?_spec h p
  refine ⟨hs, ?_, Nat.le_of_eq (by rw [ht]), fun k => ?_⟩
  · rw [ha, hp]
    rfl
  · have hk := hj k
    simpa [hp] using hk

theorem keeps_leave (inf : Informer α H) (index : Nat) (key : HandlerKey) :
    Keeps p inf (inf.leave index key).1 := by
  unfold leave
  split
  next f hf =>
    refine ⟨rfl, rfl, Nat.le_refl _, fun k => ?_⟩
    rw [joined_set hf]
    split
    next hk =>
      subst hk
      rw [joined_of_getElem? hf, List.countP_map, List.countP_map]
      exact f.handlers.countP_values_erase (p ∘ .handler) key
    next => exact Nat.le_refl _
  next => exact keeps_refl p inf

/-! ## Batches -/

theorem ahead_beginBatch (inf : Informer α H) (es : List (Event α)) (completes : Bool)
    (p : Target H → Bool) :
    (inf.beginBatch es completes).ahead p =
      eventsFor p (callsOf es inf.targets) ++ inf.ahead p :=
  ahead_deliver inf _ completes p

theorem ahead_dispatch (inf : Informer α H) (index : Nat) (e : Event α) (p : Target H → Bool) :
    (inf.dispatch index e).ahead p =
      eventsFor p (callsOf [e] (inf.joined index)) ++ inf.ahead p :=
  ahead_deliver inf _ false p

end InformerHub.Informer
