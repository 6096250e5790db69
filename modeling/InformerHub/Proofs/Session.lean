import InformerHub.Proofs.Deliveries
import InformerHub.Proofs.History

/-!
# Sessions

A session is everything that can happen to an informer whose store nobody else changes.  Its acts
are the batches that the informer begins by itself, the requests that anybody may make, and the
calls it makes one after the other.  A request may come at any time: between batches, or in the
middle of one, which is where it stands when it is made from inside a callback.  A batch begins
only while nothing is being delivered.

Handlers are named by the number of the request that brought them, so a handler that is registered
twice is two handlers.

Three facts serve all that is said about what a target hears:

* `begins_begin`: a batch tells of a strict history from the old content of the store to the new
  one, and everything that is registered is told all of it;
* `keeps_request`: a request changes nothing for the targets that it does not bring;
* `told_proceed`: a call that is made only moves from what is ahead to what was heard.

A target that is yet to come appears nowhere (`absent_run`).  Much is said about sessions at rest,
where nothing is being delivered; from every session it takes finitely many steps to get there
(`comes_to_rest`).
-/

namespace InformerHub

open Informer History

variable {α : Type}

/-- An informer, and what has happened around it. -/
structure Session (α : Type) where
  informer : Informer α Nat
  /-- The number of requests so far, which names the handler that the next one brings. -/
  arrivals : Nat
  /-- The calls that were made, the first one first. -/
  calls : List (Call α Nat)

namespace Session

/-- What an informer does of its own accord. -/
inductive Batch (α : Type) where
  | relist (items : List α)
  | change (c : Change α)
  | resync

/-- What may be asked of an informer, and of the dynamic informers on top of it. -/
inductive Request where
  | addHandler (a : Access)
  | removeHandler (a : Access) (id : Nat)
  | addFanOut (a : Access)
  | dropFanOut (index : Nat)
  | join (index : Nat) (name : String)
  | leave (index : Nat) (key : HandlerKey)

inductive Act (α : Type) where
  | batch (b : Batch α)
  | request (r : Request)
  /-- Makes the next call, or ends a delivery that has none left. -/
  | proceed

/-- The informer once a batch has begun. -/
def Batch.begin [Object α] {H : Type} (inf : Informer α H) : Batch α → Informer α H
  | .relist items => (inf.relist items).1
  | .change c => (inf.change c).1
  | .resync => inf.resync.1

/-- The events that a batch tells of. -/
def Batch.events [Object α] {H : Type} (inf : Informer α H) : Batch α → List (Event α)
  | .relist items => (inf.store.replace items !inf.synced).2
  | .change c => (relate inf.store c).2.toList
  | .resync => inf.store.list.map fun a => .update a a

/-- The informer after a request.  A request that is refused changes nothing. -/
def Request.carryOut {H : Type} (inf : Informer α H) (h : H) : Request → Informer α H
  | .addHandler a =>
    match inf.addHandler a h with
    | .ok (inf, _) => inf
    | .error _ => inf
  | .removeHandler a id => (inf.removeHandler a id).1
  | .addFanOut a =>
    match inf.addFanOut a with
    | .ok (inf, _) => inf
    | .error _ => inf
  | .dropFanOut index => inf.dropFanOut index
  | .join index name =>
    match inf.join? index name h with
    | some (inf, _) => inf
    | none => inf
  | .leave index key => (inf.leave index key).1

/-- The informer while a call is made: a fan-out passes the event on. -/
def pass {H : Type} (inf : Informer α H) (c : Call α H) : Informer α H :=
  match c.target with
  | .handler _ => inf
  | .fanOut index => inf.dispatch index c.event

def new : Session α := ⟨.new, 0, []⟩

/-- The session after an act. -/
def perform [Object α] (s : Session α) : Act α → Session α
  | .batch b =>
    if s.informer.deliveries.isEmpty then { s with informer := b.begin s.informer } else s
  | .request r =>
    { s with informer := r.carryOut s.informer s.arrivals, arrivals := s.arrivals + 1 }
  | .proceed =>
    match s.informer.next? with
    | some (c, inf) => { s with informer := pass inf c, calls := s.calls ++ [c] }
    | none => { s with informer := s.informer.close }

/-- The session after some acts. -/
def run [Object α] (acts : List (Act α)) : Session α := acts.foldl perform new

/-- The events that a target has received. -/
def heard (s : Session α) (t : Target Nat) : List (Event α) := eventsFor (· == t) s.calls

/-- The events that a target has received, and after them those that the deliveries under way still
hold for targets that `p` picks. -/
def told (s : Session α) (t : Target Nat) (p : Target Nat → Bool) : List (Event α) :=
  s.heard t ++ s.informer.ahead p

/-- Nothing is being delivered. -/
def AtRest (s : Session α) : Prop := s.informer.deliveries = []

theorem ahead_of_atRest {s : Session α} (h : s.AtRest) (p : Target Nat → Bool) :
    s.informer.ahead p = [] := by
  unfold ahead
  rw [show s.informer.deliveries = [] from h]
  rfl

theorem told_of_atRest {s : Session α} (h : s.AtRest) (t : Target Nat) (p : Target Nat → Bool) :
    s.told t p = s.heard t := by
  unfold told
  rw [ahead_of_atRest h]
  exact List.append_nil _

/-! ## Batches -/

/-- The events that an act brings about: those of a batch that begins. -/
def Act.events [Object α] (s : Session α) : Act α → List (Event α)
  | .batch b => if s.informer.deliveries.isEmpty then b.events s.informer else []
  | .request _ | .proceed => []

theorem perform_batch_of_atRest [Object α] {s : Session α} (h : s.AtRest) (b : Batch α) :
    s.perform (.batch b) = { s with informer := b.begin s.informer } :=
  if_pos (List.isEmpty_iff.mpr h)

theorem events_batch_of_atRest [Object α] {s : Session α} (h : s.AtRest) (b : Batch α) :
    Act.events s (.batch b) = b.events s.informer :=
  if_pos (List.isEmpty_iff.mpr h)

/-- No batch begins while another one is being delivered. -/
theorem perform_batch_of_not_atRest [Object α] {s : Session α} (h : ¬s.AtRest) (b : Batch α) :
    s.perform (.batch b) = s :=
  if_neg fun he => h (List.isEmpty_iff.mp he)

theorem events_batch_of_not_atRest [Object α] {s : Session α} (h : ¬s.AtRest) (b : Batch α) :
    Act.events s (.batch b) = [] :=
  if_neg fun he => h (List.isEmpty_iff.mp he)

/-- A batch has begun that tells of `es`. -/
structure Begins [Object α] {H : Type} (inf inf' : Informer α H) (es : List (Event α)) : Prop where
  leads : Leads inf.store.items es inf'.store.items
  sound : inf'.store.Sound
  ahead : ∀ p, inf'.ahead p = eventsFor p (callsOf es inf.targets) ++ inf.ahead p

section Begin

variable [Object α] {H : Type}

theorem begins_relist {inf : Informer α H} (hs : inf.store.Sound) (items : List α) :
    Begins inf (inf.relist items).1 (Batch.events inf (.relist items)) :=
  ⟨Store.leads_replace hs items _, Store.sound_replace hs items _, ahead_beginBatch _ _ _⟩

theorem begins_change {inf : Informer α H} (hs : inf.store.Sound) (c : Change α) :
    Begins inf (inf.change c).1 (Batch.events inf (.change c)) := by
  have hl := leads_relate inf.store c
  have hsound := sound_relate hs c
  show Begins inf (inf.change c).1 (relate inf.store c).2.toList
  unfold change
  split
  next store e h =>
    rw [h] at hl hsound ⊢
    exact ⟨hl, hsound, ahead_beginBatch _ _ _⟩
  next store h =>
    -- a deletion of nothing: no delivery begins, which is as good as an empty one
    rw [h] at hl hsound ⊢
    exact ⟨hl, hsound, fun _ => rfl⟩

theorem begins_resync {inf : Informer α H} (hs : inf.store.Sound) :
    Begins inf inf.resync.1 (Batch.events inf .resync) :=
  ⟨Store.leads_refresh hs, hs, ahead_beginBatch _ _ _⟩

theorem begins_begin {inf : Informer α H} (hs : inf.store.Sound) (b : Batch α) :
    Begins inf (b.begin inf) (b.events inf) := by
  cases b with
  | relist items => exact begins_relist hs items
  | change c => exact begins_change hs c
  | resync => exact begins_resync hs

theorem steady_begin (inf : Informer α H) (b : Batch α) : Steady inf (b.begin inf) := by
  cases b with
  | relist items => exact ⟨rfl, rfl, rfl⟩
  | change c =>
    show Steady inf (inf.change c).1
    unfold change
    split <;> exact ⟨rfl, rfl, rfl⟩
  | resync => exact ⟨rfl, rfl, rfl⟩

end Begin

/-! ## Calls -/

/-- What a call makes a fan-out pass on. -/
def passedOn {H : Type} (inf : Informer α H) (c : Call α H) : List (Call α H) :=
  match c.target with
  | .handler _ => []
  | .fanOut index => callsOf [c.event] (inf.joined index)

theorem pass_store {H : Type} (inf : Informer α H) (c : Call α H) :
    (pass inf c).store = inf.store := by
  unfold pass
  split <;> rfl

theorem steady_pass {H : Type} (inf : Informer α H) (c : Call α H) : Steady inf (pass inf c) := by
  unfold pass
  split <;> exact ⟨rfl, rfl, rfl⟩

theorem ahead_pass {H : Type} (inf : Informer α H) (c : Call α H) (p : Target H → Bool) :
    (pass inf c).ahead p = eventsFor p (passedOn inf c) ++ inf.ahead p := by
  unfold pass passedOn
  split
  next => rfl
  next index _ => exact ahead_dispatch inf index c.event p

/-- A target behind no fan-out is passed nothing. -/
theorem eventsFor_passedOn {H : Type} {inf : Informer α H} {p : Target H → Bool}
    (h : ∀ k, (inf.joined k).countP p = 0) (c : Call α H) : eventsFor p (passedOn inf c) = [] := by
  unfold passedOn
  split
  next => rfl
  next index _ => exact eventsFor_callsOf_of_none (h index) _

/-- A step of the deliveries has been taken, which has made a call or none.  The call moves from
what is ahead to what was heard; what a fan-out passes on comes in front of the rest. -/
structure Proceeds (s s' : Session α) (made : Option (Call α Nat)) : Prop where
  calls : s'.calls = s.calls ++ made.toList
  arrivals : s'.arrivals = s.arrivals
  store : s'.informer.store = s.informer.store
  steady : Steady s.informer s'.informer
  ahead : ∀ p, ∃ rest, s.informer.ahead p = eventsFor p made.toList ++ rest ∧
    s'.informer.ahead p = eventsFor p (made.toList.flatMap (passedOn s.informer)) ++ rest

theorem proceeds_proceed [Object α] (s : Session α) :
    ∃ made, Proceeds s (s.perform .proceed) made := by
  unfold perform
  dsimp only
  split
  next c inf h =>
    obtain ⟨ha, hs, hsteady⟩ := ahead_of_next? h
    -- who is behind a fan-out is the same before and after the call is taken off
    have hpass : passedOn inf c = passedOn s.informer c := by
      unfold passedOn
      split
      next => rfl
      next index _ => rw [hsteady.joined]
    refine ⟨some c, rfl, rfl, (pass_store inf c).trans hs, hsteady.trans (steady_pass inf c),
      fun p => ⟨inf.ahead p, ha p, ?_⟩⟩
    show (pass inf c).ahead p = eventsFor p ([c].flatMap _) ++ _
    rw [ahead_pass, hpass, List.flatMap_singleton]
  next h =>
    exact ⟨none, (List.append_nil _).symm, rfl, close_store _, steady_close _,
      fun p => ⟨s.informer.ahead p, rfl, ahead_close h p⟩⟩

/-- Only a request lets anybody come or go. -/
theorem steady_perform [Object α] (s : Session α) (a : Act α) :
    (∃ r, a = .request r) ∨ Steady s.informer (s.perform a).informer := by
  cases a with
  | batch b =>
    refine Or.inr ?_
    by_cases hr : s.AtRest
    · rw [perform_batch_of_atRest hr]
      exact steady_begin s.informer b
    · rw [perform_batch_of_not_atRest hr]
      exact steady_refl s.informer
  | request r => exact Or.inl ⟨r, rfl⟩
  | proceed =>
    obtain ⟨made, hp⟩ := proceeds_proceed s
    exact Or.inr hp.steady

/-! ## Targets that are there -/

/-- The handlers and fan-outs that have come so far. -/
def Known (s : Session α) : Target Nat → Prop
  | .handler n => n < s.arrivals
  | .fanOut index => index < s.informer.fanOuts.length

/-- Only one request adds a fan-out. -/
theorem fanOuts_carryOut {H : Type} (inf : Informer α H) (h : H) (r : Request) :
    (r.carryOut inf h).fanOuts.length = inf.fanOuts.length ∨
      r = .addFanOut .direct ∧ (r.carryOut inf h).fanOuts.length = inf.fanOuts.length + 1 := by
  cases r with
  | addHandler a => cases a <;> exact Or.inl rfl
  | removeHandler a id => cases a <;> exact Or.inl rfl
  | addFanOut a =>
    cases a with
    | direct => exact Or.inr ⟨rfl, List.length_append⟩
    | dynamic => exact Or.inl rfl
  | dropFanOut index =>
    refine Or.inl ?_
    show (inf.dropFanOut index).fanOuts.length = _
    unfold dropFanOut
    split <;> rfl
  | join index name =>
    refine Or.inl ?_
    unfold Request.carryOut
    dsimp only
    split
    next inf' key hj =>
      obtain ⟨f, -, he⟩ := Option.map_eq_some_iff.mp hj
      obtain ⟨rfl, -⟩ := Prod.mk.inj he
      exact List.length_set
    next => rfl
  | leave index key =>
    refine Or.inl ?_
    show (inf.leave index key).1.fanOuts.length = _
    unfold leave
    split
    next => exact List.length_set
    next => rfl

theorem fanOuts_perform [Object α] (s : Session α) (a : Act α) :
    (s.perform a).informer.fanOuts.length = s.informer.fanOuts.length ∨
      a = .request (.addFanOut .direct) ∧
        (s.perform a).informer.fanOuts.length = s.informer.fanOuts.length + 1 := by
  rcases steady_perform s a with ⟨r, rfl⟩ | h
  · rcases fanOuts_carryOut s.informer s.arrivals r with h | ⟨rfl, h⟩
    · exact Or.inl h
    · exact Or.inr ⟨rfl, h⟩
  · exact Or.inl (congrArg List.length h.fanOuts)

theorem arrivals_perform [Object α] (s : Session α) (a : Act α) :
    s.arrivals ≤ (s.perform a).arrivals := by
  cases a with
  | batch b =>
    unfold perform
    dsimp only
    split <;> exact Nat.le_refl _
  | request r => exact Nat.le_succ _
  | proceed =>
    obtain ⟨made, hp⟩ := proceeds_proceed s
    exact Nat.le_of_eq hp.arrivals.symm

/-- What has come stays known. -/
theorem known_perform [Object α] {s : Session α} {t : Target Nat} (h : s.Known t) (a : Act α) :
    (s.perform a).Known t := by
  cases t with
  | handler n => exact Nat.lt_of_lt_of_le h (arrivals_perform s a)
  | fanOut index =>
    show index < (s.perform a).informer.fanOuts.length
    have hi : index < s.informer.fanOuts.length := h
    rcases fanOuts_perform s a with hl | ⟨-, hl⟩ <;> omega

/-- A test for one target that has come picks nothing new. -/
theorem known_of_beq {s s' : Session α} {t : Target Nat} (h : s.Known t) :
    ∀ u, (u == t) = true → s'.Known u → s.Known u := by
  intro u hu _
  rw [eq_of_beq hu]
  exact h

/-! ## Requests -/

/-- A request changes nothing for targets among which it brings none. -/
theorem keeps_request [Object α] {s : Session α} {r : Request} {p : Target Nat → Bool}
    (h : ∀ t, p t = true → (s.perform (.request r)).Known t → s.Known t) :
    Keeps p s.informer (s.perform (.request r)).informer := by
  -- what a request brings is known after it and not before, so `p` does not pick it
  have hn : p (.handler s.arrivals) = false := by
    refine Bool.eq_false_iff.mpr fun hp => ?_
    exact Nat.lt_irrefl _ (h _ hp (Nat.lt_succ_self s.arrivals))
  have hold : ∀ {index}, p (.fanOut index) = true →
      index < (r.carryOut s.informer s.arrivals).fanOuts.length →
        index < s.informer.fanOuts.length :=
    fun hp hk => h _ hp hk
  show Keeps p s.informer (r.carryOut s.informer s.arrivals)
  cases r with
  | addHandler a =>
    cases a with
    | direct => exact keeps_register hn s.informer
    | dynamic => exact keeps_refl p s.informer
  | removeHandler a id =>
    cases a with
    | direct => exact keeps_unregister s.informer id
    | dynamic => exact keeps_refl p s.informer
  | addFanOut a =>
    cases a with
    | direct =>
      refine keeps_addFanOut (a := .direct) rfl (Bool.eq_false_iff.mpr fun hp => ?_)
      refine Nat.lt_irrefl _ (hold hp ?_)
      show _ < (s.informer.fanOuts ++ [_]).length
      rw [List.length_append]
      exact Nat.lt_succ_self _
    | dynamic => exact keeps_refl p s.informer
  | dropFanOut index => exact keeps_dropFanOut s.informer index
  | join index name =>
    unfold Request.carryOut
    dsimp only
    split
    next inf key hj => exact keeps_join? hj hn
    next => exact keeps_refl p s.informer
  | leave index key => exact keeps_leave s.informer index key

/-! ## What a target is told -/

/-- Whatever goes to a target that `p` picks is heard by `t`, at once or when a fan-out passes it
on. -/
def Routed (s : Session α) (t : Target Nat) (p : Target Nat → Bool) : Prop :=
  ∀ c : Call α Nat,
    eventsFor p [c] = eventsFor (· == t) [c] ++ eventsFor p (passedOn s.informer c)

/-- A target behind no fan-out hears what goes to it, and nothing else. -/
theorem routed_self {s : Session α} {t : Target Nat}
    (h : ∀ k, (s.informer.joined k).count t = 0) : s.Routed t (· == t) := by
  intro c
  rw [eventsFor_passedOn h, List.append_nil]

/-- Nothing new has come that `p` picks. -/
structure Wanes (s s' : Session α) (p : Target Nat → Bool) : Prop where
  registered : s'.informer.targets.countP p ≤ s.informer.targets.countP p
  joined : ∀ k, (s'.informer.joined k).countP p ≤ (s.informer.joined k).countP p

theorem Wanes.mem_targets {s s' : Session α} {t : Target Nat} (h : Wanes s s' (· == t))
    (ht : t ∈ s'.informer.targets) : t ∈ s.informer.targets :=
  List.count_pos_iff.mp (Nat.lt_of_lt_of_le (List.count_pos_iff.mpr ht) h.registered)

/-- The store has changed as `es` tells, and `t` is to hear `es` if `p` picks something that is
registered. -/
structure Tells [Object α] (s s' : Session α) (t : Target Nat) (p : Target Nat → Bool)
    (es : List (Event α)) : Prop where
  leads : Leads s.informer.store.items es s'.informer.store.items
  told : s'.told t p = s.told t p ++ if s.informer.targets.any p then es else []

section Perform

variable [Object α] {s : Session α} {t : Target Nat} {p : Target Nat → Bool}

/-- An act lets no target come but those that it makes known. -/
theorem wanes_perform {a : Act α}
    (hnew : ∀ u, p u = true → (s.perform a).Known u → s.Known u) : Wanes s (s.perform a) p := by
  rcases steady_perform s a with ⟨r, rfl⟩ | h
  · have hk := keeps_request hnew
    exact ⟨hk.registered, hk.joined⟩
  · exact ⟨Nat.le_of_eq (by rw [h.targets]), fun k => Nat.le_of_eq (by rw [h.joined])⟩

theorem tells_nil {s' : Session α} (hstore : s'.informer.store = s.informer.store)
    (htold : s'.told t p = s.told t p) : Tells s s' t p [] where
  leads := by
    rw [hstore]
    exact leads_nil _
  told := by
    rw [htold, ite_self, List.append_nil]

/-- A batch tells a registered target all its events, and another one nothing. -/
theorem tells_batch (hs : s.informer.store.Sound) (hone : s.informer.targets.countP p ≤ 1)
    (b : Batch α) : Tells s (s.perform (.batch b)) t p (Act.events s (.batch b)) := by
  by_cases hr : s.AtRest
  · have hb := begins_begin hs b
    rw [perform_batch_of_atRest hr, events_batch_of_atRest hr]
    refine ⟨hb.leads, ?_⟩
    -- nothing was ahead, so the events of the batch are all that is now
    rw [told_of_atRest hr]
    show s.heard t ++ (b.begin s.informer).ahead p = _
    rw [hb.ahead, ahead_of_atRest hr, List.append_nil]
    split
    next hany =>
      have hpos : 0 < s.informer.targets.countP p :=
        List.countP_pos_iff.mpr (List.any_eq_true.mp hany)
      rw [eventsFor_callsOf_of_one (Nat.le_antisymm hone hpos)]
    next hany =>
      rw [eventsFor_callsOf_of_none (List.countP_eq_zero.mpr fun u hu hpu =>
        hany (List.any_eq_true.mpr ⟨u, hu, hpu⟩))]
  · rw [perform_batch_of_not_atRest hr, events_batch_of_not_atRest hr]
    exact tells_nil rfl rfl

/-- A call that is made moves from what is ahead to what was heard. -/
theorem tells_proceed (hroute : s.Routed t p) : Tells s (s.perform .proceed) t p [] := by
  obtain ⟨made, hp⟩ := proceeds_proceed s
  obtain ⟨rest, hbefore, hafter⟩ := hp.ahead p
  refine tells_nil hp.store ?_
  unfold told heard
  rw [hp.calls, eventsFor_append, hbefore, hafter, List.append_assoc]
  refine congrArg _ ?_
  cases made with
  | none => rfl
  | some c =>
    -- the call leaves what is ahead, and `hroute` says where it goes
    show eventsFor _ [c] ++ (eventsFor p ([c].flatMap _) ++ rest) = eventsFor p [c] ++ rest
    rw [List.flatMap_singleton, hroute c, List.append_assoc]

/-- **What one act does to what a target is told**, whatever the act is. -/
theorem tells_perform (hs : s.informer.store.Sound) (hone : s.informer.targets.countP p ≤ 1)
    (hroute : s.Routed t p) {a : Act α}
    (hnew : ∀ u, p u = true → (s.perform a).Known u → s.Known u) :
    Tells s (s.perform a) t p (a.events s) := by
  cases a with
  | batch b => exact tells_batch hs hone b
  | request r =>
    have hk := keeps_request hnew
    exact tells_nil hk.store (congrArg (s.heard t ++ ·) hk.ahead)
  | proceed => exact tells_proceed hroute

theorem store_request (s : Session α) (r : Request) :
    (s.perform (.request r)).informer.store = s.informer.store := by
  have hk : Keeps (fun _ => false) s.informer (s.perform (.request r)).informer :=
    keeps_request fun _ hu => absurd hu (by decide)
  exact hk.store

theorem store_proceed (s : Session α) :
    (s.perform .proceed).informer.store = s.informer.store := by
  obtain ⟨made, hp⟩ := proceeds_proceed s
  exact hp.store

theorem sound_perform (hs : s.informer.store.Sound) (a : Act α) :
    (s.perform a).informer.store.Sound := by
  cases a with
  | batch b =>
    by_cases hr : s.AtRest
    · rw [perform_batch_of_atRest hr]
      exact (begins_begin hs b).sound
    · rw [perform_batch_of_not_atRest hr]
      exact hs
  | request r =>
    rw [store_request]
    exact hs
  | proceed =>
    rw [store_proceed]
    exact hs

end Perform

/-! ## Whole runs -/

section Run

variable [Object α]

theorem run_concat (acts : List (Act α)) (a : Act α) : run (acts ++ [a]) = (run acts).perform a :=
  List.foldl_append

/-- What every act keeps on sound stores, every sequence of acts keeps. -/
theorem foldl_invariant {P : Session α → Prop}
    (step : ∀ s a, s.informer.store.Sound → P s → P (s.perform a)) (acts : List (Act α)) :
    ∀ {s : Session α}, s.informer.store.Sound → P s → P (acts.foldl perform s) := by
  induction acts with
  | nil => intro s _ h; exact h
  | cons a acts ih =>
    intro s hs h
    exact ih (sound_perform hs a) (step s a hs h)

theorem sound_run (acts : List (Act α)) : (run acts).informer.store.Sound :=
  foldl_invariant (P := fun s => s.informer.store.Sound) (fun _ a hs _ => sound_perform hs a) acts
    Store.sound_empty Store.sound_empty

/-- A target that nothing has been told and that is nowhere. -/
structure Absent (s : Session α) (t : Target Nat) : Prop where
  unregistered : s.informer.targets.count t = 0
  apart : ∀ k, (s.informer.joined k).count t = 0
  untold : s.told t (· == t) = []

/-- What is unknown after an act was so before it, and the act has not brought it. -/
theorem absent_perform {s : Session α} {t : Target Nat} (hs : s.informer.store.Sound)
    (h : s.Absent t) {a : Act α} (ht : ¬(s.perform a).Known t) : (s.perform a).Absent t := by
  have hnew : ∀ u, (u == t) = true → (s.perform a).Known u → s.Known u := by
    intro u hu hk
    rw [eq_of_beq hu] at hk
    exact absurd hk ht
  have hw := wanes_perform hnew
  have he := tells_perform hs (Nat.le_trans (Nat.le_of_eq h.unregistered) (Nat.zero_le 1))
    (routed_self h.apart) hnew
  have hany : s.informer.targets.any (· == t) = false := by
    rw [List.any_eq_false]
    exact List.countP_eq_zero.mp h.unregistered
  refine ⟨Nat.le_zero.mp (h.unregistered ▸ hw.registered), fun k => ?_, ?_⟩
  · exact Nat.le_zero.mp (h.apart k ▸ hw.joined k)
  · rw [he.told, h.untold, hany]
    rfl

/-- What has not come yet is nowhere. -/
theorem absent_run (acts : List (Act α)) : ∀ t, ¬(run acts).Known t → (run acts).Absent t := by
  refine foldl_invariant (P := fun s => ∀ t, ¬s.Known t → s.Absent t) ?_ acts
    Store.sound_empty fun t _ => ⟨rfl, fun k => rfl, rfl⟩
  intro s a hs ih t ht
  exact absent_perform hs (ih t fun hk => ht (known_perform hk a)) ht

end Run

/-! ## Coming to rest -/

/-- How many steps a call takes: it is made, and a fan-out makes one more for each handler behind it
and then ends. -/
def stepsOf {H : Type} (inf : Informer α H) (c : Call α H) : Nat :=
  match c.target with
  | .handler _ => 1
  | .fanOut index => 2 + (inf.joined index).length

def stepsOfAll {H : Type} (inf : Informer α H) (calls : List (Call α H)) : Nat :=
  calls.foldr (fun c n => stepsOf inf c + n) 0

/-- How many steps the deliveries under way take, if nothing is requested meanwhile. -/
def stepsLeft {H : Type} (inf : Informer α H) : Nat :=
  inf.deliveries.foldr (fun d n => 1 + stepsOfAll inf d.pending + n) 0

theorem stepsOf_congr {H : Type} {inf inf' : Informer α H} (h : Steady inf inf') :
    stepsOf inf' = stepsOf inf := by
  funext c
  unfold stepsOf
  split
  next => rfl
  next index _ => rw [h.joined]

/-- The calls that are passed on go to handlers, so each of them takes one step. -/
theorem stepsOfAll_dispatch {H : Type} (inf : Informer α H) (e : Event α) (index : Nat) :
    stepsOfAll inf (callsOf [e] (inf.joined index)) = (inf.joined index).length := by
  have hone : ∀ hs : List H,
      stepsOfAll inf (hs.map fun h => (⟨.handler h, e⟩ : Call α H)) = hs.length := by
    intro hs
    induction hs with
    | nil => rfl
    | cons h hs ih =>
      show 1 + stepsOfAll inf (hs.map _) = hs.length + 1
      rw [ih, Nat.add_comm]
  unfold joined callsOf
  rw [List.length_map, List.flatMap_singleton, List.map_map]
  exact hone (inf.handlersOf index)

/-- Every step that is not at rest leaves fewer to be taken. -/
theorem stepsLeft_proceed [Object α] {s : Session α} (h : ¬s.AtRest) :
    stepsLeft (s.perform .proceed).informer < stepsLeft s.informer := by
  obtain ⟨made, hstep⟩ := proceeds_proceed s
  have hw : stepsOf (s.perform .proceed).informer = stepsOf s.informer :=
    stepsOf_congr hstep.steady
  cases hd : s.informer.deliveries with
  | nil => exact absurd hd h
  | cons d ds =>
    obtain ⟨pending, completes⟩ := d
    unfold stepsLeft stepsOfAll
    rw [hw, hd, List.foldr_cons]
    cases pending with
    | nil =>
      have hds : (s.perform .proceed).informer.deliveries = ds := by
        simp only [perform, next?, close, hd]
      rw [hds]
      show _ < 1 + 0 + _
      omega
    | cons c cs =>
      have hp : (s.perform .proceed).informer =
          pass { s.informer with deliveries := ⟨cs, completes⟩ :: ds } c := by
        simp only [perform, next?, hd]
      rw [hp]
      unfold pass
      cases hc : c.target with
      | handler g =>
        have hone : stepsOf s.informer c = 1 := by
          unfold stepsOf
          rw [hc]
        show 1 + stepsOfAll s.informer cs + _ <
          1 + (stepsOf s.informer c + stepsOfAll s.informer cs) + _
        omega
      | fanOut index =>
        -- what is passed on takes two steps fewer than the call: one has been taken
        have htwo : stepsOf s.informer c = 2 + (s.informer.joined index).length := by
          unfold stepsOf
          rw [hc]
        have hall := stepsOfAll_dispatch s.informer c.event index
        show 1 + stepsOfAll s.informer (callsOf [c.event] (s.informer.joined index)) +
            (1 + stepsOfAll s.informer cs + _) <
          1 + (stepsOf s.informer c + stepsOfAll s.informer cs) + _
        omega

/-- Deliveries end: if nothing is requested, finitely many steps lead to rest. -/
theorem comes_to_rest [Object α] (s : Session α) :
    ∃ n, ((List.replicate n Act.proceed).foldl perform s).AtRest := by
  induction hn : stepsLeft s.informer using Nat.strongRecOn generalizing s with
  | ind n ih =>
    by_cases h : s.AtRest
    · exact ⟨0, h⟩
    · obtain ⟨k, hk⟩ := ih _ (hn ▸ stepsLeft_proceed h) (s.perform .proceed) rfl
      exact ⟨k + 1, hk⟩

end Session

end InformerHub
