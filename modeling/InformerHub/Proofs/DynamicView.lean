import InformerHub.Proofs.StaticView

/-!
# The view of a dynamic handler

A handler behind a fan-out may join in the middle of a batch, even in the middle of one event.  It
is then replayed all that is stored, and hears the rest of the batch as well, which tells of
changes that the replay already shows: items go back to older versions, and keys are deleted that
it never held.  Its history is not strict.  Still

> whenever nothing is being delivered, what it makes of its events is the content of the store

(`view_of_joined`), as long as neither the handler nor the fan-out has been removed.

The invariant is `Mirrors`, about the events that the handler has heard and those that are ahead of
it, by itself or through the fan-out.  At the moment of joining, the events ahead of the fan-out
are an ending of all that the fan-out is told; that history leads to the content of the store
(`follows_fanOut`), so after the replay its ending leads back there (`view_suffix`).  From then on
the acts do to the handler what they do to any target (`tells_perform`), with the one difference
that a call for the fan-out comes to it by being passed on (`routed_via`).
-/

namespace InformerHub.Session

open Informer History

variable {α : Type} {s : Session α} {n index : Nat}

/-- Picks a handler and the fan-out that it is behind. -/
def via (n index : Nat) (u : Target Nat) : Bool := u == .handler n || u == .fanOut index

theorem via_handler (n index m : Nat) : via n index (.handler m) = decide (m = n) := by
  unfold via
  by_cases hm : m = n <;> simp [hm]

theorem via_fanOut (n index k : Nat) : via n index (.fanOut k) = decide (k = index) := by
  unfold via
  by_cases hk : k = index <;> simp [hk]

theorem countP_via (n index : Nat) (ts : List (Target Nat)) :
    ts.countP (via n index) = ts.count (.handler n) + ts.count (.fanOut index) := by
  induction ts with
  | nil => rfl
  | cons u ts ih =>
    rw [List.countP_cons, List.count_cons, List.count_cons, ih]
    cases u with
    | handler m =>
      rw [via_handler]
      by_cases hm : m = n <;> simp [hm]
      omega
    | fanOut k =>
      rw [via_fanOut]
      by_cases hk : k = index <;> simp [hk]
      omega

/-- Behind a fan-out there are handlers only. -/
theorem count_fanOut_joined (inf : Informer α Nat) (k : Nat) :
    (inf.joined k).count (.fanOut index) = 0 := by
  refine List.count_eq_zero.mpr fun h => ?_
  obtain ⟨m, -, hm⟩ := List.mem_map.mp h
  exact absurd hm (by simp)

/-- A handler that is behind one fan-out, once, hears what goes to it and what goes to the
fan-out. -/
theorem routed_via (hone : (s.informer.joined index).count (.handler n) = 1)
    (hnone : ∀ k, k ≠ index → (s.informer.joined k).count (.handler n) = 0) :
    s.Routed (.handler n) (via n index) := by
  rintro ⟨t, e⟩
  rw [eventsFor_singleton, eventsFor_singleton]
  cases t with
  | handler m =>
    rw [via_handler]
    show _ = _ ++ ([] : List (Event α))
    by_cases hm : m = n <;> simp [hm]
  | fanOut k =>
    -- the fan-out itself is not the handler, but passes the event on to it if it is the right one
    rw [via_fanOut]
    show _ = _ ++ eventsFor _ (callsOf [e] (s.informer.joined k))
    by_cases hk : k = index
    · subst hk
      have hp : (s.informer.joined k).countP (via n k) = 1 := by
        rw [countP_via, hone, count_fanOut_joined]
      rw [eventsFor_callsOf_of_one hp]
      simp
    · have hp : (s.informer.joined k).countP (via n index) = 0 := by
        rw [countP_via, hnone k hk, count_fanOut_joined]
      rw [eventsFor_callsOf_of_none hp]
      simp [hk]

/-- A fan-out that has handlers behind it is one of the informer's. -/
theorem lt_of_mem_joined {t : Target Nat} (h : t ∈ s.informer.joined index) :
    index < s.informer.fanOuts.length := by
  refine Nat.lt_of_not_le fun hle => ?_
  unfold joined handlersOf at h
  rw [List.getElem?_eq_none hle] at h
  exact absurd h (by simp)

/-- Of calls that `p` picks none of, a wider test picks what the rest of it does. -/
theorem eventsFor_or {p q : Target Nat → Bool} {cs : List (Call α Nat)}
    (h : eventsFor p cs = []) : eventsFor (fun u => p u || q u) cs = eventsFor q cs := by
  have hp : ∀ c ∈ cs, p c.target = false := by
    intro c hc
    have hn := List.filter_eq_nil_iff.mp (List.map_eq_nil_iff.mp h) c hc
    exact Bool.eq_false_iff.mpr hn
  unfold eventsFor
  refine congrArg _ (List.filter_congr fun c hc => ?_)
  show (p c.target || q c.target) = q c.target
  rw [hp c hc, Bool.false_or]

section

variable [Object α]

/-- What a handler behind a fan-out has heard and is to hear leads to the content of the store, as
long as neither of the two has been removed. -/
structure Mirrors (s : Session α) (n index : Nat) : Prop where
  known : s.Known (.handler n)
  unregistered : s.informer.targets.count (.handler n) = 0
  once : (s.informer.joined index).count (.handler n) ≤ 1
  apart : ∀ k, k ≠ index → (s.informer.joined k).count (.handler n) = 0
  current : .handler n ∈ s.informer.joined index → .fanOut index ∈ s.informer.targets →
    view ∅ (s.told (.handler n) (via n index)) = s.informer.store.items

/-- After the replay, what is still ahead of a fan-out brings a newcomer to the content of the
store, however far back in time it goes. -/
theorem view_replay_ahead (hs : s.informer.store.Sound) (hf : s.Follows (.fanOut index))
    (ht : .fanOut index ∈ s.informer.targets) :
    view ∅ (Event.replay s.informer.store.list ++ s.informer.ahead (· == .fanOut index)) =
      s.informer.store.items := by
  rw [view_append, (Store.leads_replay hs).ends]
  exact view_suffix (hf.current ht)

/-- **A handler that joins catches up**, wherever in a batch it joins. -/
theorem mirrors_join (hs : s.informer.store.Sound)
    (hf : index < s.informer.fanOuts.length → s.Follows (.fanOut index))
    (h : s.Absent (.handler s.arrivals)) (name : String) :
    (s.perform (.request (.join index name))).Mirrors s.arrivals index := by
  obtain ⟨hheard, hahead⟩ := List.append_eq_nil_iff.mp h.untold
  show ({ s with
    informer := Request.carryOut s.informer s.arrivals (.join index name)
    arrivals := s.arrivals + 1 } : Session α).Mirrors s.arrivals index
  unfold Request.carryOut
  dsimp only
  split
  next inf key hj =>
    obtain ⟨hstore, htargets, -, hcount⟩ := join?_spec hj (· == .handler s.arrivals)
    obtain ⟨-, -, hvia, -⟩ := join?_spec hj (via s.arrivals index)
    have hjoined : ∀ k,
        (inf.joined k).count (.handler s.arrivals) ≤ if k = index then 1 else 0 := by
      intro k
      have hk := hcount k
      rw [show (s.informer.joined k).countP _ = 0 from h.apart k, Nat.zero_add] at hk
      rw [List.count]
      simpa using hk
    refine ⟨Nat.lt_succ_self _, ?_, ?_, fun k hk => ?_, fun _ ht => ?_⟩
    · show inf.targets.count _ = 0
      rw [htargets]
      exact h.unregistered
    · exact Nat.le_trans (hjoined index) (Nat.le_of_eq (if_pos rfl))
    · exact Nat.le_zero.mp (Nat.le_trans (hjoined k) (Nat.le_of_eq (if_neg hk)))
    · -- the replay comes first, then what the fan-out has still to hear
      have hi : index < s.informer.fanOuts.length := by
        obtain ⟨f, hfo, -⟩ := Option.map_eq_some_iff.mp hj
        exact (List.getElem?_eq_some_iff.mp hfo).1
      have ht₀ : .fanOut index ∈ s.informer.targets := htargets ▸ ht
      show view ∅ (s.heard _ ++ inf.ahead (via s.arrivals index)) = inf.store.items
      rw [hheard, List.nil_append, hvia, via_handler, decide_eq_true rfl, if_pos rfl, hstore,
        show s.informer.ahead (via s.arrivals index) = s.informer.ahead (· == .fanOut index) from
          eventsFor_or hahead]
      exact view_replay_ahead hs (hf hi) ht₀
  next =>
    -- there is no such fan-out, so nobody has joined
    refine ⟨Nat.lt_succ_self _, h.unregistered, ?_, fun k _ => h.apart k, fun hm => ?_⟩
    · rw [h.apart index]
      exact Nat.zero_le 1
    · exact absurd hm (List.count_eq_zero.mp (h.apart index))

theorem mirrors_perform (hs : s.informer.store.Sound)
    (hf : index < s.informer.fanOuts.length → s.Follows (.fanOut index)) (h : s.Mirrors n index)
    (a : Act α) : (s.perform a).Mirrors n index := by
  have hw : Wanes s (s.perform a) (· == .handler n) := wanes_perform (known_of_beq h.known)
  refine ⟨known_perform h.known a, Nat.le_zero.mp (h.unregistered ▸ hw.registered),
    Nat.le_trans (hw.joined index) h.once,
    fun k hk => Nat.le_zero.mp (h.apart k hk ▸ hw.joined k), fun hj ht => ?_⟩
  -- the handler and the fan-out were there before, since an act brings neither back
  have hpos : 0 < (s.informer.joined index).count (.handler n) :=
    Nat.lt_of_lt_of_le (List.count_pos_iff.mpr hj) (hw.joined index)
  have hj₀ : .handler n ∈ s.informer.joined index := List.count_pos_iff.mp hpos
  have hfan := hf (lt_of_mem_joined hj₀)
  have hwf : Wanes s (s.perform a) (· == .fanOut index) :=
    wanes_perform (known_of_beq hfan.known)
  have ht₀ := hwf.mem_targets ht
  -- so the act does to the two of them together what it does to a single target
  have hone : s.informer.targets.countP (via n index) ≤ 1 := by
    rw [countP_via, h.unregistered, Nat.zero_add]
    exact hfan.once
  have hroute := routed_via (Nat.le_antisymm h.once hpos) h.apart
  have hnew : ∀ u, via n index u = true → (s.perform a).Known u → s.Known u := by
    intro u hu hk
    rcases Bool.or_eq_true_iff.mp hu with hu | hu
    · exact known_of_beq h.known u hu hk
    · exact known_of_beq hfan.known u hu hk
  have he := tells_perform hs hone hroute hnew
  have hany : s.informer.targets.any (via n index) = true :=
    List.any_eq_true.mpr ⟨_, ht₀, Bool.or_eq_true_iff.mpr (Or.inr (beq_self_eq_true _))⟩
  rw [he.told, hany, if_pos rfl, view_append, h.current hj₀ ht₀]
  exact he.leads.ends

theorem mirrors_run (before : List (Act α)) (index : Nat) (name : String) (after : List (Act α)) :
    (run (before ++ .request (.join index name) :: after)).Mirrors (run before).arrivals index := by
  induction after using List.reverseRecOn with
  | nil =>
    rw [run_concat]
    exact mirrors_join (sound_run before) (follows_fanOut before index)
      (absent_run before _ (Nat.lt_irrefl _)) name
  | append_singleton after a ih =>
    rw [← List.cons_append, ← List.append_assoc, run_concat]
    exact mirrors_perform (sound_run _) (follows_fanOut _ index) ih a

/-- **A dynamic handler converges.**  Take any acts, and a handler that joins a fan-out at any
moment of them.  Whenever nothing is being delivered, the handler is behind the fan-out and the
fan-out is registered, the events that the handler has received lead from the empty map to the
content of the store.  The handler is there until its key leaves, and the fan-out is registered
until it is dropped or its id is removed. -/
theorem view_of_joined (before : List (Act α)) (index : Nat) (name : String)
    (after : List (Act α)) :
    let handler : Target Nat := .handler (run before).arrivals
    let s := run (before ++ .request (.join index name) :: after)
    (handler ∈ s.informer.joined index → .fanOut index ∈ s.informer.targets → s.AtRest →
        view ∅ (s.heard handler) = s.informer.store.items) ∧
      ∀ f, (run before).informer.fanOuts[index]? = some f →
        (.request (.leave index ⟨name, f.nextEpoch⟩) ∉ after →
          handler ∈ s.informer.joined index) ∧
        (.fanOut index ∈ (run before).informer.targets →
          .request (.dropFanOut index) ∉ after →
          .request (.removeHandler .direct f.registration) ∉ after →
            .fanOut index ∈ s.informer.targets) := by
  intro handler s
  refine ⟨fun hj ht hr => ?_, fun f hf => ⟨joined_of_kept before hf name after, ?_⟩⟩
  · have h := mirrors_run before index name after
    rw [← told_of_atRest hr handler (via (run before).arrivals index)]
    exact h.current hj ht
  · intro ht hdrop hkept
    exact fanOut_registered_of_kept before (_ :: after) hf ht
      (by simpa using hdrop) (by simpa using hkept)

end

/-- A static handler and a fan-out are there, and the static handler has just been told the first
event of a second list. -/
def midRelist : List (Act Scenario.Obj) :=
  [.request (.addHandler .direct), .proceed, .request (.addFanOut .direct), .proceed,
    .batch (.relist [item "a" 1, item "b" 1])] ++ List.replicate 7 .proceed ++
  [.batch (.relist [item "a" 2, item "c" 1, item "a" 3]), .proceed]

/-- Everything is delivered after a handler has joined inside that callback. -/
def lateJoin : List (Act Scenario.Obj) :=
  midRelist ++ .request (.join 0 "late") :: List.replicate 20 .proceed

/-- A dynamic handler that joins inside that callback.  What it hears after the replay goes back to
an older version, adds an item again, and deletes a key that it never held. -/
theorem view_of_joined_in_callback :
    let handler : Target Nat := .handler (run midRelist).arrivals
    let s := run lateJoin
    handler ∈ s.informer.joined 0 ∧ .fanOut 0 ∈ s.informer.targets ∧ s.AtRest ∧
      s.heard handler =
        [.add (item "a" 3) true, .add (item "c" 1) true, .update (item "a" 1) (item "a" 2),
          .add (item "c" 1) false, .update (item "a" 2) (item "a" 3), .delete (item "b" 1)] ∧
      view ∅ (s.heard handler) = s.informer.store.items := by
  obtain ⟨hview, hstays⟩ := view_of_joined midRelist 0 "late" (List.replicate 20 .proceed)
  obtain ⟨f, hf⟩ : ∃ f, (run midRelist).informer.fanOuts[0]? = some f :=
    Option.isSome_iff_exists.mp (by decide +kernel)
  have hj := (hstays f hf).1 (by simp)
  have ht := (hstays f hf).2 (by decide +kernel) (by simp) (by simp)
  have hr : (run lateJoin).AtRest := List.isEmpty_iff.mp (by decide +kernel)
  exact ⟨hj, ht, hr, by decide +kernel, hview hj ht hr⟩

end InformerHub.Session
