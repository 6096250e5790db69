import InformerHub.Proofs.StaticView
import InformerHub.Proofs.Transcript

/-!
# The batch of the first list

The batch of the first list completes the sync.  It is the only one that does: no batch begins
before the one before it is over, so a later list finds the informer synced.

> The informer is synced if and only if the batch of the first list is over (`Latches.synced_iff`),
> and the adds of that batch alone are marked as initial (`Flagged`).

Whoever is registered follows the store from then on (`Attentive`), so when nothing is being
delivered he has been told of all that is stored.  All this holds as long as no callback panics
(`Transcript.Calm`).
-/

namespace InformerHub

open Informer Session History

variable {α : Type}

/-! ## The first list -/

namespace Ledger

/-- The number of the batch of the first list. -/
def first? (l : Ledger α) : Option Nat := l.occasions.findIdx? fun o => o.list?.isSome

/-- Only the batch of the first list completes the sync, and it has done so if it is over. -/
structure Latches (l : Ledger α) (ds : List (Delivery α Nat)) (synced : Bool) : Prop where
  completes : ∀ x ∈ l.underWay.zip ds, x.2.completesSync = true ↔ l.first? = some x.1
  synced_iff : synced = true ↔ ∃ n, l.first? = some n ∧ n ∉ l.underWay

section Latches

variable {l : Ledger α} {ds : List (Delivery α Nat)} {synced : Bool} {n : Nat}

theorem lt_of_first? (h : l.first? = some n) : n < l.occasions.length :=
  (List.findIdx?_eq_some_iff_getElem.mp h).1

/-- The first list is one. -/
theorem list_of_first? (h : l.first? = some n) :
    ∃ items events audience,
      l.occasions[n]? = some (.batch (.relist items) events audience) := by
  obtain ⟨hn, hlist, -⟩ := List.findIdx?_eq_some_iff_getElem.mp h
  rw [List.getElem?_eq_getElem hn]
  cases ho : l.occasions[n] with
  | batch b events audience =>
    cases b with
    | relist items => exact ⟨items, events, audience, rfl⟩
    | change | resync =>
      rw [ho] at hlist
      exact absurd hlist Bool.false_ne_true
  | replay | aside =>
    rw [ho] at hlist
    exact absurd hlist Bool.false_ne_true

theorem first?_begin (l : Ledger α) (o : Occasion α) : (l.begin o).first? =
    l.first?.or (if o.list?.isSome then some l.occasions.length else none) := by
  unfold first? begin
  rw [List.findIdx?_append]
  refine congrArg _ ?_
  cases ho : o.list?.isSome <;> simp [ho]

theorem first?_begin_of_some (h : l.first? = some n) (o : Occasion α) :
    (l.begin o).first? = some n := by
  rw [first?_begin, h]
  rfl

theorem latches_new : (new : Ledger α).Latches [] false where
  completes x hx := absurd hx List.not_mem_nil
  synced_iff := by simp [first?, new]

theorem Latches.call {c : Call α Nat} {cs : List (Call α Nat)} {completes : Bool}
    (h : l.Latches (⟨c :: cs, completes⟩ :: ds) synced) :
    (l.call c).Latches (⟨cs, completes⟩ :: ds) synced := by
  refine ⟨fun x hx => ?_, h.synced_iff⟩
  show _ ↔ l.first? = _
  have hx : x ∈ l.underWay.zip (⟨cs, completes⟩ :: ds) := hx
  have hold := h.completes
  cases hu : l.underWay with
  | nil =>
    rw [hu] at hx
    exact absurd hx List.not_mem_nil
  | cons n ns =>
    rw [hu, List.zip_cons_cons] at hx hold
    rcases List.mem_cons.mp hx with rfl | hx
    · exact hold (n, ⟨c :: cs, completes⟩) List.mem_cons_self
    · exact hold x (List.mem_cons_of_mem _ hx)

/-- A list that is taken while another one has been taken before finds the informer synced. -/
theorem Latches.synced_of_list (h : l.Latches ds synced) (hk : l.Kept ds) (hf : l.first? = some n)
    {o : Occasion α} (hbatch : o.isBatch = true → ds = []) (hlist : o.list?.isSome = true) :
    synced = true := by
  have hds : ds = [] := hbatch (by
    cases o with
    | batch => rfl
    | replay | aside => exact absurd hlist Bool.false_ne_true)
  have hu : l.underWay = [] := List.length_eq_zero_iff.mp (by rw [hk.length, hds]; rfl)
  exact h.synced_iff.mpr ⟨n, hf, by rw [hu]; exact List.not_mem_nil⟩

/-- What begins completes the sync if it is a list, and none has been taken before. -/
theorem Latches.begin (h : l.Latches ds synced) (hk : l.Kept ds) (o : Occasion α)
    (hbatch : o.isBatch = true → ds = []) :
    (l.begin o).Latches (⟨o.calls, o.list?.isSome && !synced⟩ :: ds) synced := by
  have hzip : (l.begin o).underWay.zip (⟨o.calls, o.list?.isSome && !synced⟩ :: ds) =
      (l.occasions.length, ⟨o.calls, o.list?.isSome && !synced⟩) :: l.underWay.zip ds := rfl
  have hmem : ∀ {n}, n ∈ (l.begin o).underWay ↔ n = l.occasions.length ∨ n ∈ l.underWay :=
    List.mem_cons
  cases hf : l.first? with
  | some n =>
    -- the first list remains the same, and what begins does not complete the sync
    have hne : n ≠ l.occasions.length := Nat.ne_of_lt (lt_of_first? hf)
    refine ⟨fun x hx => ?_, ?_⟩
    · rw [first?_begin_of_some hf, ← hf]
      rcases List.mem_cons.mp (hzip ▸ hx) with rfl | hx
      · rw [Bool.and_eq_true, hf]
        refine ⟨fun hflag => ?_, fun he => absurd (Option.some.inj he) hne⟩
        rw [h.synced_of_list hk hf hbatch hflag.1] at hflag
        exact absurd hflag.2 (by simp)
      · exact h.completes x hx
    · rw [h.synced_iff, first?_begin_of_some hf, hf]
      refine exists_congr fun m => and_congr_right fun hm => not_congr ?_
      rw [hmem, ← Option.some.inj hm]
      exact ⟨Or.inr, fun ho => ho.resolve_left hne⟩
  | none =>
    have hsynced : synced = false := by
      rw [Bool.eq_false_iff, Ne, h.synced_iff, hf]
      simp
    have hfirst : (l.begin o).first? =
        if o.list?.isSome then some l.occasions.length else none := by
      rw [first?_begin, hf]
      rfl
    refine ⟨fun x hx => ?_, ?_⟩
    · rw [hfirst]
      rcases List.mem_cons.mp (hzip ▸ hx) with rfl | hx
      · rw [hsynced]
        cases o.list?.isSome <;> simp
      · have hlt := hk.known x.1 (List.of_mem_zip hx).1
        rw [h.completes x hx, hf]
        cases o.list?.isSome with
        | true => simp [(Nat.ne_of_lt hlt).symm]
        | false => simp
    · rw [hsynced, hfirst]
      cases o.list?.isSome <;> simp [hmem]

theorem Latches.finish {completes : Bool} (h : l.Latches (⟨[], completes⟩ :: ds) synced)
    (hk : l.Kept (⟨[], completes⟩ :: ds)) : l.finish.Latches ds (synced || completes) := by
  obtain ⟨n, ns, o, hu, -, -, hn⟩ := hk.cons_cases
  have hold := h.completes
  rw [hu, List.zip_cons_cons] at hold
  have hcompletes : completes = true ↔ l.first? = some n := hold (n, _) List.mem_cons_self
  have htail : l.finish.underWay = ns := by
    unfold Ledger.finish
    rw [hu]
    rfl
  refine ⟨fun x hx => hold x (List.mem_cons_of_mem _ (htail ▸ hx)), ?_⟩
  rw [Bool.or_eq_true, h.synced_iff, hcompletes, htail, hu]
  show _ ↔ ∃ m, l.first? = some m ∧ m ∉ ns
  constructor
  · rintro (⟨m, hf, hm⟩ | hf)
    · exact ⟨m, hf, fun hmem => hm (List.mem_cons_of_mem _ hmem)⟩
    · exact ⟨n, hf, hn⟩
  · rintro ⟨m, hf, hm⟩
    by_cases hmn : m = n
    · exact Or.inr (hmn ▸ hf)
    · exact Or.inl ⟨m, hf, fun hmem => (List.mem_cons.mp hmem).elim hmn hm⟩

theorem Latches.note {inf inf' : Informer α Nat} (h : l.Latches inf.deliveries inf.synced)
    (hk : l.Kept inf.deliveries) {deed : Option (Deed α)} {o : Option (Occasion α)}
    (hd : Delivers inf inf' deed o) :
    (l.note deed o).Latches inf'.deliveries inf'.synced := by
  cases hd with
  | rests hds hsynced =>
    rw [hds, hsynced]
    exact h
  | begins hbatch hds hsynced =>
    rw [hds, hsynced]
    exact h.begin hk _ hbatch
  | calls hbefore hds hsynced =>
    rw [hds, hsynced]
    exact Latches.call (hbefore ▸ h)
  | forwards hbefore hds hsynced =>
    rw [hds, hsynced]
    exact (Latches.call (hbefore ▸ h)).begin (Kept.call (hbefore ▸ hk)) _
      fun hb => absurd hb (by simp [Occasion.isBatch])
  | finishes hbefore hds hsynced =>
    rw [hds, hsynced]
    exact Latches.finish (hbefore ▸ h) (hbefore ▸ hk)

end Latches

end Ledger

/-! ## The flag of an add -/

section Flag

theorem add_not_mem_deleteAll {x : α} {flag : Bool} (keys : List String) :
    ∀ s : Store α, .add x flag ∉ (Store.deleteAll keys s).2 := by
  induction keys with
  | nil => exact fun _ h => absurd h List.not_mem_nil
  | cons k keys ih =>
    intro s h
    simp only [Store.deleteAll] at h
    split at h
    next =>
      rcases List.mem_cons.mp h with h | h
      · exact absurd h (by simp)
      · exact ih _ h
    next => exact ih _ h

variable [Object α]

theorem initial_of_mem_upsertAll {initial : Bool} {items : List α} :
    ∀ {s : Store α} {x : α} {flag : Bool},
      .add x flag ∈ (Store.upsertAll initial items s).2 → flag = initial := by
  induction items with
  | nil => exact fun h => absurd h List.not_mem_nil
  | cons y items ih =>
    intro s x flag h
    simp only [Store.upsertAll] at h
    split at h
    next =>
      rcases List.mem_cons.mp h with h | h
      · exact absurd h (by simp)
      · exact ih h
    next =>
      rcases List.mem_cons.mp h with h | h
      · exact (Event.add.inj h).2
      · exact ih h

/-- The adds of a batch are initial if it is that of a list, and the informer is not synced. -/
theorem initial_of_mem_events {inf : Informer α Nat} {b : Batch α} {x : α} {flag : Bool}
    (h : .add x flag ∈ b.events inf) (events : List (Event α))
    (audience : List (Registration Nat)) :
    flag = ((Occasion.batch b events audience).list?.isSome && !inf.synced) := by
  cases b with
  | relist items =>
    rcases List.mem_append.mp h with h | h
    · exact initial_of_mem_upsertAll h
    · exact absurd h (add_not_mem_deleteAll _ _)
  | change c =>
    have hevent : (relate inf.store c).2 = some (.add x flag) := Option.mem_toList.mp h
    rw [relate_event] at hevent
    cases c with
    | added y | modified y =>
      dsimp only at hevent
      cases hold : inf.store.items.get? (keyOf y) with
      | none =>
        rw [hold] at hevent
        exact (Event.add.inj (Option.some.inj hevent)).2.symm
      | some old =>
        rw [hold] at hevent
        exact absurd hevent (by simp)
    | deleted y => exact absurd hevent (by simp)
  | resync =>
    obtain ⟨y, -, hy⟩ := List.mem_map.mp h
    exact absurd hy (by simp)

end Flag

namespace Ledger

/-- An add is initial if it belongs to the batch of the first list. -/
def Flagged (l : Ledger α) : Prop := ∀ n b events audience,
  l.occasions[n]? = some (.batch b events audience) →
    ∀ x flag, .add x flag ∈ events → (flag = true ↔ l.first? = some n)

section Flagged

variable {l : Ledger α}

/-- What begins to be delivered is not a list that was the first one before. -/
theorem first?_begin_iff {n : Nat} (hn : n < l.occasions.length) (o : Occasion α) :
    (l.begin o).first? = some n ↔ l.first? = some n := by
  rw [first?_begin]
  cases l.first? with
  | some m => exact Iff.rfl
  | none =>
    cases o.list?.isSome with
    | true => simp [(Nat.ne_of_lt hn).symm]
    | false => exact Iff.rfl

theorem Flagged.begin (h : l.Flagged) (o : Occasion α)
    (hnew : ∀ b events audience, o = .batch b events audience → ∀ x flag, .add x flag ∈ events →
      (flag = true ↔ (l.begin o).first? = some l.occasions.length)) : (l.begin o).Flagged := by
  intro n b events audience ho x flag hx
  rcases getElem?_concat_eq_some.mp ho with ho | ⟨rfl, hlast⟩
  · rw [first?_begin_iff (List.getElem?_eq_some_iff.mp ho).1]
    exact h n b events audience ho x flag hx
  · exact hnew b events audience hlast x flag hx

theorem Flagged.note [Object α] {inf inf' : Informer α Nat} (h : l.Flagged)
    (hl : l.Latches inf.deliveries inf.synced) (hk : l.Kept inf.deliveries)
    {deed : Option (Deed α)} {o : Option (Occasion α)} (hd : Delivers inf inf' deed o)
    (hevents : ∀ b events audience, o = some (.batch b events audience) →
      events = b.events inf) : (l.note deed o).Flagged := by
  cases hd with
  | rests | calls | finishes => exact h
  | forwards => exact Flagged.begin (l := l.call _) h _ (by simp)
  | begins hbatch =>
    refine h.begin _ fun b events audience ho x flag hx => ?_
    -- the flag is what the delivery of the batch does to the sync
    have hflag := (hl.begin hk _ hbatch).completes _ List.mem_cons_self
    have hx : .add x flag ∈ b.events inf := hevents b events audience (congrArg some ho) ▸ hx
    rw [initial_of_mem_events hx events audience, ← ho]
    exact hflag

end Flagged

end Ledger

/-! ## What everybody has been told -/

namespace Session

/-- Everybody who is registered follows the store, and nobody is told anything before he comes. -/
structure Attentive [Object α] (s : Session α) : Prop where
  absent : ∀ t, ¬s.Known t → s.Absent t
  follows : ∀ t ∈ s.informer.targets, s.Follows t

section Attentive

variable [Object α] {s : Session α}

/-- Whoever is registered by an act follows the store from then on. -/
theorem follows_comes {a : Act α} {t : Target Nat} {o : Option (Occasion α)} {id : Option Nat}
    (hs : s.informer.store.Sound) (h : s.Absent t) (he : Enters s (s.perform a) id (some t) o)
    (hd : Delivers s.informer (s.perform a).informer (s.deed? a) o) :
    (s.perform a).Follows t := by
  have hcalls := calls_perform s a
  generalize s.deed? a = deed at hcalls hd
  cases he with
  | comes t hregs _ _ hknown hstore hjoined =>
    cases hd with
    | begins _ hds =>
      refine follows_register hs h hknown ?_ hstore hregs hds hjoined
      rw [hcalls]
      exact List.append_nil _

theorem attentive_perform (hs : s.informer.store.Sound) (h : s.Attentive) (a : Act α) :
    (s.perform a).Attentive := by
  refine ⟨fun t ht => ?_, fun t ht => ?_⟩
  · exact absent_perform hs (h.absent t fun hk => ht (known_perform hk a)) ht
  · have stays : t ∈ s.informer.targets → (s.perform a).Follows t :=
      fun hmem => follows_perform hs (h.follows t hmem) a
    have he := enters_perform s a
    have hd := delivers_perform s a
    obtain ⟨g, hg, rfl⟩ := List.mem_map.mp ht
    generalize s.removed? a = id at he
    generalize s.newcomer? a = u at he
    generalize s.occasion? a = o at he hd
    cases he with
    | goes id hregs =>
      rw [hregs] at hg
      exact stays (List.mem_map_of_mem (List.mem_filter.mp hg).1)
    | batch _ hregs | aside hregs =>
      rw [hregs] at hg
      exact stays (List.mem_map_of_mem hg)
    | comes u hregs hnext hnew hu hstore hjoined =>
      rw [hregs] at hg
      rcases List.mem_append.mp hg with hg | hg
      · exact stays (List.mem_map_of_mem hg)
      · rw [List.mem_singleton.mp hg]
        exact follows_comes hs (h.absent u hnew) (.comes u hregs hnext hnew hu hstore hjoined) hd

theorem attentive_start (h : s.Attentive) : s.start.Attentive where
  absent t ht :=
    have ha := h.absent t ht
    ⟨ha.unregistered, ha.apart, ha.untold⟩
  follows t ht :=
    have hf := h.follows t ht
    ⟨hf.known, hf.once, hf.apart, hf.strict, hf.current⟩

end Attentive

end Session

/-- The event puts an item into the view of its listener. -/
def Event.Tells (x : α) : Event α → Prop
  | .add y _ | .update _ y => y = x
  | .delete _ => False

/-- What is in a view has been told. -/
theorem exists_tells [Object α] {es : List (Event α)} {k : String} {x : α}
    (h : (view ∅ es).get? k = some x) : ∃ e ∈ es, e.Tells x := by
  induction es using List.reverseRecOn with
  | nil => exact absurd h (by simp [view])
  | append_singleton es e ih =>
    have hlast : e ∈ es ++ [e] := List.mem_append_right _ (List.mem_singleton_self e)
    have put : ∀ y : α, ((view ∅ es).insert (keyOf y) y).get? k = some x →
        y = x ∨ (view ∅ es).get? k = some x := by
      intro y hy
      by_cases hk : k = keyOf y
      · subst hk
        rw [SortedMap.get?_insert_self] at hy
        exact Or.inl (Option.some.inj hy)
      · rw [SortedMap.get?_insert_of_ne hk] at hy
        exact Or.inr hy
    have before : (view ∅ es).get? k = some x → ∃ e' ∈ es ++ [e], e'.Tells x := by
      intro hx
      obtain ⟨e', he', htells⟩ := ih hx
      exact ⟨e', List.mem_append_left _ he', htells⟩
    rw [view_append] at h
    cases e with
    | add y flag =>
      rcases put y h with hy | hx
      · exact ⟨_, hlast, hy⟩
      · exact before hx
    | update old y =>
      rcases put y h with hy | hx
      · exact ⟨_, hlast, hy⟩
      · exact before hx
    | delete y =>
      have h : ((view ∅ es).erase (keyOf y)).get? k = some x := h
      by_cases hk : k = keyOf y
      · subst hk
        rw [SortedMap.get?_erase_self] at h
        exact absurd h (by simp)
      · rw [SortedMap.get?_erase_of_ne hk] at h
        exact before h

/-! ## Transcripts without panics -/

namespace Transcript

/-- No callback has panicked. -/
structure Calm [Object α] (t : Transcript α) : Prop where
  kept : t.Kept
  latches : t.ledger.Latches t.session.informer.deliveries t.session.informer.synced
  flagged : t.ledger.Flagged
  attentive : t.session.Attentive
  cut : t.ledger.cut = []

section Calm

variable [Object α] {t : Transcript α}

theorem calm_new : (new : Transcript α).Calm where
  kept := kept_new
  latches := Ledger.latches_new
  flagged n b events audience ho := absurd ho (by simp [new, Ledger.new])
  attentive := ⟨fun _ _ => ⟨rfl, fun _ => rfl, rfl⟩, fun t ht => absurd ht List.not_mem_nil⟩
  cut := rfl

theorem calm_perform (h : t.Calm) {a : Act α} (ha : ∀ n, a ≠ .panic n) : (t.perform a).Calm := by
  have hkept := kept_perform h.kept a
  cases a with
  | panic n => exact absurd rfl (ha n)
  | start => exact ⟨hkept, h.latches, h.flagged, attentive_start h.attentive, h.cut⟩
  | onSession a =>
    have hd := delivers_perform t.session a
    refine ⟨hkept, h.latches.note h.kept.ledger hd, h.flagged.note h.latches h.kept.ledger hd ?_,
      attentive_perform h.kept.sound h.attentive a, (Ledger.cut_note ..).trans h.cut⟩
    intro b events audience ho
    have he := enters_perform t.session a
    rw [ho] at he
    generalize t.session.removed? a = id at he
    generalize t.session.newcomer? a = u at he
    cases he
    rfl

theorem calm_foldl (h : t.Calm) (acts : List (Act α)) (hacts : ∀ n, .panic n ∉ acts) :
    (t.run acts).Calm := by
  unfold run
  induction acts generalizing t with
  | nil => exact h
  | cons a acts ih =>
    refine ih (calm_perform h fun n he => hacts n ?_) fun n hn => hacts n (List.mem_cons_of_mem a hn)
    rw [he]
    exact List.mem_cons_self

end Calm

end Transcript

end InformerHub
