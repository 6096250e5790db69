import InformerHub.Event.Filter
import InformerHub.Proofs.StaticView

/-!
# What a handler behind a filter holds

A handler behind a filter holds the keys that it was told to add and has not been told to delete
since.  They ought to be the keys of the stored items that the filter accepts, and

> they are never fewer, and they are exactly these as long as no item slips past the filter
> (`held_of_registered`).

Which version of an item the filter is asked about depends on the event.  An update is judged on the
version that it replaces, and a relist deletes an item in the version that was stored; the handler
was told of either one before.  A deletion at the source comes with an object of its own, which is
what the handlers are told.  If the filter accepts the stored version and not this object, the item
slips (`slips`): the store drops it, and the handler goes on to hold its key (`held_of_slips`).

An event that is `Faithful` takes the accepted keys before it to those after it
(`hear_acceptedKeys`).  All events are, but for the deletes of items that slip: `faithful_batch`
says so of each kind of batch, and `faithful_foldl` of all that a target is told.
-/

namespace InformerHub

variable {α : Type}

/-! ## Sets of keys -/

namespace KeySet

theorem mem_insert {held : KeySet} {k k' : String} :
    k' ∈ (held.insert k ()).keys ↔ k' = k ∨ k' ∈ held.keys := by
  rw [SortedMap.mem_keys_iff, SortedMap.mem_keys_iff]
  by_cases hk : k' = k
  · subst hk
    rw [SortedMap.get?_insert_self]
    exact ⟨fun _ => Or.inl rfl, fun _ => ⟨(), rfl⟩⟩
  · rw [SortedMap.get?_insert_of_ne hk]
    exact ⟨Or.inr, fun h => h.resolve_left hk⟩

theorem mem_erase {held : KeySet} {k k' : String} :
    k' ∈ (held.erase k).keys ↔ k' ≠ k ∧ k' ∈ held.keys := by
  rw [SortedMap.mem_keys_iff, SortedMap.mem_keys_iff]
  by_cases hk : k' = k
  · subst hk
    rw [SortedMap.get?_erase_self]
    exact ⟨fun ⟨_, h⟩ => absurd h (by simp), fun h => absurd rfl h.1⟩
  · rw [SortedMap.get?_erase_of_ne hk]
    exact ⟨fun h => ⟨hk, h⟩, And.right⟩

end KeySet

/-! ## Behind a filter -/

namespace Event

variable [Object α]

/-- The keys that a handler holds after an event. -/
def keep (held : KeySet) : Event α → KeySet
  | .add a _ => held.insert (keyOf a) ()
  | .update .. => held
  | .delete a => held.erase (keyOf a)

/-- The keys that a handler behind a filter holds after an event. -/
def hear (accepts : α → Bool) (held : KeySet) (e : Event α) : KeySet :=
  match e.filtered accepts with
  | some e => keep held e
  | none => held

/-- A delete of an accepted version carries an accepted version. -/
def Faithful (accepts : α → Bool) (m : SortedMap String α) : Event α → Prop
  | .delete a => ∀ held, m.get? (keyOf a) = some held → accepts held = true → accepts a = true
  | .add .. | .update .. => True

end Event

namespace History

variable {accepts : α → Bool} {m : SortedMap String α}

/-- The keys of the items that a filter accepts. -/
def acceptedKeys (accepts : α → Bool) (m : SortedMap String α) : KeySet :=
  (m.filter fun _ a => accepts a).mapValues fun _ _ => ()

theorem get?_acceptedKeys (k : String) :
    (acceptedKeys accepts m).get? k = ((m.get? k).filter accepts).map fun _ => () := by
  unfold acceptedKeys
  rw [SortedMap.get?_mapValues, SortedMap.get?_filter]

theorem mem_acceptedKeys {k : String} :
    k ∈ (acceptedKeys accepts m).keys ↔ ∃ a, m.get? k = some a ∧ accepts a = true := by
  rw [SortedMap.mem_keys_iff]
  simp [get?_acceptedKeys, Option.filter_eq_some_iff]

theorem acceptedKeys_insert (k : String) (a : α) :
    acceptedKeys accepts (m.insert k a) =
      if accepts a then (acceptedKeys accepts m).insert k ()
      else (acceptedKeys accepts m).erase k := by
  refine SortedMap.ext_get? fun k' => ?_
  rw [get?_acceptedKeys]
  by_cases hk : k' = k
  · subst hk
    rw [SortedMap.get?_insert_self]
    split
    next ha => rw [SortedMap.get?_insert_self, Option.filter_some_pos ha]; rfl
    next ha =>
      rw [SortedMap.get?_erase_self, Option.filter_some_neg (Bool.eq_false_iff.mpr ha)]
      rfl
  · rw [SortedMap.get?_insert_of_ne hk, ← get?_acceptedKeys]
    split
    next => rw [SortedMap.get?_insert_of_ne hk]
    next => rw [SortedMap.get?_erase_of_ne hk]

theorem acceptedKeys_erase (k : String) :
    acceptedKeys accepts (m.erase k) = (acceptedKeys accepts m).erase k := by
  refine SortedMap.ext_get? fun k' => ?_
  rw [get?_acceptedKeys]
  by_cases hk : k' = k
  · subst hk
    rw [SortedMap.get?_erase_self, SortedMap.get?_erase_self]
    rfl
  · rw [SortedMap.get?_erase_of_ne hk, SortedMap.get?_erase_of_ne hk, get?_acceptedKeys]

/-- A key whose item is not accepted, or that has none, is not there to be dropped. -/
theorem erase_acceptedKeys {k : String} (h : ∀ a, m.get? k = some a → accepts a = false) :
    (acceptedKeys accepts m).erase k = acceptedKeys accepts m := by
  refine SortedMap.erase_eq_self ?_
  rw [get?_acceptedKeys, Option.map_eq_none_iff, Option.filter_eq_none_iff]
  intro a ha
  rw [h a ha]
  decide

variable [Object α]

/-- Every item of a map lies under its own key. -/
def Keyed (m : SortedMap String α) : Prop := ∀ k a, m.get? k = some a → keyOf a = k

/-- **One faithful event.**  Who holds the accepted keys goes on to hold them. -/
theorem hear_acceptedKeys (hm : Keyed m) {e : Event α}
    (he : e.Fits m) (hf : e.Faithful accepts m) :
    e.hear accepts (acceptedKeys accepts m) = acceptedKeys accepts (e.applyTo m) := by
  cases e with
  | add a initial =>
    have hnone : m.get? (keyOf a) = none := he
    show _ = acceptedKeys accepts (m.insert (keyOf a) a)
    rw [acceptedKeys_insert]
    cases ha : accepts a with
    | true => simp [Event.hear, Event.filtered, Event.keep, ha]
    | false =>
      rw [if_neg (by decide), erase_acceptedKeys fun b hb => absurd (hnone.symm.trans hb) (by simp)]
      simp [Event.hear, Event.filtered, ha]
  | update old a =>
    have hold : m.get? (keyOf a) = some old := he
    show _ = acceptedKeys accepts (m.insert (keyOf a) a)
    rw [acceptedKeys_insert]
    -- the filter is asked about the version that is replaced, which lies under the same key
    cases ho : accepts old with
    | true =>
      cases ha : accepts a with
      | true =>
        have hin : (acceptedKeys accepts m).get? (keyOf a) = some () := by
          rw [get?_acceptedKeys, hold, Option.filter_some_pos ho]
          rfl
        rw [if_pos rfl, SortedMap.insert_eq_self hin]
        simp [Event.hear, Event.filtered, Event.keep, ho, ha]
      | false => simp [Event.hear, Event.filtered, Event.keep, ho, ha, hm _ _ hold]
    | false =>
      cases ha : accepts a with
      | true => simp [Event.hear, Event.filtered, Event.keep, ho, ha]
      | false =>
        have hout : ∀ b, m.get? (keyOf a) = some b → accepts b = false := by
          intro b hb
          rw [← Option.some.inj (hold.symm.trans hb)]
          exact ho
        rw [if_neg (by decide), erase_acceptedKeys hout]
        simp [Event.hear, Event.filtered, ho, ha]
  | delete a =>
    show _ = acceptedKeys accepts (m.erase (keyOf a))
    rw [acceptedKeys_erase]
    cases ha : accepts a with
    | true => simp [Event.hear, Event.filtered, Event.keep, ha]
    | false =>
      have hout : ∀ b, m.get? (keyOf a) = some b → accepts b = false := by
        intro b hb
        refine Bool.eq_false_iff.mpr fun hacc => ?_
        exact absurd (hf b hb hacc) (by simp [ha])
      rw [erase_acceptedKeys hout]
      simp [Event.hear, Event.filtered, ha]

/-- A handler that holds more goes on to hold more. -/
theorem hear_mono {held held' : KeySet} (h : held.keys ⊆ held'.keys) (e : Event α) :
    (e.hear accepts held).keys ⊆ (e.hear accepts held').keys := by
  unfold Event.hear
  cases e.filtered accepts with
  | none => exact h
  | some e =>
    intro k hk
    cases e with
    | add a initial => exact KeySet.mem_insert.mpr ((KeySet.mem_insert.mp hk).imp_right (@h k))
    | update old a => exact h hk
    | delete a => exact KeySet.mem_erase.mpr ((KeySet.mem_erase.mp hk).imp_right (@h k))

/-- Any event: no accepted key is missed. -/
theorem acceptedKeys_subset_hear (hm : Keyed m) {e : Event α}
    (he : e.Fits m) :
    (acceptedKeys accepts (e.applyTo m)).keys ⊆
      (e.hear accepts (acceptedKeys accepts m)).keys := by
  by_cases hf : e.Faithful accepts m
  · rw [hear_acceptedKeys hm he hf]
    exact List.Subset.refl _
  · cases e with
    | add a initial => exact absurd trivial hf
    | update old a => exact absurd trivial hf
    | delete a =>
      -- the item slips: its key is dropped from the map, and the handler hears nothing
      have ha : accepts a = false := Bool.eq_false_iff.mpr fun ha => hf fun _ _ _ => ha
      intro k hk
      rw [Event.applyTo, acceptedKeys_erase] at hk
      simpa [Event.hear, Event.filtered, ha] using (KeySet.mem_erase.mp hk).2

/-! ## Histories behind a filter -/

/-- The keys that a handler behind a filter holds after the events that reached the filter. -/
def heldKeys (accepts : α → Bool) (es : List (Event α)) : KeySet :=
  (es.filterMap (Event.filtered accepts)).foldl Event.keep ∅

/-- Every delete of a history is faithful to the map as the events before it have left it. -/
def Faithful (accepts : α → Bool) (m : SortedMap String α) : List (Event α) → Prop
  | [] => True
  | e :: es => e.Faithful accepts m ∧ Faithful accepts (e.applyTo m) es

theorem foldl_hear (es : List (Event α)) :
    ∀ held : KeySet, es.foldl (Event.hear accepts) held =
      (es.filterMap (Event.filtered accepts)).foldl Event.keep held := by
  induction es with
  | nil => intro held; rfl
  | cons e es ih =>
    intro held
    rw [List.foldl_cons, ih, List.filterMap_cons]
    unfold Event.hear
    cases e.filtered accepts <;> rfl

theorem heldKeys_eq (es : List (Event α)) :
    heldKeys accepts es = es.foldl (Event.hear accepts) (acceptedKeys accepts ∅) :=
  (foldl_hear es _).symm

theorem keyed_empty : Keyed (∅ : SortedMap String α) := fun _ _ h => absurd h (by simp)

theorem keyed_applyTo (hm : Keyed m) (e : Event α) : Keyed (e.applyTo m) := by
  have put : ∀ a : α, Keyed (m.insert (keyOf a) a) := by
    intro a k b hb
    by_cases hk : k = keyOf a
    · rw [hk, SortedMap.get?_insert_self] at hb
      rw [hk, Option.some.inj hb]
    · rw [SortedMap.get?_insert_of_ne hk] at hb
      exact hm k b hb
  cases e with
  | add a initial => exact put a
  | update old a => exact put a
  | delete a =>
    intro k b hb
    by_cases hk : k = keyOf a
    · rw [hk, Event.applyTo, SortedMap.get?_erase_self] at hb
      exact absurd hb (by simp)
    · rw [Event.applyTo, SortedMap.get?_erase_of_ne hk] at hb
      exact hm k b hb

/-- A faithful history: the keys that are held stay the accepted ones. -/
theorem foldl_hear_of_faithful (es : List (Event α)) : ∀ {m : SortedMap String α}, Keyed m →
    Strict m es → Faithful accepts m es →
    es.foldl (Event.hear accepts) (acceptedKeys accepts m) = acceptedKeys accepts (view m es) := by
  induction es with
  | nil => intro m _ _ _; rfl
  | cons e es ih =>
    intro m hm hs hf
    rw [List.foldl_cons, hear_acceptedKeys hm hs.1 hf.1]
    exact ih (keyed_applyTo hm e) hs.2 hf.2

/-- Any strict history: no accepted key is missed. -/
theorem acceptedKeys_subset_foldl_hear (es : List (Event α)) :
    ∀ {m : SortedMap String α} {held : KeySet}, Keyed m → Strict m es →
      (acceptedKeys accepts m).keys ⊆ held.keys →
      (acceptedKeys accepts (view m es)).keys ⊆ (es.foldl (Event.hear accepts) held).keys := by
  induction es with
  | nil => intro m held _ _ h; exact h
  | cons e es ih =>
    intro m held hm hs h
    refine ih (keyed_applyTo hm e) hs.2 ?_
    exact List.Subset.trans (acceptedKeys_subset_hear hm hs.1) (hear_mono h e)

theorem faithful_append {es fs : List (Event α)} : ∀ {m : SortedMap String α},
    Faithful accepts m es → Faithful accepts (view m es) fs → Faithful accepts m (es ++ fs) := by
  induction es with
  | nil => intro m _ h; exact h
  | cons e es ih => intro m he h; exact ⟨he.1, ih he.2 h⟩

/-- A history without deletes. -/
theorem faithful_of_no_delete (es : List (Event α)) :
    ∀ {m : SortedMap String α}, (∀ a, .delete a ∉ es) → Faithful accepts m es := by
  induction es with
  | nil => intro m _; trivial
  | cons e es ih =>
    intro m h
    refine ⟨?_, ih fun a ha => h a (List.mem_cons_of_mem _ ha)⟩
    cases e with
    | add a initial => trivial
    | update old a => trivial
    | delete a => exact absurd (List.mem_cons_self ..) (h a)

end History

namespace Store

open History

variable [Object α] {accepts : α → Bool} {s : Store α}

theorem delete_not_mem_upsertAll (initial : Bool) (items : List α) (a : α) :
    ∀ s : Store α, .delete a ∉ (upsertAll initial items s).2 := by
  induction items with
  | nil => intro s; exact List.not_mem_nil
  | cons b bs ih =>
    intro s
    simp only [upsertAll]
    split <;> simp [ih]

/-- What is deleted by its key is told in the version that was there. -/
theorem faithful_deleteAll (ks : List String) :
    ∀ {s : Store α}, s.Sound → Faithful accepts s.items (deleteAll ks s).2 := by
  induction ks with
  | nil => intro s _; trivial
  | cons k ks ih =>
    intro s hs
    have hrest := ih (sound_delete hs k)
    rw [delete_items] at hrest
    simp only [deleteAll]
    split
    next o ho =>
      rw [delete_old] at ho
      obtain rfl : keyOf o = k := hs.keyed ho
      refine ⟨fun held hheld hacc => ?_, hrest⟩
      rw [Option.some.inj (ho.symm.trans hheld)]
      exact hacc
    next hn =>
      rw [delete_old] at hn
      rw [SortedMap.erase_eq_self hn] at hrest
      exact hrest

/-- A relist is faithful, whatever the filter is. -/
theorem faithful_replace (hs : s.Sound) (items : List α) (initial : Bool) :
    Faithful accepts s.items (s.replace items initial).2 := by
  refine faithful_append
    (faithful_of_no_delete _ fun a => delete_not_mem_upsertAll initial items a s) ?_
  rw [(leads_upsertAll initial items s).ends]
  exact faithful_deleteAll _ (sound_upsertAll hs initial items)

end Store

namespace Session

open Informer History

variable [Object α] {accepts : α → Bool} {s : Session α} {t : Target Nat}

/-! ## Items that slip past a filter -/

/-- An act is the deletion of a stored item that the filter accepts, by an object that it does not
accept. -/
def slips (accepts : α → Bool) (s : Session α) : Act α → Bool
  | .batch (.change (.deleted a)) =>
    s.informer.deliveries.isEmpty && (s.informer.store.get? (keyOf a)).any accepts && !accepts a
  | _ => false

/-- None of some acts lets an item slip. -/
def slipFree (accepts : α → Bool) : Session α → List (Act α) → Bool
  | _, [] => true
  | s, a :: acts => !slips accepts s a && slipFree accepts (s.perform a) acts

theorem faithful_batch {inf : Informer α Nat} (hs : inf.store.Sound) (b : Batch α)
    (hb : ∀ a, b = .change (.deleted a) →
      (Event.delete a).Faithful accepts inf.store.items) :
    Faithful accepts inf.store.items (b.events inf) := by
  cases b with
  | relist items => exact Store.faithful_replace hs items _
  | resync => exact faithful_of_no_delete _ fun a ha => by simp [Batch.events] at ha
  | change c =>
    show Faithful accepts _ (relate inf.store c).2.toList
    rw [relate_event]
    cases c with
    | added a =>
      refine faithful_of_no_delete _ fun b hb => ?_
      cases h : inf.store.items.get? (keyOf a) <;> simp [h] at hb
    | modified a =>
      refine faithful_of_no_delete _ fun b hb => ?_
      cases h : inf.store.items.get? (keyOf a) <;> simp [h] at hb
    | deleted a =>
      cases h : inf.store.items.get? (keyOf a) with
      | none => simp [h, Faithful]
      | some o =>
        simp only [h]
        exact ⟨hb a rfl, trivial⟩

/-- The events of an act that lets no item slip. -/
theorem faithful_events (hs : s.informer.store.Sound) {a : Act α} (ha : slips accepts s a = false) :
    Faithful accepts s.informer.store.items (a.events s) := by
  cases a with
  | request r => trivial
  | proceed => trivial
  | batch b =>
    by_cases hr : s.AtRest
    · rw [events_batch_of_atRest hr]
      refine faithful_batch hs b ?_
      rintro a rfl held hheld hacc
      have hany : (s.informer.store.get? (keyOf a)).any accepts = true := by
        rw [show s.informer.store.get? (keyOf a) = some held from hheld]
        exact hacc
      simpa [slips, List.isEmpty_iff.mpr hr, hany] using ha
    · rw [events_batch_of_not_atRest hr]
      trivial

theorem faithful_told (hs : s.informer.store.Sound) (h : s.Follows t) {a : Act α}
    (hf : Faithful accepts ∅ (s.told t (· == t))) (ha : slips accepts s a = false) :
    Faithful accepts ∅ ((s.perform a).told t (· == t)) := by
  have he := tells_perform (a := a) hs h.once (routed_self h.apart) (known_of_beq h.known)
  rw [he.told]
  split
  next hany =>
    obtain ⟨u, hu, hut⟩ := List.any_eq_true.mp hany
    rw [eq_of_beq hut] at hu
    refine faithful_append hf ?_
    rw [h.current hu]
    exact faithful_events hs ha
  next =>
    rw [List.append_nil]
    exact hf

theorem faithful_foldl (acts : List (Act α)) : ∀ {s : Session α}, s.informer.store.Sound →
    s.Follows t → Faithful accepts ∅ (s.told t (· == t)) → slipFree accepts s acts = true →
    Faithful accepts ∅ ((acts.foldl perform s).told t (· == t)) := by
  induction acts with
  | nil => intro s _ _ hf _; exact hf
  | cons a acts ih =>
    intro s hs h hf hfree
    obtain ⟨ha, hrest⟩ := Bool.and_eq_true_iff.mp hfree
    rw [Bool.not_eq_true'] at ha
    exact ih (sound_perform hs a) (follows_perform hs h a) (faithful_told hs h hf ha) hrest

/-- A handler that is registered is told of all that is stored. -/
theorem told_addHandler (h : s.Absent (.handler s.arrivals)) :
    (s.perform (.request (.addHandler .direct))).told (.handler s.arrivals)
      (· == .handler s.arrivals) = Event.replay s.informer.store.list := by
  obtain ⟨hheard, hahead⟩ := List.append_eq_nil_iff.mp h.untold
  show s.heard _ ++ (s.informer.register (.handler s.arrivals)).1.ahead _ = _
  rw [hheard, ahead_register, hahead, beq_self_eq_true, List.append_nil]
  rfl

/-- **What a handler behind a filter holds.**  Take any filter, any acts, and a handler that is
registered at any moment of them.  Whenever nothing is being delivered and the handler is
registered, it holds the key of every stored item that the filter accepts; and it holds no other key
if no item has slipped past the filter since the handler was registered.  It is registered until its
id is removed. -/
theorem held_of_registered (accepts : α → Bool) (before after : List (Act α)) :
    let handler : Target Nat := .handler (run before).arrivals
    let joined := run (before ++ [.request (.addHandler .direct)])
    let s := run (before ++ .request (.addHandler .direct) :: after)
    (handler ∈ s.informer.targets → s.AtRest →
      (∀ k a, s.informer.store.get? k = some a → accepts a = true →
        k ∈ (heldKeys accepts (s.heard handler)).keys) ∧
      (slipFree accepts joined after = true →
        heldKeys accepts (s.heard handler) = acceptedKeys accepts s.informer.store.items)) ∧
      (.request (.removeHandler .direct (run before).informer.nextId) ∉ after →
        handler ∈ s.informer.targets) := by
  intro handler joined s
  have hfollows : s.Follows handler := follows_handler before after
  refine ⟨fun hm hr => ?_, registered_of_kept before after⟩
  have hstrict := hfollows.strict
  have hview := hfollows.current hm
  rw [told_of_atRest hr] at hstrict hview
  rw [heldKeys_eq]
  constructor
  · intro k a hk ha
    refine acceptedKeys_subset_foldl_hear _ keyed_empty hstrict (List.Subset.refl _) ?_
    rw [hview]
    exact mem_acceptedKeys.mpr ⟨a, hk, ha⟩
  · intro hfree
    have hs : joined.informer.store.Sound := sound_run _
    have htold : joined.told handler (· == handler) =
        Event.replay (run before).informer.store.list := by
      show (run (before ++ [_])).told _ _ = _
      rw [run_concat]
      exact told_addHandler (absent_run before _ (Nat.lt_irrefl _))
    have hf : Faithful accepts ∅ (joined.told handler (· == handler)) := by
      rw [htold]
      exact faithful_of_no_delete _ fun a ha => by simp [Event.replay] at ha
    have hall := faithful_foldl after hs (follows_handler before []) hf hfree
    have hs' : after.foldl perform joined = s := by
      show List.foldl perform (run (before ++ [_])) after = run (before ++ _ :: after)
      unfold run
      rw [← List.foldl_append, List.append_assoc]
      rfl
    rw [hs', told_of_atRest hr] at hall
    rw [foldl_hear_of_faithful _ keyed_empty hstrict hall, hview]

/-- An item that the filter accepts and one that it does not. -/
def marked (name : String) (labels : List String) : Scenario.Obj := .item ⟨none, name, 1, labels⟩

def isMarked (o : Scenario.Obj) : Bool := o.labels.contains "x"

/-- Two items are listed, one of them leaves the filter and the other one is deleted as it is. -/
def departures : List (Act Scenario.Obj) :=
  [.proceed, .batch (.relist [marked "a" ["x"], marked "b" ["x"], marked "c" ["x"]])] ++
    List.replicate 4 .proceed ++
    [.batch (.change (.modified (marked "a" []))), .proceed, .proceed,
      .batch (.change (.deleted (marked "b" ["x"]))), .proceed, .proceed]

theorem held_of_departed :
    let s := run (.request (.addHandler .direct) :: departures)
    .handler 0 ∈ s.informer.targets ∧ s.AtRest ∧
      heldKeys isMarked (s.heard (.handler 0)) = acceptedKeys isMarked s.informer.store.items ∧
      (heldKeys isMarked (s.heard (.handler 0))).keys = ["c"] := by
  obtain ⟨hview, hstays⟩ := held_of_registered isMarked [] departures
  have hm := hstays (by simp [departures])
  have hr : (run (.request (.addHandler .direct) :: departures)).AtRest :=
    List.isEmpty_iff.mp (by decide +kernel)
  exact ⟨hm, hr, (hview hm hr).2 (by decide +kernel), by decide +kernel⟩

/-! ## After an item has slipped -/

/-- An item that slips is accepted as it is stored, and the only event is a delete that the filter
rejects. -/
theorem slips_deleted {a : α} (h : slips accepts s (.batch (.change (.deleted a))) = true) :
    Act.events s (.batch (.change (.deleted a))) = [.delete a] ∧
      keyOf a ∈ (acceptedKeys accepts s.informer.store.items).keys ∧ accepts a = false := by
  simp only [slips, Bool.and_eq_true, Option.any_eq_true, Bool.not_eq_true'] at h
  obtain ⟨⟨hidle, o, ho, hacc⟩, ha⟩ := h
  have hget : s.informer.store.items.get? (keyOf a) = some o := ho
  refine ⟨?_, mem_acceptedKeys.mpr ⟨o, hget, hacc⟩, ha⟩
  rw [events_batch_of_atRest (List.isEmpty_iff.mp hidle)]
  show (relate s.informer.store (.deleted a)).2.toList = _
  rw [relate_event]
  show ((s.informer.store.items.get? (keyOf a)).map fun _ => Event.delete a).toList = _
  rw [hget]
  rfl

/-- Calls that are made change neither the store nor what a target is told. -/
theorem told_replicate_proceed (n : Nat) : ∀ {s : Session α}, s.informer.store.Sound →
    s.Follows t →
    ((List.replicate n Act.proceed).foldl perform s).told t (· == t) = s.told t (· == t) ∧
      ((List.replicate n Act.proceed).foldl perform s).informer.store = s.informer.store := by
  induction n with
  | zero => intro s _ _; exact ⟨rfl, rfl⟩
  | succ n ih =>
    intro s hs h
    obtain ⟨htold, hstore⟩ := ih (sound_perform hs .proceed) (follows_perform hs h .proceed)
    have he := tells_proceed (routed_self h.apart)
    refine ⟨htold.trans ?_, hstore.trans (store_proceed s)⟩
    rw [he.told, ite_self, List.append_nil]

/-- **An item that slips is never reported.**  When the deletion has been delivered, the key is gone
from the store, and the handler behind the filter still holds it. -/
theorem held_of_slips (accepts : α → Bool) (before after : List (Act α)) (a : α) (n : Nat)
    (hm : .handler (run before).arrivals ∈
      (run (before ++ .request (.addHandler .direct) :: after)).informer.targets)
    (hslips : slips accepts (run (before ++ .request (.addHandler .direct) :: after))
      (.batch (.change (.deleted a))) = true)
    (hr : (run (before ++ .request (.addHandler .direct) :: after ++
      .batch (.change (.deleted a)) :: List.replicate n .proceed)).AtRest) :
    let s := run (before ++ .request (.addHandler .direct) :: after ++
      .batch (.change (.deleted a)) :: List.replicate n .proceed)
    keyOf a ∈ (heldKeys accepts (s.heard (.handler (run before).arrivals))).keys ∧
      s.informer.store.get? (keyOf a) = none := by
  generalize hacts : before ++ .request (.addHandler .direct) :: after = acts at hm hslips hr ⊢
  intro s
  have hs := sound_run acts
  have hfollows : (run acts).Follows (.handler (run before).arrivals) :=
    hacts ▸ follows_handler before after
  obtain ⟨hevents, haccepted, ha⟩ := slips_deleted hslips
  -- the deletion is put behind what the handler was told, and nothing comes after it
  have hany : (run acts).informer.targets.any (· == .handler (run before).arrivals) = true :=
    List.any_eq_true.mpr ⟨_, hm, beq_self_eq_true _⟩
  have he := tells_perform (a := .batch (.change (.deleted a))) hs hfollows.once
    (routed_self hfollows.apart) (known_of_beq hfollows.known)
  rw [hevents] at he
  obtain ⟨htold, hstore⟩ := told_replicate_proceed n (sound_perform hs _)
    (follows_perform hs hfollows (.batch (.change (.deleted a))))
  have hrun : s = (List.replicate n Act.proceed).foldl perform
      ((run acts).perform (.batch (.change (.deleted a)))) := List.foldl_append
  rw [← hrun] at htold hstore
  rw [he.told, hany, if_pos rfl, told_of_atRest (s := s) hr] at htold
  constructor
  · have hbefore := acceptedKeys_subset_foldl_hear _ keyed_empty hfollows.strict
      (List.Subset.refl (acceptedKeys accepts ∅).keys)
    rw [hfollows.current hm] at hbefore
    rw [heldKeys_eq, htold, List.foldl_append]
    simpa [Event.hear, Event.filtered, ha] using hbefore haccepted
  · rw [hstore]
    show (run acts |>.perform _).informer.store.items.get? (keyOf a) = none
    rw [← he.leads.ends]
    exact SortedMap.get?_erase_self _ _

/-- An item is listed, and deleted by an object that has lost the label. -/
def slippage : List (Act Scenario.Obj) :=
  [.proceed, .batch (.relist [marked "a" ["x"]]), .proceed, .proceed,
    .batch (.change (.deleted (marked "a" []))), .proceed, .proceed]

theorem held_of_slipped :
    let s := run (.request (.addHandler .direct) :: slippage)
    .handler 0 ∈ s.informer.targets ∧ s.AtRest ∧
      (acceptedKeys isMarked s.informer.store.items).keys = [] ∧
      (heldKeys isMarked (s.heard (.handler 0))).keys = ["a"] :=
  ⟨by decide +kernel, List.isEmpty_iff.mp (by decide +kernel), by decide +kernel,
    by decide +kernel⟩

end Session

end InformerHub
