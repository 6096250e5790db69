import InformerHub.Informer
import InformerHub.Proofs.StoreContent

/-!
# Histories of events

Whoever is told of events can keep a map of its own: an add or an update puts the object under its
key, a delete drops the key.  `view` is that map after a history.  A history is `Strict` if each of
its events can happen to the map as it is by then: nothing is added that is there, nothing is
updated or deleted that is not, and an update names the version that it replaces.

An informer changes its store and says so by events.  For each way in which it does so,

> the events are a strict history that leads from the old content of the store to the new one,

which is `Leads`: `leads_replace` for a list, `leads_relate` for a change, `leads_refresh` for a
resync, `leads_replay` for a handler that starts with nothing.

For a handler that hears some events twice a weaker fact does the work (`view_suffix`): a history
that ends in a map leads from that map back to itself, and so does every ending of the history.
-/

namespace InformerHub

variable {α : Type} [Object α]

namespace Event

/-- The map of a listener after an event. -/
def applyTo (m : SortedMap String α) : Event α → SortedMap String α
  | .add a _ | .update _ a => m.insert (keyOf a) a
  | .delete a => m.erase (keyOf a)

/-- Whether an event can happen to a map. -/
def Fits (m : SortedMap String α) : Event α → Prop
  | .add a _ => m.get? (keyOf a) = none
  | .update old a => m.get? (keyOf a) = some old
  | .delete a => ∃ held, m.get? (keyOf a) = some held

end Event

/-- The content that a change at the source asks for. -/
def Change.applyTo (m : SortedMap String α) : Change α → SortedMap String α
  | .added a | .modified a => m.insert (keyOf a) a
  | .deleted a => m.erase (keyOf a)

namespace History

/-- The map of a listener that starts with `m` after a history. -/
def view (m : SortedMap String α) (es : List (Event α)) : SortedMap String α :=
  es.foldl Event.applyTo m

/-- Every event of a history can happen to the map as the events before it have left it. -/
def Strict (m : SortedMap String α) : List (Event α) → Prop
  | [] => True
  | e :: es => e.Fits m ∧ Strict (e.applyTo m) es

/-- A strict history from one map to another. -/
structure Leads (m : SortedMap String α) (es : List (Event α)) (n : SortedMap String α) :
    Prop where
  strict : Strict m es
  ends : view m es = n

/-! ## One history after the other -/

@[simp] theorem view_append (m : SortedMap String α) (es fs : List (Event α)) :
    view m (es ++ fs) = view (view m es) fs :=
  List.foldl_append

theorem strict_append {m : SortedMap String α} {es fs : List (Event α)} :
    Strict m (es ++ fs) ↔ Strict m es ∧ Strict (view m es) fs := by
  induction es generalizing m with
  | nil => exact ⟨fun h => ⟨trivial, h⟩, And.right⟩
  | cons e es ih =>
    rw [List.cons_append]
    show e.Fits m ∧ Strict (e.applyTo m) (es ++ fs) ↔ _
    rw [ih, ← and_assoc]
    rfl

theorem leads_nil (m : SortedMap String α) : Leads m [] m := ⟨trivial, rfl⟩

theorem leads_cons {m n : SortedMap String α} {e : Event α} {es : List (Event α)}
    (he : e.Fits m) (hes : Leads (e.applyTo m) es n) : Leads m (e :: es) n :=
  ⟨⟨he, hes.strict⟩, hes.ends⟩

theorem leads_append {m n o : SortedMap String α} {es fs : List (Event α)} (hes : Leads m es n)
    (hfs : Leads n fs o) : Leads m (es ++ fs) o := by
  refine ⟨strict_append.mpr ⟨hes.strict, ?_⟩, ?_⟩
  · rw [hes.ends]
    exact hfs.strict
  · rw [view_append, hes.ends]
    exact hfs.ends

/-! ## Hearing an ending twice -/

/-- An event says what is under a key afterwards, or leaves the key alone. -/
theorem get?_applyTo_cases (e : Event α) (k : String) :
    (∃ o, ∀ m : SortedMap String α, (e.applyTo m).get? k = o) ∨
      ∀ m : SortedMap String α, (e.applyTo m).get? k = m.get? k := by
  have put : ∀ a : α, (∃ o, ∀ m : SortedMap String α, (m.insert (keyOf a) a).get? k = o) ∨
      ∀ m : SortedMap String α, (m.insert (keyOf a) a).get? k = m.get? k := by
    intro a
    by_cases hk : k = keyOf a
    · subst hk
      exact Or.inl ⟨some a, fun m => SortedMap.get?_insert_self m _ a⟩
    · exact Or.inr fun m => SortedMap.get?_insert_of_ne hk m a
  cases e with
  | add a initial => exact put a
  | update old a => exact put a
  | delete a =>
    by_cases hk : k = keyOf a
    · subst hk
      exact Or.inl ⟨none, fun m => SortedMap.get?_erase_self m _⟩
    · exact Or.inr fun m => SortedMap.get?_erase_of_ne hk m

/-- A history says what is under a key in the end, or leaves the key alone. -/
theorem get?_view_cases (es : List (Event α)) (k : String) :
    (∃ o, ∀ m : SortedMap String α, (view m es).get? k = o) ∨
      ∀ m : SortedMap String α, (view m es).get? k = m.get? k := by
  induction es with
  | nil => exact Or.inr fun m => rfl
  | cons e es ih =>
    -- what comes later decides, and where it leaves the key alone the first event does
    rcases ih with ⟨o, ho⟩ | hes
    · exact Or.inl ⟨o, fun m => ho (e.applyTo m)⟩
    · rcases get?_applyTo_cases e k with ⟨o, ho⟩ | he
      · exact Or.inl ⟨o, fun m => (hes (e.applyTo m)).trans (ho m)⟩
      · exact Or.inr fun m => (hes (e.applyTo m)).trans (he m)

/-- A history that is heard a second time changes nothing. -/
theorem view_view (m : SortedMap String α) (es : List (Event α)) :
    view (view m es) es = view m es := by
  refine SortedMap.ext_get? fun k => ?_
  rcases get?_view_cases es k with ⟨o, ho⟩ | hes
  · rw [ho, ho]
  · exact hes (view m es)

/-- Who already has the last map of a history may still hear any ending of it. -/
theorem view_suffix {m n : SortedMap String α} {es fs : List (Event α)}
    (h : view m (es ++ fs) = n) : view n fs = n := by
  rw [← h, view_append]
  exact view_view (view m es) fs

/-! ## Events that tell of what is there -/

/-- Adds of items with different keys, none of them there before. -/
theorem leads_adds : ∀ (as : List α) (m : SortedMap String α), (as.map keyOf).Nodup →
    (∀ a ∈ as, m.get? (keyOf a) = none) →
    Leads m (Event.replay as) (as.foldl (fun m a => m.insert (keyOf a) a) m) := by
  intro as
  induction as with
  | nil => intro m _ _; exact leads_nil m
  | cons a as ih =>
    intro m hnd hm
    obtain ⟨hna, hnd'⟩ := List.nodup_cons.mp hnd
    refine leads_cons (hm a (List.mem_cons_self ..)) (ih _ hnd' fun b hb => ?_)
    have hne : keyOf b ≠ keyOf a := fun he => hna (he ▸ List.mem_map_of_mem hb)
    show (m.insert (keyOf a) a).get? (keyOf b) = none
    rw [SortedMap.get?_insert_of_ne hne]
    exact hm b (List.mem_cons_of_mem _ hb)

/-- Updates of items by themselves. -/
theorem leads_refreshes {m : SortedMap String α} : ∀ as : List α,
    (∀ a ∈ as, m.get? (keyOf a) = some a) → Leads m (as.map fun a => .update a a) m := by
  intro as
  induction as with
  | nil => intro _; exact leads_nil m
  | cons a as ih =>
    intro hm
    have ha : m.get? (keyOf a) = some a := hm a (List.mem_cons_self ..)
    refine leads_cons ha ?_
    show Leads (m.insert (keyOf a) a) _ m
    rw [SortedMap.insert_eq_self ha]
    exact ih fun b hb => hm b (List.mem_cons_of_mem _ hb)

end History

/-! ## Events of a store -/

namespace Store

open History

variable {s : Store α}

/-- In a sound store every listed item is found under its own key. -/
theorem get?_of_mem_list (hs : s.Sound) {a : α} (ha : a ∈ s.list) :
    s.items.get? (keyOf a) = some a := by
  obtain ⟨k, hk⟩ := SortedMap.mem_values_iff.mp ha
  rw [hs.keyed hk]
  exact hk

/-- The content of a sound store is what its list stands for. -/
theorem listed_list (hs : s.Sound) : listed s.list = s.items := by
  refine SortedMap.ext_get? fun k => ?_
  rw [get?_listed]
  cases hk : s.items.get? k with
  | none =>
    rw [List.find?_eq_none]
    intro a ha he
    have hak : keyOf a = k := of_decide_eq_true he
    rw [← hak, get?_of_mem_list hs (List.mem_reverse.mp ha)] at hk
    exact absurd hk (by simp)
  | some a =>
    have ha : a ∈ s.list := SortedMap.mem_values_iff.mpr ⟨k, hk⟩
    have hak : keyOf a = k := hs.keyed hk
    cases hf : s.list.reverse.find? fun b => keyOf b = k with
    | none =>
      have hne := List.find?_eq_none.mp hf a (List.mem_reverse.mpr ha)
      exact absurd (decide_eq_true hak) hne
    | some b =>
      -- the item that is found has the same key, and so is the same item
      have hb : b ∈ s.list := List.mem_reverse.mp (List.mem_of_find?_eq_some hf)
      have hbk : keyOf b = k := by simpa using List.find?_some hf
      have hg := get?_of_mem_list hs hb
      rw [hbk, hk] at hg
      exact hg.symm

theorem leads_replay (hs : s.Sound) : Leads ∅ (Event.replay s.list) s.items := by
  have hnd : (s.list.map keyOf).Nodup := by
    rw [map_keyOf_list hs]
    refine s.items.keys_increasing.imp fun {a b} hab he => ?_
    subst he
    exact SortedMap.compare_self_ne_lt a hab
  -- the adds lead to what the list stands for, which is the content
  have h := leads_adds s.list ∅ hnd fun a _ => rfl
  rw [← listed_eq_foldl, listed_list hs] at h
  exact h

theorem leads_refresh (hs : s.Sound) :
    Leads s.items (s.list.map fun a => .update a a) s.items :=
  leads_refreshes s.list fun _ ha => get?_of_mem_list hs ha

/-- Items that are put one after the other are told as adds and updates. -/
theorem leads_upsertAll (initial : Bool) (items : List α) :
    ∀ s : Store α,
      Leads s.items (upsertAll initial items s).2 (upsertAll initial items s).1.items := by
  induction items with
  | nil => intro s; exact leads_nil s.items
  | cons a as ih =>
    intro s
    have hrest := ih (s.upsert a).1
    rw [upsert_items] at hrest
    simp only [upsertAll]
    split
    next o ho => exact leads_cons ho hrest
    next hn => exact leads_cons hn hrest

/-- Keys that are deleted one after the other are told as deletes of what was there. -/
theorem leads_deleteAll (ks : List String) :
    ∀ {s : Store α}, s.Sound → Leads s.items (deleteAll ks s).2 (deleteAll ks s).1.items := by
  induction ks with
  | nil => intro s _; exact leads_nil s.items
  | cons k ks ih =>
    intro s hs
    have hrest := ih (sound_delete hs k)
    rw [delete_items] at hrest
    simp only [deleteAll]
    split
    next o ho =>
      -- the event carries the item that was there, whose own key is the deleted one
      rw [delete_old] at ho
      have hk : keyOf o = k := hs.keyed ho
      subst hk
      exact leads_cons ⟨o, ho⟩ hrest
    next hn =>
      rw [delete_old] at hn
      rw [SortedMap.erase_eq_self hn] at hrest
      exact hrest

/-- What replacing the content tells leads from the old content to the new one. -/
theorem leads_replace (hs : s.Sound) (items : List α) (initial : Bool) :
    Leads s.items (s.replace items initial).2 (s.replace items initial).1.items := by
  have hsound := sound_upsertAll hs initial items
  exact leads_append (leads_upsertAll initial items s) (leads_deleteAll _ hsound)

end Store

namespace Informer

open History

/-- A change puts its item or deletes the item's key. -/
theorem relate_store (s : Store α) (c : Change α) :
    (relate s c).1 = match c with
      | .added a | .modified a => (s.upsert a).1
      | .deleted a => (s.delete (keyOf a)).1 := by
  have put : ∀ a : α, (relate s (.added a)).1 = (s.upsert a).1 := by
    intro a
    unfold relate
    dsimp only
    split
    next h => rw [h]
    next h => rw [h]
  cases c with
  | added a => exact put a
  | modified a => exact put a
  | deleted a =>
    unfold relate
    dsimp only
    split
    next h => rw [h]
    next h => rw [h]

/-- A change is told as an update of the version that is there, as an add, or as a delete; the
deletion of an unknown key is not told. -/
theorem relate_event (s : Store α) (c : Change α) :
    (relate s c).2 = match c with
      | .added a | .modified a =>
        some ((s.items.get? (keyOf a)).elim (.add a false) fun old => .update old a)
      | .deleted a => (s.items.get? (keyOf a)).map fun _ => .delete a := by
  have put : ∀ a : α, (relate s (.added a)).2 =
      some ((s.items.get? (keyOf a)).elim (.add a false) fun old => .update old a) := by
    intro a
    unfold relate
    dsimp only
    split
    next store o h =>
      rw [show s.items.get? (keyOf a) = some o from congrArg Prod.snd h]
      rfl
    next store h =>
      rw [show s.items.get? (keyOf a) = none from congrArg Prod.snd h]
      rfl
  cases c with
  | added a => exact put a
  | modified a => exact put a
  | deleted a =>
    have ho := Store.delete_old s (keyOf a)
    unfold relate
    dsimp only
    split
    next store o h =>
      rw [← ho, h]
      rfl
    next store h =>
      rw [← ho, h]
      rfl

theorem relate_items (s : Store α) (c : Change α) :
    (relate s c).1.items = c.applyTo s.items := by
  rw [relate_store]
  cases c with
  | added a => rfl
  | modified a => rfl
  | deleted a => exact Store.delete_items s (keyOf a)

theorem sound_relate {s : Store α} (hs : s.Sound) (c : Change α) : (relate s c).1.Sound := by
  rw [relate_store]
  cases c with
  | added a => exact Store.sound_upsert hs a
  | modified a => exact Store.sound_upsert hs a
  | deleted a => exact Store.sound_delete hs (keyOf a)

/-- What a change tells leads from the old content to the new one. -/
theorem leads_relate (s : Store α) (c : Change α) :
    Leads s.items (relate s c).2.toList (relate s c).1.items := by
  rw [relate_items, relate_event]
  have put : ∀ a : α, Leads s.items
      [(s.items.get? (keyOf a)).elim (.add a false) fun old => .update old a]
      (s.items.insert (keyOf a) a) := by
    intro a
    cases h : s.items.get? (keyOf a) with
    | some old => exact leads_cons h (leads_nil _)
    | none => exact leads_cons h (leads_nil _)
  cases c with
  | added a => exact put a
  | modified a => exact put a
  | deleted a =>
    cases h : s.items.get? (keyOf a) with
    | some old =>
      simp only [h]
      exact leads_cons ⟨old, h⟩ (leads_nil _)
    | none =>
      simp only [h]
      show Leads s.items [] (s.items.erase (keyOf a))
      rw [SortedMap.erase_eq_self h]
      exact leads_nil _

end Informer

end InformerHub
