import Mathlib.Data.List.Basic
import InformerHub.Proofs.History
import InformerHub.Proofs.StoreQueries

/-!
# What replacing a store's content tells

A list of items replaces the content of a store, and the events that come of it are the difference
between the two contents:

> one event per listed item, in the order of the list, and then one delete per key that is listed no
> more, in the order of the keys; folded over the old content they lead to the new one, and each of
> them names what is there at its point (`replace_tells_difference`).

A key that is listed several times is told several times, each time as an update of the version
before (`replaced`).  The deletes are found in a store that has been overwritten by then, but a key
that is not listed still has its old item there (`gone_eq`).

`Exact` is stronger than `Strict`: a delete, too, carries the version that is there.
-/

namespace InformerHub

variable {α : Type} [Object α]

/-- Whether an event names what a map holds under its key. -/
def Event.Matches (m : SortedMap String α) : Event α → Prop
  | .add a _ => m.get? (keyOf a) = none
  | .update old a => m.get? (keyOf a) = some old
  | .delete a => m.get? (keyOf a) = some a

/-- How an item is told that is put in the place of another, or in an empty one. -/
def Event.ofPut (initial : Bool) (old : Option α) (a : α) : Event α :=
  match old with
  | some o => .update o a
  | none => .add a initial

namespace History

/-- Every event of a history names what is there as the events before it have left it. -/
def Exact (m : SortedMap String α) : List (Event α) → Prop
  | [] => True
  | e :: es => e.Matches m ∧ Exact (e.applyTo m) es

theorem exact_append {m : SortedMap String α} {es fs : List (Event α)} :
    Exact m (es ++ fs) ↔ Exact m es ∧ Exact (view m es) fs := by
  induction es generalizing m with
  | nil => exact ⟨fun h => ⟨trivial, h⟩, And.right⟩
  | cons e es ih =>
    rw [List.cons_append]
    show e.Matches m ∧ Exact (e.applyTo m) (es ++ fs) ↔ _
    rw [ih, ← and_assoc]
    rfl

end History

namespace Store

open History

/-! ## Adds and updates -/

/-- The version that an item replaces after some others of its list: the last one of its key among
them, and what was stored if there is none. -/
def replaced (s : Store α) (before : List α) (a : α) : Option α :=
  (before.reverse.find? fun b => keyOf b = keyOf a).or (s.get? (keyOf a))

theorem replaced_upsert (s : Store α) (a : α) (before : List α) (b : α) :
    (s.upsert a).1.replaced before b = s.replaced (a :: before) b := by
  unfold replaced
  rw [List.reverse_cons, List.find?_append, Option.or_assoc]
  congr 1
  by_cases hk : keyOf b = keyOf a
  · rw [hk, get?_upsert_self]
    simp
  · have hne : ¬keyOf a = keyOf b := fun e => hk e.symm
    rw [get?_upsert_of_ne hk]
    simp [hne]

/-- Items that are put one after the other are told one by one. -/
theorem upsertAll_events (initial : Bool) (items : List α) : ∀ s : Store α,
    (upsertAll initial items s).2 =
      items.mapIdx fun i a => Event.ofPut initial (s.replaced (items.take i) a) a := by
  induction items with
  | nil => intro s; rfl
  | cons a as ih =>
    intro s
    have hrest : (upsertAll initial as (s.upsert a).1).2 =
        as.mapIdx fun i b => Event.ofPut initial (s.replaced ((a :: as).take (i + 1)) b) b := by
      rw [ih]
      simp only [replaced_upsert, List.take_succ_cons]
    rw [List.mapIdx_cons, ← hrest]
    simp only [upsertAll]
    split
    next o ho => rw [show s.replaced ((a :: as).take 0) a = some o from ho]; rfl
    next hn => rw [show s.replaced ((a :: as).take 0) a = none from hn]; rfl

theorem exact_upsertAll (initial : Bool) (items : List α) : ∀ s : Store α,
    Exact s.items (upsertAll initial items s).2 := by
  induction items with
  | nil => intro s; trivial
  | cons a as ih =>
    intro s
    have hrest := ih (s.upsert a).1
    rw [upsert_items] at hrest
    simp only [upsertAll]
    split
    next o ho => exact ⟨ho, hrest⟩
    next hn => exact ⟨hn, hrest⟩

/-! ## Deletes -/

omit [Object α] in
/-- Keys that are deleted one after the other, none of them twice, are told with what was there. -/
theorem deleteAll_events (ks : List String) : ∀ s : Store α, ks.Nodup →
    (deleteAll ks s).2 = (ks.filterMap s.get?).map .delete := by
  induction ks with
  | nil => intro s _; rfl
  | cons k ks ih =>
    intro s hks
    obtain ⟨hk, hks⟩ := List.nodup_cons.mp hks
    have hrest : (deleteAll ks (s.delete k).1).2 = (ks.filterMap s.get?).map .delete := by
      rw [ih _ hks]
      refine congrArg _ (List.filterMap_congr fun k' hk' => ?_)
      have hne : k' ≠ k := fun e => hk (e ▸ hk')
      unfold get?
      rw [delete_items, SortedMap.get?_erase_of_ne hne]
    simp only [deleteAll]
    split
    next o ho =>
      have hget : s.get? k = some o := (delete_old s k).symm.trans ho
      rw [hrest, List.filterMap_cons_some hget]
      rfl
    next hn =>
      have hget : s.get? k = none := (delete_old s k).symm.trans hn
      rw [hrest, List.filterMap_cons_none hget]

theorem exact_deleteAll (ks : List String) : ∀ {s : Store α}, s.Sound →
    Exact s.items (deleteAll ks s).2 := by
  induction ks with
  | nil => intro s _; trivial
  | cons k ks ih =>
    intro s hs
    have hrest := ih (sound_delete hs k)
    rw [delete_items] at hrest
    simp only [deleteAll]
    split
    next o ho =>
      rw [delete_old] at ho
      obtain rfl : keyOf o = k := hs.keyed ho
      exact ⟨ho, hrest⟩
    next hn =>
      rw [delete_old] at hn
      rw [SortedMap.erase_eq_self hn] at hrest
      exact hrest

/-! ## Both together -/

/-- The items of a store that a list has no item for, in the order of their keys. -/
def gone (s : Store α) (items : List α) : List α :=
  s.list.filter fun a => !(items.map keyOf).contains (keyOf a)

/-- A key that is not listed still has its old item when the listed items have been put. -/
theorem gone_eq {s : Store α} (h : s.Sound) (items : List α) (initial : Bool) :
    let s₁ := (upsertAll initial items s).1
    (s₁.keys.filter fun k => !(items.map keyOf).contains k).filterMap s₁.get? = s.gone items := by
  intro s₁
  -- both are the entries of the keys that are not listed, which putting leaves alone
  have hmap : (s₁.items.filter fun k _ => !(items.map keyOf).contains k) =
      s.items.filter fun k _ => !(items.map keyOf).contains k := by
    refine SortedMap.ext_get? fun k => ?_
    rw [SortedMap.get?_filter, SortedMap.get?_filter]
    by_cases hk : k ∈ items.map keyOf
    · rw [List.contains_iff_mem.mpr hk]
      simp
    · rw [upsertAll_items, get?_foldl_insert, ← get?_listed, get?_listed_eq_none_iff.mpr hk,
        Option.none_or]
  have hentries := congrArg SortedMap.entries hmap
  have hkeys : (s₁.keys.filter fun k => !(items.map keyOf).contains k) =
      (s₁.items.entries.filter fun e => !(items.map keyOf).contains e.1).map Prod.fst :=
    List.filter_map ..
  rw [hkeys]
  show List.filterMap s₁.items.get? _ = _
  rw [SortedMap.filterMap_get?_fst fun e he => (List.mem_filter.mp he).1]
  refine (congrArg (List.map Prod.snd) hentries).trans ?_
  show (s.items.entries.filter _).map Prod.snd = (s.items.entries.map Prod.snd).filter _
  rw [List.filter_map]
  refine congrArg _ (List.filter_congr fun e he => ?_)
  rw [Function.comp_apply, h.keyed (SortedMap.mem_entries_iff.mp he)]

/-- What replacing the content tells. -/
theorem replace_events {s : Store α} (h : s.Sound) (items : List α) (initial : Bool) :
    (s.replace items initial).2 =
      (items.mapIdx fun i a => Event.ofPut initial (s.replaced (items.take i) a) a) ++
        (s.gone items).map .delete := by
  rw [← upsertAll_events, ← gone_eq h items initial, ← deleteAll_events]
  · rfl
  · have hkeys : (upsertAll initial items s).1.keys.Nodup :=
      (SortedMap.keys_increasing _).imp fun {a b} hlt hab => by
        subst hab
        exact SortedMap.compare_self_ne_lt a hlt
    exact hkeys.filter _

theorem exact_replace {s : Store α} (h : s.Sound) (items : List α) (initial : Bool) :
    Exact s.items (s.replace items initial).2 := by
  refine exact_append.mpr ⟨exact_upsertAll initial items s, ?_⟩
  rw [(leads_upsertAll initial items s).ends]
  exact exact_deleteAll _ (sound_upsertAll h initial items)

/-- The keys of what is gone are those that were there and are not any more. -/
theorem mem_keys_gone {s : Store α} (h : s.Sound) (items : List α) (k : String) :
    k ∈ (s.gone items).map keyOf ↔
      (∃ a, s.get? k = some a) ∧ (listed items).get? k = none := by
  rw [get?_listed_eq_none_iff, List.mem_map]
  unfold gone
  constructor
  · rintro ⟨a, ha, rfl⟩
    obtain ⟨hlist, hnot⟩ := List.mem_filter.mp ha
    exact ⟨⟨a, (mem_list_iff h).mp hlist⟩, by simpa using hnot⟩
  · rintro ⟨⟨a, ha⟩, hnot⟩
    obtain rfl : keyOf a = k := h.keyed ha
    exact ⟨a, List.mem_filter.mpr ⟨(mem_list_iff h).mpr ha, by simpa using hnot⟩, rfl⟩

/-- **Replacing the content tells exactly the difference.**  Take a store that was filled in any way,
with any indices, and replace its content by any list of items.  It then holds the last listed item
of each key and nothing else.  What is told is one event per listed item, in the order of the list,
an update of the version that the item replaces at that point or an add with the given flag, and
after that one delete for each key that has vanished, in the order of the keys' bytes.  Folded over
the old content this history is exact (an update names the version that is there, an add comes where
nothing is, and a delete carries the very item that is there), and it ends in the new content. -/
theorem replace_tells_difference (calls : List (Mutation α)) (items : List α) (initial : Bool) :
    let s : Store α := after calls
    let s' := (s.replace items initial).1
    let told := (s.replace items initial).2
    (∀ k, s'.get? k = items.reverse.find? fun a => keyOf a = k) ∧
    told =
      (items.mapIdx fun i a => Event.ofPut initial (s.replaced (items.take i) a) a) ++
        (s.gone items).map .delete ∧
    ((s.gone items).map keyOf).Pairwise (fun a b => Text.bytes a < Text.bytes b) ∧
    (∀ k, k ∈ (s.gone items).map keyOf ↔ (∃ a, s.get? k = some a) ∧ s'.get? k = none) ∧
    Exact s.items told ∧ view s.items told = s'.items := by
  intro s s' told
  have hs : s.Sound := sound_after calls
  have hitems : s'.items = listed items := replace_items s items initial
  refine ⟨fun k => ?_, replace_events hs items initial, ?_, fun k => ?_,
    exact_replace hs items initial, (leads_replace hs items initial).ends⟩
  · unfold get?
    rw [hitems, get?_listed]
  · exact (list_ordered hs).sublist (List.filter_sublist.map keyOf)
  · rw [mem_keys_gone hs]
    unfold get?
    rw [hitems]

end Store

end InformerHub
