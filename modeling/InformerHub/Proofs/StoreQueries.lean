import Mathlib.Data.List.Induction
import InformerHub.Proofs.ByteOrder
import InformerHub.Proofs.StoreContent

/-!
# A store answers as a plain map

Beside the store stands the plainest thing that could do its work: a function from keys to the
items last put there (`content`), and the list of what was asked for.  After any sequence of calls
every query of the store answers as that function does (`answers_as_plain_map`):

* `upsert` and `delete` return what the function has under the key before the call,
* the keys stand in strictly increasing order of their bytes, each with its own item,
* an index that was added gives exactly the items that have the value, in the order of their
  keys, and an index that was not is not found.

The induction is on the calls: `apply_items` and `indexer_apply` say what one call does to either
side, and `sound_after` carries the invariant that lets an index be read off the items.
-/

namespace InformerHub.Store

variable {α : Type} [Object α]

/-! ## Calls -/

/-- A call that may change a store. -/
inductive Mutation (α : Type) where
  | upsert (item : α)
  | delete (key : String)
  | replace (items : List α) (initial : Bool)
  | addIndex (name : String) (values : α → List String)

namespace Mutation

/-- The store after a call.  An index whose name is taken is refused. -/
def apply (s : Store α) : Mutation α → Store α
  | .upsert a => (s.upsert a).1
  | .delete k => (s.delete k).1
  | .replace items initial => (s.replace items initial).1
  | .addIndex name values =>
    match s.addIndex name values with
    | .ok s' => s'
    | .error _ => s

/-- A function from keys to items after a call. -/
def update (m : String → Option α) : Mutation α → String → Option α
  | .upsert a, k => if k = keyOf a then some a else m k
  | .delete k', k => if k = k' then none else m k
  | .replace items _, k => items.reverse.find? fun a => keyOf a = k
  | .addIndex .., k => m k

end Mutation

/-- The store after some calls. -/
def after (calls : List (Mutation α)) : Store α := calls.foldl Mutation.apply ∅

/-- The item that was last put under each key and is still wanted there. -/
def content (calls : List (Mutation α)) : String → Option α :=
  calls.foldl Mutation.update fun _ => none

/-- Some call has added the named index with this function, and succeeded. -/
def Added (calls : List (Mutation α)) (name : String) (values : α → List String) : Prop :=
  ∃ earlier later s', calls = earlier ++ .addIndex name values :: later ∧
    (after earlier).addIndex name values = .ok s'

theorem after_concat (calls : List (Mutation α)) (c : Mutation α) :
    after (calls ++ [c]) = c.apply (after calls) := by
  rw [after, List.foldl_append]
  rfl

theorem after_append (calls changes : List (Mutation α)) :
    after (calls ++ changes) = changes.foldl Mutation.apply (after calls) :=
  List.foldl_append

theorem content_concat (calls : List (Mutation α)) (c : Mutation α) :
    content (calls ++ [c]) = c.update (content calls) := by
  rw [content, List.foldl_append]
  rfl

/-! ## One call -/

/-- What putting an item, deleting a key and adding an index keep, every call keeps. -/
theorem apply_induction {P : Store α → Prop} (hu : ∀ s a, P s → P (s.upsert a).1)
    (hd : ∀ s k, P s → P (s.delete k).1)
    (ha : ∀ s s' name values, P s → s.addIndex name values = .ok s' → P s') {s : Store α}
    (hs : P s) (c : Mutation α) : P (c.apply s) := by
  cases c with
  | upsert a => exact hu s a hs
  | delete k => exact hd s k hs
  | replace items initial => exact replace_induction hu hd hs items initial
  | addIndex name values =>
    simp only [Mutation.apply]
    split
    next s' hadd => exact ha s s' name values hs hadd
    next => exact hs

/-- A call does to the items what it does to a function from keys to items. -/
theorem apply_items (s : Store α) (c : Mutation α) (k : String) :
    (c.apply s).items.get? k = c.update s.items.get? k := by
  cases c with
  | upsert a => simp [Mutation.apply, Mutation.update]
  | delete k' => simp [Mutation.apply, Mutation.update]
  | replace items initial =>
    rw [Mutation.apply, replace_items, get?_listed]
    rfl
  | addIndex name values =>
    simp only [Mutation.apply, Mutation.update]
    split
    next s' hs => rw [items_of_addIndex hs]
    next => rfl

/-- Only a call that adds an index, and succeeds, changes the functions of the indices. -/
theorem indexer_apply (s : Store α) (c : Mutation α) (name : String) (values : α → List String) :
    (c.apply s).indexer name = some values ↔
      s.indexer name = some values ∨
        c = .addIndex name values ∧ ∃ s', s.addIndex name values = .ok s' := by
  cases c with
  | upsert a => simp [Mutation.apply]
  | delete k => simp [Mutation.apply]
  | replace items initial => simp [Mutation.apply]
  | addIndex other f =>
    simp only [Mutation.apply, Mutation.addIndex.injEq]
    split
    next s' hs =>
      -- the name was free, so this call alone can have given it a function
      have hfree : s.indexer other = none := addIndex_ok_iff.mp ⟨s', hs⟩
      rw [indexer_of_addIndex hs]
      by_cases hn : name = other
      · subst hn
        constructor
        · intro h
          rw [if_pos rfl] at h
          obtain rfl := Option.some.inj h
          exact Or.inr ⟨⟨rfl, rfl⟩, s', hs⟩
        · rintro (h | ⟨⟨-, rfl⟩, -⟩)
          · rw [hfree] at h
            exact absurd h (by simp)
          · rw [if_pos rfl]
      · rw [if_neg hn]
        exact ⟨Or.inl, fun h => h.resolve_right fun e => hn e.1.1.symm⟩
    next e he =>
      -- a call that is refused is not one that has succeeded
      refine ⟨Or.inl, fun h => h.resolve_right ?_⟩
      rintro ⟨⟨rfl, rfl⟩, s', hs⟩
      rw [hs] at he
      exact absurd he (by simp)

/-! ## All calls -/

theorem after_induction {P : Store α → Prop} (h : P ∅) (hu : ∀ s a, P s → P (s.upsert a).1)
    (hd : ∀ s k, P s → P (s.delete k).1)
    (ha : ∀ s s' name values, P s → s.addIndex name values = .ok s' → P s')
    (calls : List (Mutation α)) : P (after calls) := by
  induction calls using List.reverseRecOn with
  | nil => exact h
  | append_singleton calls c ih =>
    rw [after_concat]
    exact apply_induction hu hd ha ih c

theorem sound_after (calls : List (Mutation α)) : (after calls).Sound :=
  after_induction sound_empty (fun _ a hs => sound_upsert hs a) (fun _ k hs => sound_delete hs k)
    (fun _ _ _ _ hs => sound_addIndex hs) calls

theorem get?_after (calls : List (Mutation α)) : (after calls).items.get? = content calls := by
  induction calls using List.reverseRecOn with
  | nil => rfl
  | append_singleton calls c ih =>
    funext k
    rw [after_concat, content_concat, apply_items, ih]

theorem added_concat_iff {calls : List (Mutation α)} {c : Mutation α} {name : String}
    {values : α → List String} :
    Added (calls ++ [c]) name values ↔
      Added calls name values ∨
        c = .addIndex name values ∧ ∃ s', (after calls).addIndex name values = .ok s' := by
  constructor
  · rintro ⟨earlier, later, s', he, hs⟩
    -- the call that has added it is the last one, or comes before that
    rcases List.eq_nil_or_concat later with rfl | ⟨later, c', rfl⟩
    · obtain ⟨rfl, hc⟩ := List.append_inj' he rfl
      exact Or.inr ⟨List.cons.inj hc |>.1, s', hs⟩
    · rw [List.concat_eq_append, ← List.cons_append, ← List.append_assoc] at he
      obtain ⟨hl, -⟩ := List.append_inj' he rfl
      exact Or.inl ⟨earlier, later, s', hl, hs⟩
  · rintro (⟨earlier, later, s', rfl, hs⟩ | ⟨rfl, s', hs⟩)
    · exact ⟨earlier, later ++ [c], s', by simp, hs⟩
    · exact ⟨calls, [], s', rfl, hs⟩

theorem indexer_after (calls : List (Mutation α)) (name : String) (values : α → List String) :
    (after calls).indexer name = some values ↔ Added calls name values := by
  induction calls using List.reverseRecOn with
  | nil =>
    constructor
    · intro h
      exact absurd h (Option.some_ne_none _).symm
    · rintro ⟨earlier, later, s', he, -⟩
      exact absurd he (by simp)
  | append_singleton calls c ih => rw [after_concat, indexer_apply, ih, added_concat_iff]

/-! ## Queries -/

/-- Whatever is asked about items is answered as by the function `m` from keys to items. -/
structure Answers (s : Store α) (m : String → Option α) : Prop where
  /-- Putting an item returns the one that it replaces. -/
  upserted : ∀ a, (s.upsert a).2 = m (keyOf a)
  /-- Deleting a key returns the item that was there. -/
  deleted : ∀ k, (s.delete k).2 = m k
  got : ∀ k, s.get? k = m k
  ordered : s.keys.Pairwise fun a b => Text.bytes a < Text.bytes b
  complete : ∀ k, k ∈ s.keys ↔ ∃ a, m k = some a
  /-- The items are listed in the order of their keys. -/
  inKeyOrder : s.list.map some = s.keys.map m
  /-- An item's own key is the one under which it lies. -/
  ownKeys : s.list.map keyOf = s.keys
  counted : s.size = s.keys.length

theorem answers_of_sound {s : Store α} (h : s.Sound) : s.Answers s.items.get? where
  upserted := upsert_old s
  deleted := delete_old s
  got _ := rfl
  ordered := s.items.keys_increasing.imp Text.compare_eq_lt_iff_bytes.mp
  complete _ := SortedMap.mem_keys_iff
  inKeyOrder := by
    rw [list, keys, SortedMap.values, SortedMap.keys, List.map_map, List.map_map]
    refine List.map_congr_left fun e he => ?_
    exact (SortedMap.mem_entries_iff.mp he).symm
  ownKeys := map_keyOf_list h
  counted := (List.length_map _).symm

/-- The items are listed in the order of the bytes of their keys. -/
theorem list_ordered {s : Store α} (h : s.Sound) :
    (s.list.map keyOf).Pairwise fun a b => Text.bytes a < Text.bytes b := by
  rw [map_keyOf_list h]
  exact (answers_of_sound h).ordered

theorem byIndex_of_indexer {s : Store α} (h : s.Sound) {name : String} {values : α → List String}
    (hv : s.indexer name = some values) (value : String) :
    s.byIndex name value = .ok (s.list.filter fun a => (values a).contains value) := by
  rw [byIndex_eq h, hv]

/-- So are the items that an index gives. -/
theorem byIndex_ordered {s : Store α} (h : s.Sound) {name value : String} {items : List α}
    (hi : s.byIndex name value = .ok items) :
    (items.map keyOf).Pairwise fun a b => Text.bytes a < Text.bytes b := by
  rw [byIndex_eq h] at hi
  split at hi
  next f _ =>
    obtain rfl := Except.ok.inj hi
    exact (list_ordered h).sublist (List.filter_sublist.map keyOf)
  next => exact absurd hi (by simp)

theorem byIndex_eq_error_iff {s : Store α} (h : s.Sound) {name value : String} :
    s.byIndex name value = .error (.indexNotFound name) ↔ s.indexer name = none := by
  rw [byIndex_eq h]
  cases s.indexer name <;> simp

/-- An index that is refused leaves the store as it is. -/
theorem apply_addIndex_of_indexer {s : Store α} {name : String} {values : α → List String}
    (hv : s.indexer name = some values) (other : α → List String) :
    s.addIndex name other = .error (.indexerExists name) ∧
      (Mutation.addIndex name other).apply s = s := by
  have hr : s.addIndex name other = .error (.indexerExists name) := by
    rw [addIndex_eq, hv]
    rfl
  refine ⟨hr, ?_⟩
  simp only [Mutation.apply, hr]

/-- **A store answers as a plain map with filtering**, after any sequence of calls: about items as
the function from keys to the items last put there, and about a named index with the items that
have the value, in the order of their keys.  An index is not found exactly if no call has added it;
the first one of a name is taken in, a second one is refused and changes nothing. -/
theorem answers_as_plain_map (calls : List (Mutation α)) :
    (after calls).Answers (content calls) ∧
    (∀ name values value, Added calls name values →
      (after calls).byIndex name value =
        .ok ((after calls).list.filter fun a => (values a).contains value)) ∧
    (∀ name value, (after calls).byIndex name value = .error (.indexNotFound name) ↔
      ∀ values, ¬Added calls name values) ∧
    (∀ name values other, Added calls name values →
      (after calls).addIndex name other = .error (.indexerExists name) ∧
        after (calls ++ [.addIndex name other]) = after calls) ∧
    (∀ name other, (∀ values, ¬Added calls name values) →
      ∃ s', (after calls).addIndex name other = .ok s') := by
  have hs : (after calls).Sound := sound_after calls
  have hfree : ∀ name, (after calls).indexer name = none ↔ ∀ values, ¬Added calls name values := by
    intro name
    rw [Option.eq_none_iff_forall_ne_some]
    exact forall_congr' fun values => not_congr (indexer_after calls name values)
  refine ⟨?_, ?_, ?_, ?_, ?_⟩
  · rw [← get?_after]
    exact answers_of_sound hs
  · intro name values value ha
    exact byIndex_of_indexer hs ((indexer_after calls name values).mpr ha) value
  · intro name value
    rw [byIndex_eq_error_iff hs]
    exact hfree name
  · intro name values other ha
    rw [after_concat]
    exact apply_addIndex_of_indexer ((indexer_after calls name values).mpr ha) other
  · intro name other hn
    rw [addIndex_eq, (hfree name).mpr hn]
    exact ⟨_, rfl⟩

end InformerHub.Store
