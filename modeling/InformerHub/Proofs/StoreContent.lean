import InformerHub.Proofs.Index

/-!
# What the operations of a store do

The items are a map from keys, and each operation does to it what its name says: `upsert_items`,
`delete_items`, and `replace_items`, by which a replaced store holds exactly the listed items, the
last one of each key.

`Sound` is the invariant of every store: an item lies under its own key, and every index covers the
items.  Both hold of the empty store and are kept by every operation, so a query of an index can
be answered from the items alone (`byIndex_eq`).
-/

namespace InformerHub.Store

variable {α : Type}

/-! ## Items that go -/

theorem get?_foldl_erase (ks : List String) :
    ∀ (m : SortedMap String α) (k : String),
      (ks.foldl SortedMap.erase m).get? k = if k ∈ ks then none else m.get? k := by
  induction ks with
  | nil => intro m k; simp
  | cons k' ks ih =>
    intro m k
    rw [List.foldl_cons, ih]
    by_cases hk : k = k' <;> simp [hk]

@[simp] theorem delete_items (s : Store α) (k : String) :
    (s.delete k).1.items = s.items.erase k := by
  unfold delete
  split
  next => rfl
  next h => exact (SortedMap.erase_eq_self h).symm

@[simp] theorem delete_old (s : Store α) (k : String) : (s.delete k).2 = s.items.get? k := by
  unfold delete
  split
  next h => exact h.symm
  next h => exact h.symm

theorem deleteAll_items (ks : List String) :
    ∀ s : Store α, (deleteAll ks s).1.items = ks.foldl SortedMap.erase s.items := by
  induction ks with
  | nil => intro s; rfl
  | cons k ks ih =>
    intro s
    rw [List.foldl_cons, ← delete_items, ← ih]
    simp only [deleteAll]
    split <;> rfl

/-! ## Items that come -/

section Items

variable [Object α]

/-- The map that a list of items stands for: the last item of a key counts. -/
def listed (items : List α) : SortedMap String α :=
  SortedMap.ofList (items.map fun a => (keyOf a, a))

theorem listed_eq_foldl (items : List α) :
    listed items = items.foldl (fun m a => m.insert (keyOf a) a) ∅ := by
  rw [listed, SortedMap.ofList, List.foldl_map]

/-- Putting items one after the other: what is listed comes before what was there. -/
theorem get?_foldl_insert (items : List α) :
    ∀ (m : SortedMap String α) (k : String),
      (items.foldl (fun m a => m.insert (keyOf a) a) m).get? k =
        (items.reverse.find? fun a => keyOf a = k).or (m.get? k) := by
  induction items with
  | nil => intro m k; rfl
  | cons a as ih =>
    intro m k
    -- what follows `a` comes first, then `a` itself, then what was there
    rw [List.foldl_cons, ih, List.reverse_cons, List.find?_append, Option.or_assoc]
    by_cases hk : k = keyOf a
    · subst hk
      simp
    · have hk' : keyOf a ≠ k := fun e => hk e.symm
      simp [hk, hk']

theorem get?_listed (items : List α) (k : String) :
    (listed items).get? k = items.reverse.find? fun a => keyOf a = k := by
  rw [listed_eq_foldl, get?_foldl_insert, SortedMap.get?_empty, Option.or_none]

theorem get?_listed_eq_none_iff {items : List α} {k : String} :
    (listed items).get? k = none ↔ k ∉ items.map keyOf := by
  rw [get?_listed, List.find?_eq_none]
  simp

@[simp] theorem upsert_items (s : Store α) (a : α) :
    (s.upsert a).1.items = s.items.insert (keyOf a) a := rfl

@[simp] theorem upsert_old (s : Store α) (a : α) : (s.upsert a).2 = s.items.get? (keyOf a) := rfl

theorem get?_upsert_self (s : Store α) (a : α) : (s.upsert a).1.get? (keyOf a) = some a :=
  SortedMap.get?_insert_self s.items (keyOf a) a

theorem get?_upsert_of_ne {a : α} {k : String} (h : k ≠ keyOf a) (s : Store α) :
    (s.upsert a).1.get? k = s.get? k :=
  SortedMap.get?_insert_of_ne h s.items a

theorem upsertAll_items (initial : Bool) (items : List α) :
    ∀ s : Store α, (upsertAll initial items s).1.items =
      items.foldl (fun m a => m.insert (keyOf a) a) s.items := by
  induction items with
  | nil => intro s; rfl
  | cons a as ih =>
    intro s
    rw [List.foldl_cons, ← upsert_items, ← ih]
    simp only [upsertAll]
    split <;> rfl

/-- A replaced store holds what is listed and nothing else. -/
theorem replace_items (s : Store α) (items : List α) (initial : Bool) :
    (s.replace items initial).1.items = listed items := by
  refine SortedMap.ext_get? fun k => ?_
  simp only [replace, deleteAll_items, get?_foldl_erase, upsertAll_items, get?_foldl_insert,
    ← get?_listed]
  by_cases hk : k ∈ items.map keyOf
  · -- a listed key is not dropped, and its last item is there
    obtain ⟨a, ha⟩ := Option.ne_none_iff_exists'.mp fun h => get?_listed_eq_none_iff.mp h hk
    rw [ha, if_neg fun hd => ?_]
    · rfl
    · have hl := (List.mem_filter.mp hd).2
      rw [List.contains_iff_mem.mpr hk] at hl
      exact absurd hl (by decide)
  · -- another key is dropped if it is there at all
    have hn : (listed items).get? k = none := get?_listed_eq_none_iff.mpr hk
    rw [hn, Option.none_or]
    split
    next => rfl
    next hd =>
      cases hs : s.items.get? k with
      | none => rfl
      | some a =>
        refine absurd (List.mem_filter.mpr ⟨?_, by simp [hk]⟩) hd
        refine SortedMap.mem_keys_iff.mpr ⟨a, ?_⟩
        rw [upsertAll_items, get?_foldl_insert, ← get?_listed, hn, Option.none_or, hs]

/-- What putting one item keeps, putting one after the other keeps. -/
theorem upsertAll_induction {P : Store α → Prop} (hu : ∀ s a, P s → P (s.upsert a).1)
    (initial : Bool) (items : List α) : ∀ {s : Store α}, P s → P (upsertAll initial items s).1 := by
  induction items with
  | nil => intro s hs; exact hs
  | cons a as ih =>
    intro s hs
    simp only [upsertAll]
    split <;> exact ih (hu s a hs)

/-- What putting one item and deleting one key keep, replacing the content keeps. -/
theorem replace_induction {P : Store α → Prop} (hu : ∀ s a, P s → P (s.upsert a).1)
    (hd : ∀ s k, P s → P (s.delete k).1) {s : Store α} (hs : P s) (items : List α)
    (initial : Bool) : P (s.replace items initial).1 := by
  have hdel : ∀ (ks : List String) {s : Store α}, P s → P (deleteAll ks s).1 := by
    intro ks
    induction ks with
    | nil => intro s hs; exact hs
    | cons k ks ih =>
      intro s hs
      simp only [deleteAll]
      split <;> exact ih (hd s k hs)
  exact hdel _ (upsertAll_induction hu initial items hs)

end Items

/-! ## Index functions -/

/-- The function of a named index. -/
def indexer (s : Store α) (name : String) : Option (α → List String) :=
  (s.indices.get? name).map Index.values

@[simp] theorem indexer_upsert [Object α] (s : Store α) (a : α) (name : String) :
    (s.upsert a).1.indexer name = s.indexer name := by
  simp only [indexer, upsert, SortedMap.get?_mapValues, Option.map_map]
  congr 1
  funext ix
  simp only [Function.comp_apply]
  split <;> simp

@[simp] theorem indexer_delete (s : Store α) (k name : String) :
    (s.delete k).1.indexer name = s.indexer name := by
  unfold delete
  split
  next o _ =>
    simp only [indexer, SortedMap.get?_mapValues, Option.map_map]
    congr 1
    funext ix
    exact Index.values_unfile ix k o
  next => rfl

@[simp] theorem indexer_replace [Object α] (s : Store α) (items : List α) (initial : Bool)
    (name : String) : (s.replace items initial).1.indexer name = s.indexer name :=
  replace_induction (P := fun s' => s'.indexer name = s.indexer name)
    (fun s' a h => (indexer_upsert s' a name).trans h)
    (fun s' k h => (indexer_delete s' k name).trans h) rfl items initial

/-- An index is added unless its name is taken. -/
theorem addIndex_eq (s : Store α) (name : String) (values : α → List String) :
    s.addIndex name values =
      if (s.indexer name).isSome then .error (.indexerExists name)
      else
        .ok { s with indices := s.indices.insert name (Index.build values s.items.entries) } := by
  unfold addIndex indexer SortedMap.contains
  rw [Option.isSome_map]

theorem addIndex_ok_iff {s : Store α} {name : String} {values : α → List String} :
    (∃ s', s.addIndex name values = .ok s') ↔ s.indexer name = none := by
  rw [addIndex_eq]
  cases s.indexer name <;> simp

/-- An index that is added is built over all items. -/
theorem eq_of_addIndex {s s' : Store α} {name : String} {values : α → List String}
    (h : s.addIndex name values = .ok s') :
    s' = { s with indices := s.indices.insert name (Index.build values s.items.entries) } := by
  rw [addIndex_eq] at h
  split at h
  next => exact absurd h (by simp)
  next => exact (Except.ok.inj h).symm

/-- The function of an index that was added, and those of the others. -/
theorem indexer_of_addIndex {s s' : Store α} {name : String} {values : α → List String}
    (h : s.addIndex name values = .ok s') (other : String) :
    s'.indexer other = if other = name then some values else s.indexer other := by
  obtain rfl := eq_of_addIndex h
  by_cases ho : other = name <;> simp [indexer, ho, Index.values_build]

theorem items_of_addIndex {s s' : Store α} {name : String} {values : α → List String}
    (h : s.addIndex name values = .ok s') : s'.items = s.items := by
  rw [eq_of_addIndex h]

/-- What a call makes of each index: where an item is put, the one it replaces is taken out. -/
theorem cases_of_upsert [Object α] {s : Store α} {a : α} {name : String} {ix : Index α}
    (h : (s.upsert a).1.indices.get? name = some ix) :
    ∃ ix₀, s.indices.get? name = some ix₀ ∧
      ((∃ o, s.items.get? (keyOf a) = some o ∧
        ix = (ix₀.unfile (keyOf a) o).file (keyOf a) a) ∨
          s.items.get? (keyOf a) = none ∧ ix = ix₀.file (keyOf a) a) := by
  simp only [upsert, SortedMap.get?_mapValues] at h
  obtain ⟨ix₀, h₀, rfl⟩ := Option.map_eq_some_iff.mp h
  refine ⟨ix₀, h₀, ?_⟩
  split
  next o ho => exact Or.inl ⟨o, ho, rfl⟩
  next hn => exact Or.inr ⟨hn, rfl⟩

theorem cases_of_delete {s : Store α} {k name : String} {ix : Index α}
    (h : (s.delete k).1.indices.get? name = some ix) :
    ∃ ix₀, s.indices.get? name = some ix₀ ∧
      ((∃ o, s.items.get? k = some o ∧ ix = ix₀.unfile k o) ∨
        s.items.get? k = none ∧ ix = ix₀) := by
  unfold delete at h
  split at h
  next o ho =>
    rw [SortedMap.get?_mapValues] at h
    obtain ⟨ix₀, h₀, rfl⟩ := Option.map_eq_some_iff.mp h
    exact ⟨ix₀, h₀, Or.inl ⟨o, ho, rfl⟩⟩
  next hn => exact ⟨ix, h, Or.inr ⟨hn, rfl⟩⟩

/-- The new index is built over all items, the others were there before. -/
theorem cases_of_addIndex {s s' : Store α} {name other : String} {values : α → List String}
    {ix : Index α} (ha : s.addIndex name values = .ok s')
    (h : s'.indices.get? other = some ix) :
    ix = Index.build values s.items.entries ∨ s.indices.get? other = some ix := by
  rw [eq_of_addIndex ha] at h
  by_cases ho : other = name
  · rw [ho, SortedMap.get?_insert_self] at h
    exact Or.inl (Option.some.inj h).symm
  · rw [SortedMap.get?_insert_of_ne ho] at h
    exact Or.inr h

/-- The bucket of a value is the set of keys of the items that have it. -/
theorem bucket_eq {s : Store α} {ix : Index α} (h : ix.Covers s.items) (value : String) :
    ix.bucket value =
      (s.items.filter fun _ a => (ix.values a).contains value).mapValues fun _ _ => () := by
  refine SortedMap.ext_get? fun k => ?_
  rw [SortedMap.get?_mapValues, SortedMap.get?_filter]
  have hk := h value k
  unfold Index.Files at hk
  refine Option.ext fun u => ?_
  simp only [hk, Option.map_eq_some_iff, Option.filter_eq_some_iff, List.contains_iff_mem,
    and_true]

/-! ## Sound stores -/

/-- Every item lies under its own key, and every index covers the items. -/
structure Sound [Object α] (s : Store α) : Prop where
  keyed : ∀ {k a}, s.items.get? k = some a → keyOf a = k
  covered : ∀ {name ix}, s.indices.get? name = some ix → ix.Covers s.items

section Sound

variable [Object α]

theorem sound_empty : (∅ : Store α).Sound where
  keyed h := absurd h (Option.some_ne_none _).symm
  covered h := absurd h (Option.some_ne_none _).symm

theorem sound_upsert {s : Store α} (h : s.Sound) (a : α) : (s.upsert a).1.Sound where
  keyed := by
    intro k b hb
    rw [upsert_items] at hb
    by_cases hk : k = keyOf a
    · subst hk
      rw [SortedMap.get?_insert_self] at hb
      rw [Option.some.inj hb]
    · rw [SortedMap.get?_insert_of_ne hk] at hb
      exact h.keyed hb
  covered := by
    intro name ix hix
    rw [upsert_items]
    obtain ⟨ix₀, h₀, ⟨o, ho, rfl⟩ | ⟨hn, rfl⟩⟩ := cases_of_upsert hix
    · exact Index.covers_refile (h.covered h₀) ho a
    · exact Index.covers_file (h.covered h₀) hn a

theorem sound_delete {s : Store α} (h : s.Sound) (k : String) : (s.delete k).1.Sound where
  keyed := by
    intro k' a ha
    rw [delete_items] at ha
    by_cases hk : k' = k
    · rw [hk, SortedMap.get?_erase_self] at ha
      exact absurd ha (by simp)
    · rw [SortedMap.get?_erase_of_ne hk] at ha
      exact h.keyed ha
  covered := by
    intro name ix hix
    rw [delete_items]
    obtain ⟨ix₀, h₀, ⟨o, ho, rfl⟩ | ⟨hn, rfl⟩⟩ := cases_of_delete hix
    · exact Index.covers_unfile (h.covered h₀) ho
    · rw [SortedMap.erase_eq_self hn]
      exact h.covered h₀

theorem sound_upsertAll {s : Store α} (h : s.Sound) (initial : Bool) (items : List α) :
    (upsertAll initial items s).1.Sound :=
  upsertAll_induction (P := Sound) (fun _ a hs => sound_upsert hs a) initial items h

theorem sound_replace {s : Store α} (h : s.Sound) (items : List α) (initial : Bool) :
    (s.replace items initial).1.Sound :=
  replace_induction (P := Sound) (fun _ a hs => sound_upsert hs a)
    (fun _ k hs => sound_delete hs k) h items initial

theorem sound_addIndex {s s' : Store α} (h : s.Sound) {name : String}
    {values : α → List String} (ha : s.addIndex name values = .ok s') : s'.Sound where
  keyed := by
    intro k a hk
    rw [items_of_addIndex ha] at hk
    exact h.keyed hk
  covered := by
    intro other ix hix
    rw [items_of_addIndex ha]
    rcases cases_of_addIndex ha hix with rfl | h₀
    · exact Index.covers_build values s.items
    · exact h.covered h₀

/-- In a sound store the items' own keys are the keys under which they lie. -/
theorem map_keyOf_list {s : Store α} (h : s.Sound) : s.list.map keyOf = s.keys := by
  rw [list, keys, SortedMap.values, SortedMap.keys, List.map_map]
  refine List.map_congr_left fun e he => ?_
  exact h.keyed (SortedMap.mem_entries_iff.mp he)

/-- The keys of the items that pass a test are those of the filtered map. -/
theorem map_keyOf_filter {s : Store α} (h : s.Sound) (p : α → Bool) :
    (s.list.filter p).map keyOf = (s.items.filter fun _ a => p a).keys := by
  rw [list, SortedMap.values, SortedMap.keys, List.filter_map, List.map_map]
  refine List.map_congr_left fun e he => ?_
  exact h.keyed (SortedMap.mem_entries_iff.mp (List.mem_filter.mp he).1)

theorem mem_list_iff {s : Store α} (h : s.Sound) {a : α} :
    a ∈ s.list ↔ s.get? (keyOf a) = some a := by
  unfold list get?
  rw [SortedMap.mem_values_iff]
  constructor
  · rintro ⟨k, hk⟩
    rw [h.keyed hk]
    exact hk
  · exact fun ha => ⟨keyOf a, ha⟩

/-- No two items of a sound store have one key. -/
theorem nodup_map_keyOf_list {s : Store α} (h : s.Sound) : (s.list.map keyOf).Nodup := by
  rw [map_keyOf_list h]
  refine (SortedMap.keys_increasing s.items).imp fun {a b} hlt hab => ?_
  subst hab
  exact absurd (hlt.symm.trans Std.ReflCmp.compare_self) (by decide)

/-- An index answers with the items that have the value, in the order of their keys. -/
theorem byIndex_eq {s : Store α} (h : s.Sound) (name value : String) :
    s.byIndex name value =
      match s.indexer name with
      | some f => .ok (s.list.filter fun a => (f a).contains value)
      | none => .error (.indexNotFound name) := by
  unfold byIndex indexer
  cases hix : s.indices.get? name with
  | none => rfl
  | some ix =>
    refine congrArg Except.ok ?_
    rw [bucket_eq (h.covered hix), SortedMap.keys_mapValues]
    exact SortedMap.filterMap_get?_keys_filter _ s.items

/-- What an index lists is stored, each item once. -/
theorem listed_of_byIndex {s : Store α} (h : s.Sound) {name value : String} {items : List α}
    (hi : s.byIndex name value = .ok items) :
    (items.map keyOf).Nodup ∧ ∀ a ∈ items, s.get? (keyOf a) = some a := by
  rw [byIndex_eq h] at hi
  split at hi
  next f _ =>
    obtain rfl := Except.ok.inj hi
    refine ⟨?_, fun a ha => (mem_list_iff h).mp (List.mem_filter.mp ha).1⟩
    exact (nodup_map_keyOf_list h).sublist (List.filter_sublist.map keyOf)
  next => exact absurd hi (by simp)

end Sound

end InformerHub.Store
