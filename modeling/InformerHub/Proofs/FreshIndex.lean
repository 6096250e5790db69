import InformerHub.Proofs.StoreQueries

/-!
# Indices are as if they were built afresh

An index is kept up with every call: what an item was filed under is taken out, what it is filed
under now is put in, and a bucket goes with its last key.  Queries would not show a bucket that was
left behind empty, nor one that holds more than it should under a value that nobody asks for.  There
is none:

> after any sequence of calls each index is the one that would be built now, over the items that
> are there, from the function that it was added with (`indices_as_built_afresh`).

So a store has no memory of how it came about.  An index may be added before the items or after
them, and items may be replaced at once or put and deleted one by one.

That an index covers the items is known (`Covers`).  It says nothing of empty buckets, so `Pruned`
goes along with it, and an index that is both is determined by its function and the items
(`Tidy.unique`).
-/

namespace InformerHub

namespace Index

variable {α : Type} {ix : Index α} {items : SortedMap String α}

/-! ## No empty buckets -/

/-- Every value that has a bucket has a key in it. -/
def Pruned (ix : Index α) : Prop := ∀ value, ix.buckets.get? value ≠ some ∅

theorem pruned_new (values : α → List String) : (⟨values, ∅⟩ : Index α).Pruned :=
  fun _ => (Option.some_ne_none _).symm

theorem pruned_addTo (h : ix.Pruned) (key value : String) : (ix.addTo key value).Pruned := by
  intro w
  by_cases hw : w = value
  · subst hw
    rw [addTo, SortedMap.get?_insert_self]
    exact fun he => SortedMap.insert_ne_empty _ _ _ (Option.some.inj he)
  · rw [addTo, SortedMap.get?_insert_of_ne hw]
    exact h w

theorem pruned_removeFrom (h : ix.Pruned) (key value : String) :
    (ix.removeFrom key value).Pruned := by
  intro w
  unfold removeFrom
  generalize (ix.bucket value).erase key = rest
  dsimp only
  split
  next =>
    -- the bucket goes with its last key
    by_cases hw : w = value
    · rw [hw, SortedMap.get?_erase_self]
      exact (Option.some_ne_none _).symm
    · rw [SortedMap.get?_erase_of_ne hw]
      exact h w
  next hrest =>
    by_cases hw : w = value
    · rw [hw, SortedMap.get?_insert_self]
      intro he
      rw [Option.some.inj he] at hrest
      exact hrest rfl
    · rw [SortedMap.get?_insert_of_ne hw]
      exact h w

theorem pruned_file (h : ix.Pruned) (key : String) (a : α) : (ix.file key a).Pruned :=
  List.foldlRecOn _ _ h fun _ hix v _ => pruned_addTo hix key v

theorem pruned_unfile (h : ix.Pruned) (key : String) (a : α) : (ix.unfile key a).Pruned :=
  List.foldlRecOn _ _ h fun _ hix v _ => pruned_removeFrom hix key v

theorem pruned_build (values : α → List String) (entries : List (String × α)) :
    (build values entries).Pruned :=
  List.foldlRecOn _ _ (pruned_new values) fun _ hix e _ => pruned_file hix e.1 e.2

/-! ## What determines an index -/

/-- Without empty buckets, what a value has is told by the keys that are filed under it. -/
theorem Pruned.get?_eq_some_iff (h : ix.Pruned) {value : String} {keys : KeySet} :
    ix.buckets.get? value = some keys ↔ ix.bucket value = keys ∧ keys ≠ ∅ := by
  constructor
  · intro hk
    refine ⟨by rw [bucket, hk, Option.getD_some], ?_⟩
    rintro rfl
    exact h value hk
  · rintro ⟨rfl, hne⟩
    unfold bucket at hne ⊢
    cases hk : ix.buckets.get? value with
    | none =>
      rw [hk] at hne
      exact absurd rfl hne
    | some keys => rfl

theorem bucket_ne_empty_iff {value : String} :
    ix.bucket value ≠ ∅ ↔ ∃ key, ix.Files value key := by
  constructor
  · intro hne
    by_contra hno
    refine hne (SortedMap.ext_get? fun key => ?_)
    exact Option.eq_none_iff_forall_ne_some.mpr fun _ hk => hno ⟨key, hk⟩
  · rintro ⟨key, hk⟩ he
    unfold Files at hk
    rw [he, SortedMap.get?_empty] at hk
    exact Option.some_ne_none _ hk.symm

/-- The index covers the items, and has nothing besides. -/
structure Tidy (ix : Index α) (items : SortedMap String α) : Prop where
  covers : ix.Covers items
  pruned : ix.Pruned

theorem tidy_build (values : α → List String) (items : SortedMap String α) :
    (build values items.entries).Tidy items :=
  ⟨covers_build values items, pruned_build values items.entries⟩

/-- A tidy index is determined by its function and the items. -/
theorem Tidy.unique {ix' : Index α} (h : ix.Tidy items) (h' : ix'.Tidy items)
    (hvalues : ix.values = ix'.values) : ix = ix' := by
  have hbucket : ∀ value, ix.bucket value = ix'.bucket value := by
    refine fun value => SortedMap.ext_get? fun key => Option.ext fun _ => ?_
    have hfiles : ix.Files value key ↔ ix'.Files value key := by
      rw [h.covers value key, h'.covers value key, hvalues]
    exact hfiles
  have hbuckets : ix.buckets = ix'.buckets := by
    refine SortedMap.ext_get? fun value => Option.ext fun keys => ?_
    rw [h.pruned.get?_eq_some_iff, h'.pruned.get?_eq_some_iff, hbucket]
  cases ix
  cases ix'
  exact congrArg₂ Index.mk hvalues hbuckets

/-- A tidy index is the one that would be built from its function now. -/
theorem Tidy.eq_build (h : ix.Tidy items) : ix = build ix.values items.entries :=
  h.unique (tidy_build ix.values items) (values_build ix.values items.entries).symm

/-- The index has this function, and it has a bucket for each value that some item has and for no
other.  The bucket holds the keys of the items that have the value, in their order and each once. -/
structure Exact [Object α] (ix : Index α) (values : α → List String) (items : List α) : Prop where
  function : ix.values = values
  valued : ∀ value, value ∈ ix.buckets.keys ↔ ∃ a ∈ items, value ∈ values a
  filled : ∀ value keys, ix.buckets.get? value = some keys →
    keys.keys = (items.filter fun a => (values a).contains value).map keyOf

end Index

namespace Store

variable {α : Type} [Object α] {s s' : Store α}

/-! ## Tidy stores -/

/-- A sound store none of whose indices has an empty bucket. -/
structure Tidy (s : Store α) : Prop extends s.Sound where
  pruned : ∀ {name ix}, s.indices.get? name = some ix → ix.Pruned

theorem tidy_empty : (∅ : Store α).Tidy where
  toSound := sound_empty
  pruned h := absurd h (Option.some_ne_none _).symm

theorem tidy_upsert (h : s.Tidy) (a : α) : (s.upsert a).1.Tidy where
  toSound := sound_upsert h.toSound a
  pruned := by
    intro name ix hix
    obtain ⟨ix₀, h₀, ⟨o, -, rfl⟩ | ⟨-, rfl⟩⟩ := cases_of_upsert hix
    · exact Index.pruned_file (Index.pruned_unfile (h.pruned h₀) _ o) _ a
    · exact Index.pruned_file (h.pruned h₀) _ a

theorem tidy_delete (h : s.Tidy) (k : String) : (s.delete k).1.Tidy where
  toSound := sound_delete h.toSound k
  pruned := by
    intro name ix hix
    obtain ⟨ix₀, h₀, ⟨o, -, rfl⟩ | ⟨-, rfl⟩⟩ := cases_of_delete hix
    · exact Index.pruned_unfile (h.pruned h₀) k o
    · exact h.pruned h₀

theorem tidy_addIndex (h : s.Tidy) {name : String} {values : α → List String}
    (ha : s.addIndex name values = .ok s') : s'.Tidy where
  toSound := sound_addIndex h.toSound ha
  pruned := by
    intro other ix hix
    rcases cases_of_addIndex ha hix with rfl | h₀
    · exact Index.pruned_build values s.items.entries
    · exact h.pruned h₀

theorem tidy_after (calls : List (Mutation α)) : (after calls).Tidy :=
  after_induction tidy_empty (fun _ a hs => tidy_upsert hs a) (fun _ k hs => tidy_delete hs k)
    (fun _ _ _ _ hs => tidy_addIndex hs) calls

/-! ## What determines a store -/

theorem Tidy.tidy_index (h : s.Tidy) {name : String} {ix : Index α}
    (hix : s.indices.get? name = some ix) : ix.Tidy s.items :=
  ⟨h.covered hix, h.pruned hix⟩

/-- The indices of a tidy store, from the index functions and the items. -/
theorem Tidy.get?_indices (h : s.Tidy) (name : String) :
    s.indices.get? name =
      (s.indexer name).map fun values => Index.build values s.items.entries := by
  unfold indexer
  cases hix : s.indices.get? name with
  | none => rfl
  | some ix => exact congrArg some (h.tidy_index hix).eq_build

/-- Tidy stores with the same items and index functions are the same. -/
theorem Tidy.unique (h : s.Tidy) (h' : s'.Tidy) (hitems : s.items = s'.items)
    (hindexer : ∀ name, s.indexer name = s'.indexer name) : s = s' := by
  have hindices : s.indices = s'.indices := by
    refine SortedMap.ext_get? fun name => ?_
    rw [h.get?_indices, h'.get?_indices, hitems, hindexer]
  cases s
  cases s'
  exact congrArg₂ Store.mk hitems hindices

theorem Tidy.exact (h : s.Tidy) {name : String} {ix : Index α}
    (hix : s.indices.get? name = some ix) : ix.Exact ix.values s.list where
  function := rfl
  valued value := by
    have hpruned := h.pruned hix
    rw [SortedMap.mem_keys_iff]
    constructor
    · rintro ⟨keys, hk⟩
      obtain ⟨rfl, hne⟩ := hpruned.get?_eq_some_iff.mp hk
      obtain ⟨key, hfiles⟩ := Index.bucket_ne_empty_iff.mp hne
      obtain ⟨a, ha, hv⟩ := (h.covered hix value key).mp hfiles
      exact ⟨a, SortedMap.mem_values_iff.mpr ⟨key, ha⟩, hv⟩
    · rintro ⟨a, ha, hv⟩
      obtain ⟨key, hkey⟩ := SortedMap.mem_values_iff.mp ha
      have hfiles : ix.Files value key := (h.covered hix value key).mpr ⟨a, hkey, hv⟩
      exact ⟨ix.bucket value, hpruned.get?_eq_some_iff.mpr
        ⟨rfl, Index.bucket_ne_empty_iff.mpr ⟨key, hfiles⟩⟩⟩
  filled value keys hk := by
    obtain ⟨rfl, -⟩ := (h.pruned hix).get?_eq_some_iff.mp hk
    rw [bucket_eq (h.covered hix), SortedMap.keys_mapValues, map_keyOf_filter h.toSound]

/-! ## Ways to the same store -/

/-- A call does the same to the functions of the indices wherever they are the same. -/
theorem indexer_apply_congr (h : ∀ name, s.indexer name = s'.indexer name) (c : Mutation α)
    (name : String) : (c.apply s).indexer name = (c.apply s').indexer name := by
  refine Option.ext fun values => ?_
  rw [indexer_apply, indexer_apply, addIndex_ok_iff, addIndex_ok_iff, h name]

/-- Calls that add no index leave the functions of the indices alone. -/
theorem indexer_foldl {changes : List (Mutation α)}
    (hc : ∀ c ∈ changes, ∀ name values, c ≠ .addIndex name values) (s : Store α) (name : String) :
    (changes.foldl Mutation.apply s).indexer name = s.indexer name := by
  refine List.foldlRecOn (motive := fun s' : Store α => s'.indexer name = s.indexer name) _ _
    rfl fun s' hs' c hmem => ?_
  refine Option.ext fun values => ?_
  rw [indexer_apply, hs']
  exact or_iff_left fun h => hc c hmem name values h.1

/-- An index may be added before other changes or after them. -/
theorem after_addIndex_first (calls : List (Mutation α)) (name : String)
    (values : α → List String) {changes : List (Mutation α)}
    (hc : ∀ c ∈ changes, ∀ name values, c ≠ .addIndex name values) :
    after (calls ++ .addIndex name values :: changes) =
      after (calls ++ changes ++ [.addIndex name values]) := by
  refine (tidy_after _).unique (tidy_after _) ?_ fun other => ?_
  · -- the items take no notice of an index that is added
    refine SortedMap.ext_get? fun k => ?_
    rw [get?_after, get?_after]
    simp only [content, List.foldl_append, List.foldl_cons, List.foldl_nil]
    rfl
  · rw [after_concat, after_append, List.foldl_cons, indexer_foldl hc]
    refine indexer_apply_congr (fun name => ?_) _ other
    rw [after_append, indexer_foldl hc]

theorem foldl_upsert_items (items : List α) :
    ∀ s : Store α, ((items.map Mutation.upsert).foldl Mutation.apply s).items =
      items.foldl (fun m a => m.insert (keyOf a) a) s.items := by
  induction items with
  | nil => intro s; rfl
  | cons a as ih => intro s; exact ih (s.upsert a).1

theorem foldl_delete_items (ks : List String) :
    ∀ s : Store α, ((ks.map Mutation.delete).foldl Mutation.apply s).items =
      ks.foldl SortedMap.erase s.items := by
  induction ks with
  | nil => intro s; rfl
  | cons k ks ih =>
    intro s
    rw [List.foldl_cons, ← delete_items]
    exact ih (s.delete k).1

/-- Items may be replaced at once, or put one by one and the others deleted one by one. -/
theorem after_replace (calls : List (Mutation α)) (items : List α) (initial : Bool)
    {gone : List String} (hgone : ∀ k ∈ gone, k ∉ items.map keyOf)
    (hrest : ∀ k ∈ (after calls).keys, k ∈ items.map keyOf ∨ k ∈ gone) :
    after (calls ++ [.replace items initial]) =
      after (calls ++ items.map .upsert ++ gone.map .delete) := by
  refine (tidy_after _).unique (tidy_after _) ?_ fun name => ?_
  · refine SortedMap.ext_get? fun k => ?_
    rw [after_concat, Mutation.apply, replace_items, after_append, foldl_delete_items,
      get?_foldl_erase, after_append, foldl_upsert_items, get?_foldl_insert, ← get?_listed]
    by_cases hk : k ∈ gone
    · rw [if_pos hk]
      exact get?_listed_eq_none_iff.mpr (hgone k hk)
    · rw [if_neg hk]
      cases hl : (listed items).get? k with
      | some a => rfl
      | none =>
        -- a key that is neither listed nor gone was not there before
        rw [Option.none_or]
        refine (Option.eq_none_iff_forall_ne_some.mpr fun a ha => ?_).symm
        rcases hrest k (SortedMap.mem_keys_iff.mpr ⟨a, ha⟩) with hlisted | hmem
        · exact get?_listed_eq_none_iff.mp hl hlisted
        · exact hk hmem
  · rw [after_append, after_append, after_append, indexer_foldl (by simp),
      indexer_foldl (by simp), indexer_foldl (by simp)]

/-- **Indices are as if they were built afresh**, after any sequence of calls.

* There is an index under each name that was added, and under no other.
* It is the one that would be built over the present items from the function it was added with: it
  has a bucket for exactly the values that some item has, and the bucket holds exactly the keys of
  the items that have the value.
* So sequences of calls that lead to the same items and index functions lead to the same indices.
  It makes no difference whether an index is added before some changes or after them, nor whether
  items are replaced at once, or put and deleted one by one. -/
theorem indices_as_built_afresh (calls : List (Mutation α)) :
    (∀ name, name ∈ (after calls).indices.keys ↔ ∃ values, Added calls name values) ∧
    (∀ name values, Added calls name values → ∃ ix, (after calls).indices.get? name = some ix ∧
      ix = Index.build values (after calls).items.entries ∧
        ix.Exact values (after calls).list) ∧
    (∀ calls', (after calls').items = (after calls).items →
      (∀ name, (after calls').indexer name = (after calls).indexer name) →
        (after calls').indices = (after calls).indices) ∧
    (∀ name values changes,
      (∀ c ∈ changes, ∀ other f, c ≠ (.addIndex other f : Mutation α)) →
        after (calls ++ .addIndex name values :: changes) =
          after (calls ++ changes ++ [.addIndex name values])) ∧
    (∀ items initial (gone : List String), (∀ k ∈ gone, k ∉ items.map keyOf) →
      (∀ k ∈ (after calls).keys, k ∈ items.map keyOf ∨ k ∈ gone) →
        after (calls ++ [.replace items initial]) =
          after (calls ++ items.map .upsert ++ gone.map .delete)) := by
  have htidy := tidy_after calls
  refine ⟨fun name => ?_, fun name values ha => ?_, fun calls' hitems hindexer => ?_,
    fun name values changes hc => after_addIndex_first calls name values hc,
    fun items initial gone hgone hrest => after_replace calls items initial hgone hrest⟩
  · rw [SortedMap.mem_keys_iff]
    constructor
    · rintro ⟨ix, hix⟩
      have hvalues : (after calls).indexer name = some ix.values :=
        congrArg (Option.map Index.values) hix
      exact ⟨ix.values, (indexer_after calls name _).mp hvalues⟩
    · rintro ⟨values, ha⟩
      obtain ⟨ix, hix, -⟩ := Option.map_eq_some_iff.mp ((indexer_after calls name values).mpr ha)
      exact ⟨ix, hix⟩
  · obtain ⟨ix, hix, rfl⟩ := Option.map_eq_some_iff.mp ((indexer_after calls name values).mpr ha)
    exact ⟨ix, hix, (htidy.tidy_index hix).eq_build, htidy.exact hix⟩
  · exact congrArg indices ((tidy_after calls').unique htidy hitems hindexer)

end Store

end InformerHub
