import InformerHub.Store
import InformerHub.Proofs.SortedMap

/-!
# Indices stay in step with the items

An index covers a map of items when a key is filed under a value exactly if the item of that key
has the value.  Filing an item under its values and taking it out again are described by what they
do to a single bucket; from that follow the three ways an index comes to cover a map: an item is
put there, one is taken away, or the index is built over all of them.

An index function may give a value twice.  Filing is then done twice, and taking out as well, which
changes nothing: a bucket is a set.
-/

namespace InformerHub.Index

variable {α : Type}

/-- The key is filed under the value. -/
def Files (ix : Index α) (value key : String) : Prop := (ix.bucket value).get? key = some ()

/-- Every key is filed under the values of its item, and under no others. -/
def Covers (ix : Index α) (items : SortedMap String α) : Prop :=
  ∀ value key, ix.Files value key ↔ ∃ a, items.get? key = some a ∧ value ∈ ix.values a

/-! ## One key and one value -/

theorem bucket_addTo (ix : Index α) (key value w : String) :
    (ix.addTo key value).bucket w =
      if w = value then (ix.bucket value).insert key () else ix.bucket w := by
  by_cases h : w = value
  · subst h
    rw [if_pos rfl, bucket, addTo, SortedMap.get?_insert_self, Option.getD_some]
  · rw [if_neg h, bucket, addTo, SortedMap.get?_insert_of_ne h, bucket]

/-- A bucket that goes away with its last key is as good as an empty one. -/
theorem bucket_removeFrom (ix : Index α) (key value w : String) :
    (ix.removeFrom key value).bucket w =
      if w = value then (ix.bucket value).erase key else ix.bucket w := by
  unfold removeFrom
  generalize (ix.bucket value).erase key = rest
  by_cases h : w = value
  · subst h
    rw [if_pos rfl]
    cases he : rest.isEmpty with
    | true =>
      -- the bucket has gone, and a bucket that is not there counts as empty
      have hr : rest = ∅ := SortedMap.eq_empty_of_isEmpty he
      simpa [bucket, he] using hr.symm
    | false => simp [bucket, he]
  · cases he : rest.isEmpty <;> simp [bucket, he, h]

theorem files_addTo (ix : Index α) (key value w k : String) :
    (ix.addTo key value).Files w k ↔ (k = key ∧ w = value) ∨ ix.Files w k := by
  unfold Files
  rw [bucket_addTo]
  by_cases hw : w = value
  · subst hw
    by_cases hk : k = key <;> simp [hk]
  · simp [hw]

theorem files_removeFrom (ix : Index α) (key value w k : String) :
    (ix.removeFrom key value).Files w k ↔ ix.Files w k ∧ ¬(k = key ∧ w = value) := by
  unfold Files
  rw [bucket_removeFrom]
  by_cases hw : w = value
  · subst hw
    by_cases hk : k = key <;> simp [hk]
  · simp [hw]

/-! ## All values of an item -/

theorem values_foldl_addTo (key : String) (vs : List String) :
    ∀ ix : Index α, (vs.foldl (fun ix v => ix.addTo key v) ix).values = ix.values := by
  induction vs with
  | nil => intro ix; rfl
  | cons v vs ih => intro ix; exact ih (ix.addTo key v)

theorem values_foldl_removeFrom (key : String) (vs : List String) :
    ∀ ix : Index α, (vs.foldl (fun ix v => ix.removeFrom key v) ix).values = ix.values := by
  induction vs with
  | nil => intro ix; rfl
  | cons v vs ih => intro ix; exact ih (ix.removeFrom key v)

theorem files_foldl_addTo (key : String) (vs : List String) :
    ∀ (ix : Index α) (w k : String),
      (vs.foldl (fun ix v => ix.addTo key v) ix).Files w k ↔ (k = key ∧ w ∈ vs) ∨ ix.Files w k := by
  induction vs with
  | nil => intro ix w k; simp
  | cons v vs ih =>
    intro ix w k
    rw [List.foldl_cons, ih, files_addTo, List.mem_cons]
    grind

theorem files_foldl_removeFrom (key : String) (vs : List String) :
    ∀ (ix : Index α) (w k : String),
      (vs.foldl (fun ix v => ix.removeFrom key v) ix).Files w k ↔
        ix.Files w k ∧ ¬(k = key ∧ w ∈ vs) := by
  induction vs with
  | nil => intro ix w k; simp
  | cons v vs ih =>
    intro ix w k
    rw [List.foldl_cons, ih, files_removeFrom, List.mem_cons]
    grind

@[simp] theorem values_file (ix : Index α) (key : String) (a : α) :
    (ix.file key a).values = ix.values :=
  values_foldl_addTo key _ ix

@[simp] theorem values_unfile (ix : Index α) (key : String) (a : α) :
    (ix.unfile key a).values = ix.values :=
  values_foldl_removeFrom key _ ix

theorem files_file (ix : Index α) (key : String) (a : α) (w k : String) :
    (ix.file key a).Files w k ↔ (k = key ∧ w ∈ ix.values a) ∨ ix.Files w k :=
  files_foldl_addTo key _ ix w k

theorem files_unfile (ix : Index α) (key : String) (a : α) (w k : String) :
    (ix.unfile key a).Files w k ↔ ix.Files w k ∧ ¬(k = key ∧ w ∈ ix.values a) :=
  files_foldl_removeFrom key _ ix w k

/-! ## Covering -/

/-- Taking a stored item out of an index leaves the index covering the other items. -/
theorem covers_unfile {ix : Index α} {items : SortedMap String α} {key : String} {o : α}
    (h : ix.Covers items) (ho : items.get? key = some o) :
    (ix.unfile key o).Covers (items.erase key) := by
  intro w k
  rw [files_unfile, values_unfile, h w k]
  by_cases hk : k = key
  · subst hk
    simp [ho]
  · simp [hk]

/-- Filing an item under a key that has none yet leaves the index covering it as well. -/
theorem covers_file {ix : Index α} {items : SortedMap String α} {key : String}
    (h : ix.Covers items) (hn : items.get? key = none) (a : α) :
    (ix.file key a).Covers (items.insert key a) := by
  intro w k
  rw [files_file, values_file, h w k]
  by_cases hk : k = key
  · subst hk
    simp [hn]
  · simp [hk]

/-- An item that replaces another one under its key: the old one is taken out first. -/
theorem covers_refile {ix : Index α} {items : SortedMap String α} {key : String} {o : α}
    (h : ix.Covers items) (ho : items.get? key = some o) (a : α) :
    ((ix.unfile key o).file key a).Covers (items.insert key a) := by
  have he : (items.erase key).insert key a = items.insert key a := by
    refine SortedMap.ext_get? fun k => ?_
    by_cases hk : k = key
    · rw [hk, SortedMap.get?_insert_self, SortedMap.get?_insert_self]
    · rw [SortedMap.get?_insert_of_ne hk, SortedMap.get?_insert_of_ne hk,
        SortedMap.get?_erase_of_ne hk]
  -- taken out and filed again, as if the key had been free
  rw [← he]
  exact covers_file (covers_unfile h ho) (SortedMap.get?_erase_self items key) a

theorem values_build (values : α → List String) (entries : List (String × α)) :
    (build values entries).values = values := by
  suffices h : ∀ ix : Index α,
      (entries.foldl (fun ix e => ix.file e.1 e.2) ix).values = ix.values from h _
  induction entries with
  | nil => intro ix; rfl
  | cons e es ih => intro ix; rw [List.foldl_cons, ih, values_file]

theorem files_foldl_file (entries : List (String × α)) :
    ∀ (ix : Index α) (w k : String),
      (entries.foldl (fun ix e => ix.file e.1 e.2) ix).Files w k ↔
        (∃ a, (k, a) ∈ entries ∧ w ∈ ix.values a) ∨ ix.Files w k := by
  induction entries with
  | nil => intro ix w k; simp
  | cons e es ih =>
    intro ix w k
    rw [List.foldl_cons, ih, files_file, values_file]
    simp only [List.mem_cons, Prod.ext_iff]
    grind

/-- An index that is built over a map covers it. -/
theorem covers_build (values : α → List String) (items : SortedMap String α) :
    (build values items.entries).Covers items := by
  intro w k
  have hempty : ¬(⟨values, ∅⟩ : Index α).Files w k := by
    simp [Files, bucket]
  rw [values_build]
  unfold build
  rw [files_foldl_file]
  simp only [hempty, or_false, SortedMap.mem_entries_iff]

end InformerHub.Index
