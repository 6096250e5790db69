/-!
# Maps in key order

A finite map as the list of its entries with strictly increasing keys.  The order is part of the
type, so two maps with the same look-ups are equal (`ext_get?`), and listing a map needs no
sorting.  Each operation is pinned down by what it does to a look-up: `get?_insert`, `get?_erase`.
-/

namespace InformerHub

variable {κ ν : Type}

/-- A map whose entries stand in strictly increasing order of their keys. -/
structure SortedMap (κ ν : Type) [Ord κ] where
  entries : List (κ × ν)
  increasing : entries.Pairwise fun a b => compare a.1 b.1 = .lt

namespace SortedMap

section Entries

variable [Ord κ]

/-- The value of a key in a list of entries. -/
def lookup (k : κ) : List (κ × ν) → Option ν
  | [] => none
  | (k', v) :: r => if compare k k' = .eq then some v else lookup k r

/-- Puts an entry into its place, over one with an equal key. -/
def insertEntry (k : κ) (v : ν) : List (κ × ν) → List (κ × ν)
  | [] => [(k, v)]
  | (k', v') :: r =>
    match compare k k' with
    | .lt => (k, v) :: (k', v') :: r
    | .eq => (k, v) :: r
    | .gt => (k', v') :: insertEntry k v r

/-- Drops the entries of a key. -/
def eraseEntry (k : κ) (l : List (κ × ν)) : List (κ × ν) :=
  l.filter fun e => compare k e.1 != .eq

theorem mem_insertEntry {k : κ} {v : ν} {l : List (κ × ν)} {e : κ × ν}
    (h : e ∈ insertEntry k v l) : e = (k, v) ∨ e ∈ l := by
  induction l with
  | nil => simpa [insertEntry] using h
  | cons hd tl ih =>
    obtain ⟨k', v'⟩ := hd
    simp only [insertEntry] at h
    split at h
    · simpa using h
    · rcases List.mem_cons.1 h with h | h
      · exact .inl h
      · exact .inr (List.mem_cons_of_mem _ h)
    · rcases List.mem_cons.1 h with h | h
      · exact .inr (h ▸ List.mem_cons_self ..)
      · exact (ih h).imp_right (List.mem_cons_of_mem _)

theorem insertEntry_increasing [Std.TransOrd κ] [Std.LawfulEqOrd κ] (k : κ) (v : ν)
    {l : List (κ × ν)} (h : l.Pairwise fun a b => compare a.1 b.1 = .lt) :
    (insertEntry k v l).Pairwise fun a b => compare a.1 b.1 = .lt := by
  induction l with
  | nil => simp [insertEntry]
  | cons hd tl ih =>
    obtain ⟨k', v'⟩ := hd
    have hlt := (List.pairwise_cons.1 h).1
    have htl := (List.pairwise_cons.1 h).2
    simp only [insertEntry]
    split
    case h_1 hc =>
      refine List.pairwise_cons.2 ⟨fun e he => ?_, h⟩
      rcases List.mem_cons.1 he with rfl | he
      · exact hc
      · exact Std.TransCmp.lt_trans hc (hlt e he)
    case h_2 hc =>
      have : k = k' := Std.LawfulEqCmp.eq_of_compare hc
      exact List.pairwise_cons.2 ⟨fun e he => this ▸ hlt e he, htl⟩
    case h_3 hc =>
      refine List.pairwise_cons.2 ⟨fun e he => ?_, ih htl⟩
      rcases mem_insertEntry he with rfl | he
      · exact Std.OrientedCmp.lt_of_gt hc
      · exact hlt e he

theorem lookup_insertEntry [Std.TransOrd κ] [Std.LawfulEqOrd κ] (k k' : κ) (v : ν)
    (l : List (κ × ν)) :
    lookup k' (insertEntry k v l) = if compare k' k = .eq then some v else lookup k' l := by
  induction l with
  | nil => simp [insertEntry, lookup]
  | cons hd tl ih =>
    obtain ⟨k₁, v₁⟩ := hd
    simp only [insertEntry]
    split
    case h_1 => simp [lookup]
    case h_2 hc =>
      have : k = k₁ := Std.LawfulEqCmp.eq_of_compare hc
      subst this
      by_cases h : compare k' k = .eq <;> simp [lookup, h]
    case h_3 hc =>
      by_cases h : compare k' k₁ = .eq
      · have : k' = k₁ := Std.LawfulEqCmp.eq_of_compare h
        subst this
        have hne : compare k' k ≠ .eq := by
          rw [Std.OrientedCmp.lt_of_gt hc]; decide
        simp [lookup, hne]
      · simp [lookup, h, ih]

theorem lookup_eq_none_of_forall_lt [Std.TransOrd κ] {k : κ} {l : List (κ × ν)}
    (h : ∀ e ∈ l, compare k e.1 = .lt) : lookup k l = none := by
  induction l with
  | nil => rfl
  | cons hd tl ih =>
    have hhd := h hd (List.mem_cons_self ..)
    simp [lookup, hhd, ih fun e he => h e (List.mem_cons_of_mem _ he)]

theorem lookup_eraseEntry [Std.LawfulEqOrd κ] [Std.TransOrd κ] (k k' : κ) (l : List (κ × ν)) :
    lookup k' (eraseEntry k l) = if compare k' k = .eq then none else lookup k' l := by
  induction l with
  | nil => simp [eraseEntry, lookup]
  | cons hd tl ih =>
    obtain ⟨k₁, v₁⟩ := hd
    simp only [eraseEntry] at ih ⊢
    by_cases h : compare k k₁ = .eq
    · have : k = k₁ := Std.LawfulEqCmp.eq_of_compare h
      subst this
      by_cases h' : compare k' k = .eq <;> simp_all [lookup]
    · by_cases h' : compare k' k₁ = .eq
      · have : k' = k₁ := Std.LawfulEqCmp.eq_of_compare h'
        subst this
        have hne : compare k' k ≠ .eq := fun he => h (Std.OrientedCmp.eq_symm he)
        simp [h, lookup, hne]
      · simp [h, lookup, h', ih]

theorem compare_self_ne_lt [Std.TransOrd κ] (k : κ) : compare k k ≠ .lt := by
  have h : compare k k = .eq := Std.ReflCmp.compare_self
  rw [h]
  decide

theorem mem_iff_lookup [Std.LawfulEqOrd κ] [Std.TransOrd κ] {l : List (κ × ν)}
    (h : l.Pairwise fun a b => compare a.1 b.1 = .lt) {k : κ} {v : ν} :
    (k, v) ∈ l ↔ lookup k l = some v := by
  induction l with
  | nil => simp [lookup]
  | cons hd tl ih =>
    obtain ⟨k', v'⟩ := hd
    have hlt := (List.pairwise_cons.1 h).1
    by_cases hc : compare k k' = .eq
    · have : k = k' := Std.LawfulEqCmp.eq_of_compare hc
      subst this
      have hnot : (k, v) ∉ tl := fun hm => compare_self_ne_lt k (hlt _ hm)
      simp [lookup, hnot, eq_comm]
    · have hne : k ≠ k' := fun e => hc (e ▸ Std.ReflCmp.compare_self)
      simp [lookup, hc, hne, ih (List.pairwise_cons.1 h).2]

theorem eq_of_lookup_eq [Std.LawfulEqOrd κ] [Std.TransOrd κ] {l₁ l₂ : List (κ × ν)}
    (h₁ : l₁.Pairwise fun a b => compare a.1 b.1 = .lt)
    (h₂ : l₂.Pairwise fun a b => compare a.1 b.1 = .lt)
    (h : ∀ k, lookup k l₁ = lookup k l₂) : l₁ = l₂ := by
  induction l₁ generalizing l₂ with
  | nil =>
    cases l₂ with
    | nil => rfl
    | cons hd tl =>
      have := h hd.1
      simp [lookup] at this
  | cons a r ih =>
    obtain ⟨ka, va⟩ := a
    cases l₂ with
    | nil =>
      have := h ka
      simp [lookup] at this
    | cons b s =>
      obtain ⟨kb, vb⟩ := b
      have hr := List.pairwise_cons.1 h₁
      have hs := List.pairwise_cons.1 h₂
      -- the least key of either list is found in both, so the heads agree
      have hkeys : ka = kb := by
        have ha : (ka, va) ∈ (kb, vb) :: s :=
          (mem_iff_lookup h₂).2
            (by rw [← h ka]; exact (mem_iff_lookup h₁).1 (List.mem_cons_self ..))
        have hb : (kb, vb) ∈ (ka, va) :: r :=
          (mem_iff_lookup h₁).2
            (by rw [h kb]; exact (mem_iff_lookup h₂).1 (List.mem_cons_self ..))
        rcases List.mem_cons.1 ha with e | ha
        · exact congrArg Prod.fst e
        · rcases List.mem_cons.1 hb with e | hb
          · exact (congrArg Prod.fst e).symm
          · have h1 := hs.1 _ ha
            have h2 := hr.1 _ hb
            exact absurd (Std.TransCmp.lt_trans h1 h2) (compare_self_ne_lt _)
      subst hkeys
      have hval : va = vb := by
        have := h ka
        simpa [lookup] using this
      subst hval
      have htail : ∀ k, lookup k r = lookup k s := by
        intro k
        by_cases hk : compare k ka = .eq
        · have : k = ka := Std.LawfulEqCmp.eq_of_compare hk
          subst this
          rw [lookup_eq_none_of_forall_lt hr.1, lookup_eq_none_of_forall_lt hs.1]
        · simpa [lookup, hk] using h k
      rw [ih hr.2 hs.2 htail]

end Entries

variable [Ord κ]

def empty : SortedMap κ ν := ⟨[], List.Pairwise.nil⟩

instance : EmptyCollection (SortedMap κ ν) := ⟨empty⟩

instance : Inhabited (SortedMap κ ν) := ⟨empty⟩

/-- The value of a key. -/
def get? (m : SortedMap κ ν) (k : κ) : Option ν := lookup k m.entries

def contains (m : SortedMap κ ν) (k : κ) : Bool := (m.get? k).isSome

/-- The keys in increasing order. -/
def keys (m : SortedMap κ ν) : List κ := m.entries.map Prod.fst

/-- The values in the order of their keys. -/
def values (m : SortedMap κ ν) : List ν := m.entries.map Prod.snd

def size (m : SortedMap κ ν) : Nat := m.entries.length

def isEmpty (m : SortedMap κ ν) : Bool := m.entries.isEmpty

/-- Drops a key. -/
def erase (m : SortedMap κ ν) (k : κ) : SortedMap κ ν :=
  ⟨eraseEntry k m.entries, m.increasing.filter _⟩

/-- The entries whose key and value pass a test. -/
def filter (p : κ → ν → Bool) (m : SortedMap κ ν) : SortedMap κ ν :=
  ⟨m.entries.filter fun e => p e.1 e.2, m.increasing.filter _⟩

/-- The map with every value changed by a function of its key. -/
def mapValues {ω : Type} (f : κ → ν → ω) (m : SortedMap κ ν) : SortedMap κ ω :=
  ⟨m.entries.map fun e => (e.1, f e.1 e.2), by
    simpa [List.pairwise_map] using m.increasing⟩

@[simp] theorem get?_empty (k : κ) : (∅ : SortedMap κ ν).get? k = none := rfl

variable [Std.TransOrd κ] [Std.LawfulEqOrd κ]

/-- Puts a value under a key, in place of the old one. -/
def insert (m : SortedMap κ ν) (k : κ) (v : ν) : SortedMap κ ν :=
  ⟨insertEntry k v m.entries, insertEntry_increasing k v m.increasing⟩

/-- The map of a list of entries, where a later entry replaces an earlier one of its key. -/
def ofList (l : List (κ × ν)) : SortedMap κ ν := l.foldl (fun m e => m.insert e.1 e.2) ∅

@[simp] theorem get?_insert (m : SortedMap κ ν) (k k' : κ) (v : ν) :
    (m.insert k v).get? k' = if compare k' k = .eq then some v else m.get? k' :=
  lookup_insertEntry k k' v m.entries

@[simp] theorem get?_erase (m : SortedMap κ ν) (k k' : κ) :
    (m.erase k).get? k' = if compare k' k = .eq then none else m.get? k' :=
  lookup_eraseEntry k k' m.entries

theorem mem_entries_iff {m : SortedMap κ ν} {k : κ} {v : ν} :
    (k, v) ∈ m.entries ↔ m.get? k = some v :=
  mem_iff_lookup m.increasing

/-- A map is what its look-ups say. -/
theorem ext_get? {m₁ m₂ : SortedMap κ ν} (h : ∀ k, m₁.get? k = m₂.get? k) : m₁ = m₂ := by
  have := eq_of_lookup_eq m₁.increasing m₂.increasing h
  cases m₁
  cases m₂
  simpa using this

end SortedMap

end InformerHub
