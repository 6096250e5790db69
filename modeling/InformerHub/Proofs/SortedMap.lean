import InformerHub.SortedMap

/-!
# More about maps in key order

What a filtered map and a map with changed values look up, which keys a map has, and how its
values follow from them.  Together with `ext_get?` this lets a set of keys be recognised as the
keys of a filtered map (`filterMap_get?_keys_filter`), which is how an index answers.

A list that is only ordered by a key may have a key several times.  It is told by what it has for
each key (`eq_of_filter_eq`).
-/

namespace InformerHub.SortedMap

variable {κ ν ω : Type} [Ord κ]

/-! ## Looking up, key by key -/

section Lookup

variable [Std.TransOrd κ] [Std.LawfulEqOrd κ]

theorem get?_insert_self (m : SortedMap κ ν) (k : κ) (v : ν) : (m.insert k v).get? k = some v := by
  rw [get?_insert, if_pos Std.ReflCmp.compare_self]

theorem get?_insert_of_ne {k k' : κ} (h : k' ≠ k) (m : SortedMap κ ν) (v : ν) :
    (m.insert k v).get? k' = m.get? k' := by
  rw [get?_insert, if_neg fun e => h (Std.LawfulEqCmp.eq_of_compare e)]

theorem get?_erase_self (m : SortedMap κ ν) (k : κ) : (m.erase k).get? k = none := by
  rw [get?_erase, if_pos Std.ReflCmp.compare_self]

theorem get?_erase_of_ne {k k' : κ} (h : k' ≠ k) (m : SortedMap κ ν) :
    (m.erase k).get? k' = m.get? k' := by
  rw [get?_erase, if_neg fun e => h (Std.LawfulEqCmp.eq_of_compare e)]

theorem insert_ne_empty (m : SortedMap κ ν) (k : κ) (v : ν) : m.insert k v ≠ ∅ := by
  intro he
  have hk := get?_insert_self m k v
  rw [he, get?_empty] at hk
  exact Option.some_ne_none v hk.symm

/-- A write that what was there already says changes nothing. -/
theorem insert_eq_self {m : SortedMap κ ν} {k : κ} {v : ν} (h : m.get? k = some v) :
    m.insert k v = m := by
  refine ext_get? fun k' => ?_
  by_cases hk : k' = k
  · subst hk
    rw [get?_insert_self, h]
  · rw [get?_insert_of_ne hk]

theorem erase_eq_self {m : SortedMap κ ν} {k : κ} (h : m.get? k = none) : m.erase k = m := by
  refine ext_get? fun k' => ?_
  by_cases hk : k' = k
  · subst hk
    rw [get?_erase_self, h]
  · rw [get?_erase_of_ne hk]

end Lookup

/-! ## What needs no order -/

theorem keys_increasing (m : SortedMap κ ν) : m.keys.Pairwise fun a b => compare a b = .lt :=
  List.pairwise_map.mpr m.increasing

theorem eq_empty_of_isEmpty {m : SortedMap κ ν} (h : m.isEmpty = true) : m = ∅ := by
  obtain ⟨entries, _⟩ := m
  have he : entries = [] := List.isEmpty_iff.mp h
  subst he
  rfl

theorem mem_values_of_erase {m : SortedMap κ ν} {k : κ} {w : ν} (h : w ∈ (m.erase k).values) :
    w ∈ m.values :=
  (List.filter_sublist.map Prod.snd).subset h

/-- Dropping a key adds no value. -/
theorem countP_values_erase (p : ν → Bool) (m : SortedMap κ ν) (k : κ) :
    (m.erase k).values.countP p ≤ m.values.countP p :=
  (List.filter_sublist.map Prod.snd).countP_le

/-! ## Changed values and filters -/

theorem lookup_map_values (f : κ → ν → ω) [Std.LawfulEqOrd κ] (k : κ) (l : List (κ × ν)) :
    lookup k (l.map fun e => (e.1, f e.1 e.2)) = (lookup k l).map (f k) := by
  induction l with
  | nil => rfl
  | cons hd tl ih =>
    by_cases h : compare k hd.1 = .eq
    · have hk : k = hd.1 := Std.LawfulEqCmp.eq_of_compare h
      simp [lookup, ← hk]
    · simp [lookup, h, ih]

theorem get?_mapValues [Std.LawfulEqOrd κ] (f : κ → ν → ω) (m : SortedMap κ ν) (k : κ) :
    (m.mapValues f).get? k = (m.get? k).map (f k) :=
  lookup_map_values f k m.entries

theorem keys_mapValues (f : κ → ν → ω) (m : SortedMap κ ν) : (m.mapValues f).keys = m.keys := by
  simp [keys, mapValues]

/-- What is picked from a map has each key once. -/
theorem nodup_filterMap [Std.TransOrd κ] (m : SortedMap κ ν) {pick : κ × ν → Option (κ × ω)}
    (h : ∀ e x, pick e = some x → x.1 = e.1) :
    ((m.entries.filterMap pick).map Prod.fst).Nodup := by
  unfold List.Nodup
  rw [List.pairwise_map, List.pairwise_filterMap]
  refine m.increasing.imp fun {a b} hab x hx y hy => ?_
  rw [h a x hx, h b y hy]
  intro heq
  rw [heq] at hab
  exact compare_self_ne_lt b.1 hab

variable [Std.TransOrd κ] [Std.LawfulEqOrd κ]

theorem get?_filter (p : κ → ν → Bool) (m : SortedMap κ ν) (k : κ) :
    (m.filter p).get? k = (m.get? k).filter (p k) := by
  refine Option.ext fun v => ?_
  rw [← mem_entries_iff, Option.filter_eq_some_iff, ← mem_entries_iff]
  exact List.mem_filter

/-! ## Keys and values -/

theorem mem_keys_iff {m : SortedMap κ ν} {k : κ} : k ∈ m.keys ↔ ∃ v, m.get? k = some v := by
  rw [keys, List.mem_map]
  constructor
  · rintro ⟨⟨k', v⟩, he, rfl⟩
    exact ⟨v, mem_entries_iff.mp he⟩
  · rintro ⟨v, hv⟩
    exact ⟨(k, v), mem_entries_iff.mpr hv, rfl⟩

theorem mem_keys_insert {m : SortedMap κ ν} {k k' : κ} {v : ν} :
    k' ∈ (m.insert k v).keys ↔ k' = k ∨ k' ∈ m.keys := by
  rw [mem_keys_iff, mem_keys_iff]
  by_cases hk : k' = k
  · subst hk
    simp
  · simp [get?_insert_of_ne hk, hk]

theorem mem_keys_erase {m : SortedMap κ ν} {k k' : κ} :
    k' ∈ (m.erase k).keys ↔ k' ∈ m.keys ∧ k' ≠ k := by
  rw [mem_keys_iff, mem_keys_iff]
  by_cases hk : k' = k
  · subst hk
    simp
  · simp [get?_erase_of_ne hk, hk]

theorem mem_values_iff {m : SortedMap κ ν} {v : ν} : v ∈ m.values ↔ ∃ k, m.get? k = some v := by
  rw [values, List.mem_map]
  constructor
  · rintro ⟨⟨k, v'⟩, he, rfl⟩
    exact ⟨k, mem_entries_iff.mp he⟩
  · rintro ⟨k, hk⟩
    exact ⟨(k, v), mem_entries_iff.mpr hk, rfl⟩

theorem mem_values_of_insert {m : SortedMap κ ν} {k : κ} {v w : ν} (h : w ∈ (m.insert k v).values) :
    w ∈ m.values ∨ w = v := by
  obtain ⟨k', hk'⟩ := mem_values_iff.mp h
  by_cases hk : k' = k
  · rw [hk, get?_insert_self] at hk'
    exact Or.inr (Option.some.inj hk').symm
  · rw [get?_insert_of_ne hk] at hk'
    exact Or.inl (mem_values_iff.mpr ⟨k', hk'⟩)

/-- Looking up a part of the entries' keys gives the values of that part. -/
theorem filterMap_get?_fst {m : SortedMap κ ν} {l : List (κ × ν)} (h : ∀ e ∈ l, e ∈ m.entries) :
    (l.map Prod.fst).filterMap m.get? = l.map Prod.snd := by
  induction l with
  | nil => rfl
  | cons e l ih =>
    have he : m.get? e.1 = some e.2 := mem_entries_iff.mp (h e (List.mem_cons_self ..))
    rw [List.map_cons, List.map_cons, List.filterMap_cons_some he,
      ih fun e' he' => h e' (List.mem_cons_of_mem _ he')]

/-- Looking up the keys of a filtered map in the whole one gives the values that pass. -/
theorem filterMap_get?_keys_filter (p : ν → Bool) (m : SortedMap κ ν) :
    (m.filter fun _ v => p v).keys.filterMap m.get? = m.values.filter p := by
  have hv : (m.entries.filter fun e => p e.2).map Prod.snd = m.values.filter p := by
    rw [values, List.filter_map]
    rfl
  rw [← hv]
  exact filterMap_get?_fst fun _ h => (List.mem_filter.mp h).1

/-! ## Counting values -/

/-- A write adds at most its own value. -/
theorem countP_values_insert (p : ν → Bool) (m : SortedMap κ ν) (k : κ) (v : ν) :
    (m.insert k v).values.countP p ≤ m.values.countP p + if p v then 1 else 0 := by
  have step : ∀ l : List (κ × ν), ((insertEntry k v l).map Prod.snd).countP p ≤
      (l.map Prod.snd).countP p + if p v then 1 else 0 := by
    intro l
    induction l with
    | nil => simp [insertEntry, List.countP_cons]
    | cons hd tl ih =>
      -- before the first entry, in its place, or somewhere behind it
      simp only [insertEntry]
      split <;> simp only [List.map_cons, List.countP_cons] <;> omega
  exact step m.entries

end InformerHub.SortedMap

/-! ## Lists in the order of a key -/

namespace InformerHub

/-- Lists that are ordered by a key are equal if they have the same for each key. -/
theorem eq_of_filter_eq {β κ : Type} [LE κ] [Std.IsPartialOrder κ] [BEq κ] [LawfulBEq κ]
    (key : β → κ) : ∀ {l l' : List β},
    (l.Pairwise fun x y => key x ≤ key y) → (l'.Pairwise fun x y => key x ≤ key y) →
    (∀ k, l.filter (fun x => key x == k) = l'.filter fun x => key x == k) → l = l'
  | [], l', _, _, h => by
    cases l' with
    | nil => rfl
    | cons y l' => exact absurd (h (key y)) (by simp)
  | x :: l, [], _, _, h => absurd (h (key x)) (by simp)
  | x :: l, y :: l', hl, hl', h => by
    obtain ⟨hx, htail⟩ := List.pairwise_cons.mp hl
    obtain ⟨hy, htail'⟩ := List.pairwise_cons.mp hl'
    -- each of the two least keys occurs in the other list as well
    have hxy : key x ≤ key y := by
      have hmem : y ∈ (x :: l).filter fun z => key z == key y := by
        rw [h (key y)]
        exact List.mem_filter.mpr ⟨List.mem_cons_self, beq_self_eq_true _⟩
      rcases List.mem_cons.mp (List.mem_filter.mp hmem).1 with rfl | hmem
      · exact Std.le_refl _
      · exact hx y hmem
    have hyx : key y ≤ key x := by
      have hmem : x ∈ (y :: l').filter fun z => key z == key x := by
        rw [← h (key x)]
        exact List.mem_filter.mpr ⟨List.mem_cons_self, beq_self_eq_true _⟩
      rcases List.mem_cons.mp (List.mem_filter.mp hmem).1 with rfl | hmem
      · exact Std.le_refl _
      · exact hy x hmem
    have hk : key x = key y := Std.le_antisymm hxy hyx
    have hhead := h (key x)
    simp only [List.filter_cons, ← hk, beq_self_eq_true, if_true] at hhead
    obtain ⟨rfl, hsame⟩ := List.cons.inj hhead
    refine congrArg (x :: ·) (eq_of_filter_eq key htail htail' fun k => ?_)
    by_cases hxk : key x = k
    · rw [← hxk]
      exact hsame
    · have hrest := h k
      simp only [List.filter_cons, beq_eq_false_iff_ne.mpr hxk] at hrest
      exact hrest

end InformerHub
