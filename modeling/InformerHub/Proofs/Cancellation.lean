import Mathlib.Logic.Relation
import InformerHub.Cancellation

/-!
# Which tokens are cancelled

Tokens are made, below others or not, cancelled, and given up when nobody holds them any more.
`Tokens` is a run of all that; it remembers below which token each one was made, and which ones
were cancelled by name.

> A token that somebody holds is cancelled exactly if it or one that it descends from was cancelled
> by name (`isCancelled_iff`).

A token that was given up is no longer linked to the others: its children hang below its parent.  So
the links are not those by which the tokens were made, but they lead from every token that is held
and not cancelled to all tokens held that it descends from (`Sound.linked`).  Cancelling a token
marks what the links lead down to (`mem_reached_iff`); as a link leads from a lower number to a
higher one, there are no more levels than tokens.
-/

namespace InformerHub

namespace Cancellation

variable {c : Cancellation} {t u : Nat}

/-! ## One token -/

theorem node_eq (c : Cancellation) (u : Nat) : c.node u = c.nodes[u]?.getD default :=
  Array.getD_eq_getD_getElem?

theorem node_update (c : Cancellation) (t : Nat) (f : CancelNode → CancelNode) (u : Nat) :
    (c.update t f).node u = if u = t ∧ u < c.nodes.size then f (c.node u) else c.node u := by
  unfold update
  rw [node_eq, node_eq, Array.getElem?_modify]
  by_cases hu : t = u
  · subst hu
    by_cases hlt : t < c.nodes.size
    · simp [hlt]
    · simp [hlt]
  · rw [if_neg hu, if_neg fun h => hu h.1.symm]

theorem node_push (c : Cancellation) (n : CancelNode) (u : Nat) :
    (⟨c.nodes.push n⟩ : Cancellation).node u = if u = c.nodes.size then n else c.node u := by
  rw [node_eq, node_eq, Array.getElem?_push]
  split <;> rfl

@[simp] theorem size_update (c : Cancellation) (t : Nat) (f : CancelNode → CancelNode) :
    (c.update t f).nodes.size = c.nodes.size :=
  Array.size_modify

@[simp] theorem size_adopt (parent : Option Nat) (ts : List Nat) : ∀ c : Cancellation,
    (c.adopt parent ts).nodes.size = c.nodes.size := by
  induction ts with
  | nil => exact fun _ => rfl
  | cons t ts ih => exact fun c => (ih _).trans (size_update c t _)

theorem node_adopt (parent : Option Nat) (ts : List Nat) (u : Nat) : ∀ c : Cancellation,
    (c.adopt parent ts).node u =
      if u ∈ ts ∧ u < c.nodes.size then { c.node u with parent } else c.node u := by
  induction ts with
  | nil => exact fun c => (if_neg fun h => absurd h.1 List.not_mem_nil).symm
  | cons t ts ih =>
    intro c
    have hstep : c.adopt parent (t :: ts) =
      (c.update t fun n => { n with parent }).adopt parent ts := rfl
    rw [hstep, ih, node_update, size_update]
    by_cases ht : u = t
    · subst ht
      by_cases hlt : u < c.nodes.size
      · simp only [hlt, and_self, if_true, and_true, List.mem_cons_self]
        split <;> rfl
      · simp [hlt]
    · simp [ht]

/-- There is nothing to say of a token that was not made. -/
theorem node_of_le (h : c.nodes.size ≤ u) : c.node u = default := by
  rw [node_eq, Array.getElem?_eq_none h]
  rfl

theorem parent_default : (default : CancelNode).parent = none := rfl

theorem lt_size_of_parent {p : Nat} (h : (c.node u).parent = some p) : u < c.nodes.size := by
  refine Nat.lt_of_not_le fun hle => ?_
  rw [node_of_le hle, parent_default] at h
  exact absurd h (by simp)

theorem lt_size_of_child {p : Nat} (h : u ∈ (c.node p).children) : p < c.nodes.size := by
  refine Nat.lt_of_not_le fun hle => ?_
  rw [node_of_le hle] at h
  exact absurd h List.not_mem_nil

/-! ## One token is marked -/

@[simp] theorem size_mark (c : Cancellation) (t : Nat) : (c.mark t).nodes.size = c.nodes.size := by
  unfold mark
  rw [size_update, size_adopt]

theorem node_mark (hu : u < c.nodes.size) (t : Nat) : (c.mark t).node u =
    { cancelled := c.isCancelled u || decide (u = t)
      parent := if u ∈ (c.node t).children then none else (c.node u).parent
      children := if u = t then [] else (c.node u).children } := by
  unfold mark isCancelled
  rw [node_update, size_adopt, node_adopt]
  by_cases ht : u = t <;> by_cases hc : u ∈ (c.node t).children <;> simp [hu, ht, hc]
  · simp_all
  · simp_all

theorem isCancelled_mark (hu : u < c.nodes.size) (t : Nat) :
    (c.mark t).isCancelled u = (c.isCancelled u || decide (u = t)) := by
  unfold isCancelled
  rw [node_mark hu]
  rfl

/-! ## One token is given up -/

theorem mem_of_mem_swapRemove {ts : List Nat} (h : u ∈ swapRemove t ts) : u ∈ ts := by
  unfold swapRemove at h
  split at h
  next =>
    split at h
    next last hlast =>
      have hl : last ∈ ts := List.mem_of_getLast? hlast
      split at h
      next => exact (List.dropLast_sublist ts).subset h
      next =>
        obtain ⟨v, hv, rfl⟩ := List.mem_map.mp h
        split
        next => exact hl
        next => exact (List.dropLast_sublist ts).subset hv
    next => exact absurd h List.not_mem_nil
  next => exact h

/-- Only the token itself is removed. -/
theorem mem_swapRemove {ts : List Nat} (h : u ∈ ts) (hne : u ≠ t) : u ∈ swapRemove t ts := by
  unfold swapRemove
  split
  next ht =>
    have ht : t ∈ ts := List.contains_iff_mem.mp ht
    split
    next last hlast =>
      have hsplit : ∀ v ∈ ts, v = last ∨ v ∈ ts.dropLast := by
        intro v hv
        obtain ⟨front, rfl⟩ := List.getLast?_eq_some_iff.mp hlast
        rcases List.mem_append.mp hv with hfront | hend
        · exact Or.inr (by simpa using hfront)
        · exact Or.inl (List.mem_singleton.mp hend)
      split
      next heq =>
        rcases hsplit u h with hu | hu
        · exact absurd (hu.trans heq) hne
        · exact hu
      next hlt =>
        -- the last one stands where the token stood
        rcases hsplit u h with rfl | hu
        · rcases hsplit t ht with rfl | hfront
          · exact absurd rfl hlt
          · exact List.mem_map.mpr ⟨t, hfront, if_pos rfl⟩
        · exact List.mem_map.mpr ⟨u, hu, if_neg hne⟩
    next hnone =>
      rw [List.getLast?_eq_none_iff.mp hnone] at h
      exact absurd h List.not_mem_nil
  next => exact h

@[simp] theorem size_release (c : Cancellation) (t : Nat) :
    (c.release t).nodes.size = c.nodes.size := by
  unfold release
  dsimp only
  split <;> simp

theorem node_release (hu : u < c.nodes.size) (t : Nat) : (c.release t).node u =
    { cancelled := c.isCancelled u
      parent := if u = t then none else if u ∈ (c.node t).children then (c.node t).parent
        else (c.node u).parent
      children := if u = t then [] else if (c.node t).parent = some u then
        swapRemove t ((c.node u).children ++ (c.node t).children) else (c.node u).children } := by
  unfold release isCancelled
  dsimp only
  rw [node_update]
  by_cases ht : u = t
  · subst ht
    split
    next =>
      simp [hu, node_update, node_adopt]
      split <;> rfl
    next => simp [hu, node_adopt]
  · rw [if_neg fun h => ht h.1, if_neg ht, if_neg ht]
    split
    next p hp =>
      rw [node_update, size_adopt, node_adopt]
      by_cases hup : p = u
      · subst hup
        by_cases hc : p ∈ (c.node t).children <;> simp [hu, hc, hp]
      · have hpu : u ≠ p := fun h => hup h.symm
        by_cases hc : u ∈ (c.node t).children <;> simp [hu, hup, hpu, hc, hp]
    next hp =>
      rw [node_adopt]
      by_cases hc : u ∈ (c.node t).children <;> simp [hu, hc, hp]

/-- Whoever hangs below a token once `t` is given up hung there before, or below `t`. -/
theorem mem_children_of_release {p : Nat} (hu : u ∈ ((c.release t).node p).children) : p ≠ t ∧
    (u ∈ (c.node p).children ∨ (c.node t).parent = some p ∧ u ∈ (c.node t).children) := by
  have hp : p < c.nodes.size := size_release c t ▸ lt_size_of_child hu
  rw [node_release hp] at hu
  dsimp only at hu
  split at hu
  next => exact absurd hu List.not_mem_nil
  next hne =>
    refine ⟨hne, ?_⟩
    split at hu
    next hp =>
      rcases List.mem_append.mp (mem_of_mem_swapRemove hu) with hu | hu
      · exact Or.inl hu
      · exact Or.inr ⟨hp, hu⟩
    next => exact Or.inl hu

theorem mem_children_release {p : Nat} (hp : p < c.nodes.size) (hpt : p ≠ t) (hut : u ≠ t)
    (hu : u ∈ (c.node p).children ∨ (c.node t).parent = some p ∧ u ∈ (c.node t).children) :
    u ∈ ((c.release t).node p).children := by
  rw [node_release hp]
  dsimp only
  rw [if_neg hpt]
  split
  next =>
    refine mem_swapRemove ?_ hut
    rcases hu with hu | ⟨-, hu⟩
    · exact List.mem_append_left _ hu
    · exact List.mem_append_right _ hu
  next hno => exact hu.resolve_right fun h => hno h.1

/-! ## What a token takes with it -/

/-- A link that the cancelling of a token goes down. -/
def Link (c : Cancellation) (p u : Nat) : Prop :=
  u ∈ (c.node p).children ∧ c.isCancelled u = false

theorem mem_heirs_iff : u ∈ c.heirs t ↔ c.Link t u := by
  have hmem : u ∈ (c.node t).children.filter (fun v => !c.isCancelled v) ↔ c.Link t u := by
    rw [List.mem_filter, Link, Bool.not_eq_true']
  unfold heirs
  dsimp only
  rw [← hmem]
  split
  next last hlast =>
    obtain ⟨front, hfront⟩ := List.getLast?_eq_some_iff.mp hlast
    rw [hfront, List.dropLast_concat, List.mem_cons, List.mem_append, List.mem_singleton]
    exact or_comm
  next hnone => rw [List.getLast?_eq_none_iff.mp hnone]

/-- What is below some tokens is linked to one of them. -/
theorem linked_of_mem_below (n : Nat) : ∀ {ts : List Nat}, u ∈ c.below n ts →
    ∃ t ∈ ts, Relation.ReflTransGen c.Link t u := by
  induction n with
  | zero => exact fun h => absurd h List.not_mem_nil
  | succ n ih =>
    intro ts h
    have hlevel : ∀ v ∈ ts.flatMap c.heirs, ∃ t ∈ ts, c.Link t v := by
      intro v hv
      obtain ⟨t, ht, hheir⟩ := List.mem_flatMap.mp hv
      exact ⟨t, ht, mem_heirs_iff.mp hheir⟩
    unfold below at h
    split at h
    next => exact absurd h List.not_mem_nil
    next =>
      rcases List.mem_append.mp h with hfirst | hlater
      · obtain ⟨t, ht, hlink⟩ := hlevel u hfirst
        exact ⟨t, ht, .single hlink⟩
      · obtain ⟨v, hv, hpath⟩ := ih hlater
        obtain ⟨t, ht, hlink⟩ := hlevel v hv
        exact ⟨t, ht, hpath.head hlink⟩

/-- Where links go to higher numbers, `n` levels reach all that is at most `n` above. -/
theorem mem_below_of_linked (hup : ∀ p v, c.Link p v → p < v) (n : Nat) :
    ∀ {ts : List Nat} {t : Nat}, t ∈ ts → Relation.TransGen c.Link t u → u ≤ t + n →
      u ∈ c.below n ts := by
  have hlt : ∀ {t u : Nat}, Relation.TransGen c.Link t u → t < u := by
    intro t u h
    induction h with
    | single h => exact hup _ _ h
    | tail _ h ih => exact Nat.lt_trans ih (hup _ _ h)
  induction n with
  | zero =>
    intro ts t _ hpath hle
    have := hlt hpath
    omega
  | succ n ih =>
    intro ts t ht hpath hle
    obtain ⟨v, hlink, hrest⟩ := Relation.TransGen.head'_iff.mp hpath
    have hv : v ∈ ts.flatMap c.heirs := List.mem_flatMap.mpr ⟨t, ht, mem_heirs_iff.mpr hlink⟩
    unfold below
    split
    next hnil =>
      rw [hnil] at hv
      exact absurd hv List.not_mem_nil
    next =>
      rcases Relation.reflTransGen_iff_eq_or_transGen.mp hrest with rfl | hrest
      · exact List.mem_append_left _ hv
      · have := hup _ _ hlink
        exact List.mem_append_right _ (ih hv hrest (by omega))

/-- Cancelling a token reaches what is linked to it. -/
theorem mem_reached_iff (hup : ∀ p v, c.Link p v → p < v ∧ v < c.nodes.size)
    (h : c.isCancelled t = false) :
    u ∈ (c.cancel t).2 ↔ Relation.ReflTransGen c.Link t u := by
  unfold cancel
  rw [if_neg (Bool.eq_false_iff.mp h)]
  show u ∈ c.below c.nodes.size [t] ++ [t] ↔ _
  rw [List.mem_append, List.mem_singleton]
  constructor
  · rintro (hbelow | rfl)
    · obtain ⟨v, hv, hpath⟩ := linked_of_mem_below _ hbelow
      rwa [List.mem_singleton.mp hv] at hpath
    · exact .refl
  · intro hpath
    rcases Relation.reflTransGen_iff_eq_or_transGen.mp hpath with rfl | hpath
    · exact Or.inr rfl
    · obtain ⟨v, -, hlink⟩ := Relation.TransGen.tail'_iff.mp hpath
      have hlt := (hup v u hlink).2
      exact Or.inl (mem_below_of_linked (fun p v h => (hup p v h).1) _ (List.mem_singleton_self t)
        hpath (by omega))

theorem isCancelled_foldl_mark (ts : List Nat) : ∀ {c : Cancellation}, u < c.nodes.size →
    ((ts.foldl mark c).isCancelled u = true ↔ c.isCancelled u = true ∨ u ∈ ts) := by
  induction ts with
  | nil => exact fun _ => ⟨Or.inl, fun h => h.resolve_right List.not_mem_nil⟩
  | cons t ts ih =>
    intro c hu
    have hu' : u < (c.mark t).nodes.size := by rwa [size_mark]
    rw [List.foldl_cons, ih hu', isCancelled_mark hu, Bool.or_eq_true, decide_eq_true_iff,
      List.mem_cons, or_assoc]

/-- What is cancelled once a token has been. -/
theorem isCancelled_cancel (hup : ∀ p v, c.Link p v → p < v ∧ v < c.nodes.size)
    (hu : u < c.nodes.size) : (c.cancel t).1.isCancelled u = true ↔
      c.isCancelled u = true ∨ c.isCancelled t = false ∧ Relation.ReflTransGen c.Link t u := by
  cases ht : c.isCancelled t with
  | true =>
    rw [cancel_of_isCancelled ht]
    simp
  | false =>
    have hcancel : (c.cancel t).1 = (c.cancel t).2.foldl mark c := by
      unfold cancel
      rw [if_neg (Bool.eq_false_iff.mp ht)]
    rw [hcancel, isCancelled_foldl_mark _ hu, mem_reached_iff hup ht]
    simp

end Cancellation

/-! ## Where tokens come from -/

/-- A token was made below another one, or below one that was, given the token below which each of
them was made; every token descends from itself. -/
inductive Descends (origins : List (Option Nat)) (a : Nat) : Nat → Prop
  | self : Descends origins a a
  | made {p u : Nat} (ho : origins[u]? = some (some p)) (hp : Descends origins a p) :
    Descends origins a u

/-- Tokens are made below tokens that were there. -/
def Ordered (origins : List (Option Nat)) : Prop :=
  ∀ u p : Nat, origins[u]? = some (some p) → p < u

namespace Descends

variable {origins : List (Option Nat)} {a t u p : Nat}

theorem trans (h : Descends origins a t) (h' : Descends origins t u) : Descends origins a u := by
  induction h' with
  | self => exact h
  | made ho _ ih => exact .made ho ih

theorem le (hord : Ordered origins) (h : Descends origins a u) :
    a ≤ u := by
  induction h with
  | self => exact Nat.le_refl a
  | made ho _ ih => exact Nat.le_of_lt (Nat.lt_of_le_of_lt ih (hord _ _ ho))

/-- One more token changes nothing for those that are there. -/
theorem append_iff (hord : Ordered origins) (o : Option Nat) :
    ∀ u, u < origins.length → (Descends (origins ++ [o]) a u ↔ Descends origins a u) := by
  intro u hu
  constructor
  · intro h
    induction h with
    | self => exact .self
    | made ho _ ih =>
      rw [List.getElem?_append_left hu] at ho
      exact .made ho (ih (Nat.lt_trans (hord _ _ ho) hu))
  · intro h
    induction h with
    | self => exact .self
    | made ho _ ih =>
      refine .made ?_ (ih (Nat.lt_trans (hord _ _ ho) hu))
      rw [List.getElem?_append_left hu]
      exact ho

end Descends

/-! ## Links -/

namespace Cancellation

variable {c : Cancellation} {origins : List (Option Nat)} {held : Nat → Prop} {t u p : Nat}

/-- Links go both ways, and from a token to one that was made below it. -/
structure Shape (c : Cancellation) (origins : List (Option Nat)) (held : Nat → Prop) : Prop where
  size : c.nodes.size = origins.length
  listed : ∀ u p, (c.node u).parent = some p → u ∈ (c.node p).children
  below : ∀ p u, u ∈ (c.node p).children → p < u ∧ u < origins.length ∧ Descends origins p u
  /-- A token that nobody holds may be listed where it hangs no more. -/
  owned : ∀ p u, u ∈ (c.node p).children → held u → (c.node u).parent = some p

namespace Shape

theorem link_lt (h : Shape c origins held) (p v : Nat) (hl : c.Link p v) :
    p < v ∧ v < c.nodes.size := by
  obtain ⟨hlt, hv, -⟩ := h.below p v hl.1
  exact ⟨hlt, h.size ▸ hv⟩

theorem descends_of_linked (h : Shape c origins held)
    (hpath : Relation.ReflTransGen c.Link t u) : Descends origins t u := by
  induction hpath with
  | refl => exact .self
  | tail _ hlink ih => exact ih.trans (h.below _ _ hlink.1).2.2

/-- A token that is marked lets go of its children. -/
theorem mark (h : Shape c origins held) (t : Nat) : Shape (c.mark t) origins held := by
  have hchild : ∀ {p u}, u ∈ ((c.mark t).node p).children → p ≠ t ∧ u ∈ (c.node p).children := by
    intro p u hu
    have hp : p < c.nodes.size := size_mark c t ▸ lt_size_of_child hu
    rw [node_mark hp] at hu
    dsimp only at hu
    split at hu
    next => exact absurd hu List.not_mem_nil
    next hne => exact ⟨hne, hu⟩
  refine ⟨(size_mark c t).trans h.size, fun u p hu => ?_, fun p u hu => ?_, fun p u hu hheld => ?_⟩
  · have hlt : u < c.nodes.size := size_mark c t ▸ lt_size_of_parent hu
    rw [node_mark hlt] at hu
    dsimp only at hu
    split at hu
    next => exact absurd hu (by simp)
    next hno =>
      have hmem := h.listed u p hu
      have hne : p ≠ t := by
        rintro rfl
        exact hno hmem
      rw [node_mark (lt_size_of_child hmem)]
      simpa [hne] using hmem
  · exact h.below p u (hchild hu).2
  · obtain ⟨hne, hmem⟩ := hchild hu
    have hparent := h.owned p u hmem hheld
    rw [node_mark (lt_size_of_parent hparent)]
    dsimp only
    split
    next hother =>
      -- it would hang below two tokens
      have := h.owned t u hother hheld
      exact absurd (Option.some.inj (hparent.symm.trans this)) hne
    next => exact hparent

/-- A token that is given up leaves its children to its parent. -/
theorem release (h : Shape c origins held) (t : Nat) :
    Shape (c.release t) origins fun u => held u ∧ u ≠ t := by
  refine ⟨(size_release c t).trans h.size, fun u p hu => ?_, fun p u hu => ?_,
    fun p u hu hheld => ?_⟩
  · have hlt : u < c.nodes.size := size_release c t ▸ lt_size_of_parent hu
    rw [node_release hlt] at hu
    dsimp only at hu
    split at hu
    next => exact absurd hu (by simp)
    next hut =>
      split at hu
      next hmem =>
        have hpt := h.listed t p hu
        exact mem_children_release (lt_size_of_child hpt) (Nat.ne_of_lt (h.below p t hpt).1) hut
          (Or.inr ⟨hu, hmem⟩)
      next hmem =>
        have hold := h.listed u p hu
        exact mem_children_release (lt_size_of_child hold) (fun he => hmem (he ▸ hold)) hut
          (Or.inl hold)
  · obtain ⟨-, hold | ⟨hp, hmem⟩⟩ := mem_children_of_release hu
    · exact h.below p u hold
    · obtain ⟨hpt, -, hdesc⟩ := h.below p t (h.listed t p hp)
      obtain ⟨htu, hul, hdesc'⟩ := h.below t u hmem
      exact ⟨Nat.lt_trans hpt htu, hul, hdesc.trans hdesc'⟩
  · obtain ⟨hheld, hut⟩ := hheld
    obtain ⟨hpt, hmem⟩ := mem_children_of_release hu
    rcases hmem with hold | ⟨hp, hmem⟩
    · have hparent := h.owned p u hold hheld
      rw [node_release (lt_size_of_parent hparent)]
      dsimp only
      rw [if_neg hut, if_neg fun hmem => hpt ?_]
      · exact hparent
      · -- a token that is held hangs below one token only
        have hparent' := h.owned t u hmem hheld
        exact Option.some.inj (hparent.symm.trans hparent')
    · rw [node_release (lt_size_of_parent (h.owned t u hmem hheld))]
      dsimp only
      rw [if_neg hut, if_pos hmem]
      exact hp

theorem mono {held' : Nat → Prop} (h : Shape c origins held) (hh : ∀ u, held' u → held u) :
    Shape c origins held' :=
  ⟨h.size, h.listed, h.below, fun p u hu hheld => h.owned p u hu (hh u hheld)⟩

theorem foldl_mark (ts : List Nat) : ∀ {c : Cancellation}, Shape c origins held →
    Shape (ts.foldl Cancellation.mark c) origins held := by
  induction ts with
  | nil => exact fun h => h
  | cons t ts ih => exact fun h => ih (h.mark t)

end Shape

/-- A token that hangs below none of those that are marked hangs where it did. -/
theorem parent_foldl_mark (ts : List Nat) : ∀ {c : Cancellation}, u < c.nodes.size →
    (∀ t ∈ ts, u ∉ (c.node t).children) →
      ((ts.foldl mark c).node u).parent = (c.node u).parent := by
  induction ts with
  | nil => exact fun _ _ => rfl
  | cons t ts ih =>
    intro c hu hno
    have hu' : u < (c.mark t).nodes.size := by rwa [size_mark]
    have hkeep : ((c.mark t).node u).parent = (c.node u).parent := by
      rw [node_mark hu]
      exact if_neg (hno t List.mem_cons_self)
    refine (ih hu' fun t' ht' hmem => ?_).trans hkeep
    have hlt : t' < c.nodes.size := size_mark c t ▸ lt_size_of_child hmem
    rw [node_mark hlt] at hmem
    dsimp only at hmem
    split at hmem
    next => exact absurd hmem List.not_mem_nil
    next => exact hno t' (List.mem_cons_of_mem t ht') hmem

end Cancellation

/-! ## Tokens that come and go -/

/-- Tokens, and what has happened to them. -/
structure Tokens where
  tree : Cancellation
  /-- Below which token each one was made. -/
  origins : List (Option Nat)
  /-- The tokens that were cancelled by name. -/
  named : List Nat
  /-- The tokens that nobody holds any more. -/
  released : List Nat

namespace Tokens

inductive Act where
  | fresh
  | child (parent : Nat)
  | cancel (token : Nat)
  | release (token : Nat)

/-- Somebody holds a token. -/
def Held (s : Tokens) (t : Nat) : Prop := t < s.origins.length ∧ t ∉ s.released

instance (s : Tokens) (t : Nat) : Decidable (s.Held t) := inferInstanceAs (Decidable (_ ∧ _))

def isCancelled (s : Tokens) (t : Nat) : Bool := s.tree.isCancelled t

/-- The tokens after an act.  Nothing can be done to a token that nobody holds. -/
def perform (s : Tokens) : Act → Tokens
  | .fresh => { s with tree := s.tree.fresh.1, origins := s.origins ++ [none] }
  | .child p =>
    if s.Held p then { s with tree := (s.tree.child p).1, origins := s.origins ++ [some p] }
    else s
  | .cancel t =>
    if s.Held t then { s with tree := (s.tree.cancel t).1, named := s.named ++ [t] } else s
  | .release t =>
    if s.Held t then { s with tree := s.tree.release t, released := t :: s.released } else s

def empty : Tokens := ⟨∅, [], [], []⟩

def run (acts : List Act) : Tokens := acts.foldl perform empty

/-- What holds of the links at every time. -/
structure Sound (s : Tokens) : Prop where
  shape : s.tree.Shape s.origins s.Held
  ordered : Ordered s.origins
  known : ∀ a ∈ s.named, a < s.origins.length
  /-- The links lead from a token up to all those held that it descends from. -/
  linked : ∀ u, s.Held u → s.isCancelled u = false → ∀ t, s.Held t → t ≠ u →
    Descends s.origins t u →
      ∃ p, (s.tree.node u).parent = some p ∧ s.Held p ∧ Descends s.origins t p
  exact : ∀ u, s.Held u →
    (s.isCancelled u = true ↔ ∃ a ∈ s.named, Descends s.origins a u)

variable {s : Tokens} {t u p : Nat}

theorem sound_empty : empty.Sound where
  shape := by
    have hnode : ∀ u, empty.tree.node u = default := fun u => Cancellation.node_of_le (Nat.zero_le u)
    refine ⟨rfl, fun u p hu => ?_, fun p u hu => ?_, fun p u hu => ?_⟩
    · rw [hnode, Cancellation.parent_default] at hu
      exact absurd hu (by simp)
    · rw [hnode] at hu
      exact absurd hu List.not_mem_nil
    · rw [hnode] at hu
      exact absurd hu List.not_mem_nil
  ordered u p h := absurd h (by simp [empty])
  known a ha := absurd ha List.not_mem_nil
  linked u hu := absurd hu.1 (Nat.not_lt_zero u)
  exact u hu := absurd hu.1 (Nat.not_lt_zero u)

/-- What hangs below a cancelled token that is held is cancelled. -/
theorem Sound.parent_live (h : s.Sound) (hu : s.Held u) (hlive : s.isCancelled u = false)
    (hparent : (s.tree.node u).parent = some p) (hp : s.Held p) : s.isCancelled p = false := by
  refine Bool.eq_false_iff.mpr fun hc => ?_
  obtain ⟨a, ha, hdesc⟩ := (h.exact p hp).mp hc
  have hbelow := (h.shape.below p u (h.shape.listed u p hparent)).2.2
  have hcu := (h.exact u hu).mpr ⟨a, ha, hdesc.trans hbelow⟩
  rw [hlive] at hcu
  exact absurd hcu (by simp)

/-- Links lead down to every token held, and not cancelled, that descends from one that is held. -/
theorem Sound.path (h : s.Sound) (ht : s.Held t) : ∀ u, s.Held u → s.isCancelled u = false →
    Descends s.origins t u → Relation.ReflTransGen s.tree.Link t u := by
  intro u
  induction u using Nat.strongRecOn with
  | ind u ih =>
    intro hu hlive hdesc
    by_cases htu : t = u
    · rw [htu]
    · obtain ⟨p, hparent, hp, hdesc'⟩ := h.linked u hu hlive t ht htu hdesc
      have hmem := h.shape.listed u p hparent
      have hlt := (h.shape.below p u hmem).1
      exact (ih p hlt hp (h.parent_live hu hlive hparent hp) hdesc').tail ⟨hmem, hlive⟩

theorem sound_cancel (h : s.Sound) (ht : s.Held t) :
    Sound { s with tree := (s.tree.cancel t).1, named := s.named ++ [t] } := by
  have hsize : ∀ {u}, s.Held u → u < s.tree.nodes.size := fun hu => h.shape.size ▸ hu.1
  have hcut : ∀ {u}, u < s.tree.nodes.size → ((s.tree.cancel t).1.isCancelled u = true ↔
      s.isCancelled u = true ∨
        s.isCancelled t = false ∧ Relation.ReflTransGen s.tree.Link t u) :=
    fun hu => Cancellation.isCancelled_cancel h.shape.link_lt hu
  have htree : ∃ ts : List Nat, (s.tree.cancel t).1 = ts.foldl Cancellation.mark s.tree ∧
      ∀ v ∈ ts, s.isCancelled t = false ∧ Relation.ReflTransGen s.tree.Link t v := by
    cases hc : s.tree.isCancelled t with
    | true =>
      rw [Cancellation.cancel_of_isCancelled hc]
      exact ⟨[], rfl, fun v hv => absurd hv List.not_mem_nil⟩
    | false =>
      refine ⟨(s.tree.cancel t).2, ?_, fun v hv =>
        ⟨hc, (Cancellation.mem_reached_iff h.shape.link_lt hc).mp hv⟩⟩
      unfold Cancellation.cancel
      rw [if_neg (Bool.eq_false_iff.mp hc)]
  refine ⟨?_, h.ordered, fun a ha => ?_, fun u hu hlive v hv hne hdesc => ?_, fun u hu => ?_⟩
  · obtain ⟨ts, he, -⟩ := htree
    show (s.tree.cancel t).1.Shape s.origins s.Held
    rw [he]
    exact h.shape.foldl_mark ts
  · rcases List.mem_append.mp ha with hold | hnew
    · exact h.known a hold
    · rw [List.mem_singleton.mp hnew]
      exact ht.1
  · have hu : s.Held u := hu
    obtain ⟨hbefore, hapart⟩ := not_or.mp fun ho =>
      Bool.eq_false_iff.mp hlive ((hcut (hsize hu)).mpr ho)
    have hbefore : s.isCancelled u = false := Bool.eq_false_iff.mpr hbefore
    obtain ⟨p, hparent, hp, hdesc'⟩ := h.linked u hu hbefore v hv hne hdesc
    refine ⟨p, ?_, hp, hdesc'⟩
    -- no token that is marked has it for a child, or it would be marked too
    obtain ⟨ts, he, hts⟩ := htree
    show ((s.tree.cancel t).1.node u).parent = some p
    rw [he, Cancellation.parent_foldl_mark ts (hsize hu) fun v' hv' hmem => ?_]
    · exact hparent
    · obtain ⟨hc, hpath⟩ := hts v' hv'
      exact hapart ⟨hc, hpath.tail ⟨hmem, hbefore⟩⟩
  · have hu : s.Held u := hu
    show (s.tree.cancel t).1.isCancelled u = true ↔ _
    rw [hcut (hsize hu)]
    constructor
    · rintro (hc | ⟨-, hpath⟩)
      · obtain ⟨a, ha, hdesc⟩ := (h.exact u hu).mp hc
        exact ⟨a, List.mem_append_left _ ha, hdesc⟩
      · exact ⟨t, List.mem_append_right _ (List.mem_singleton_self t),
          h.shape.descends_of_linked hpath⟩
    · rintro ⟨a, ha, hdesc⟩
      rcases List.mem_append.mp ha with hold | hnew
      · exact Or.inl ((h.exact u hu).mpr ⟨a, hold, hdesc⟩)
      · rw [List.mem_singleton.mp hnew] at hdesc
        cases hc : s.isCancelled t with
        | true =>
          obtain ⟨b, hb, hdesc'⟩ := (h.exact t ht).mp hc
          exact Or.inl ((h.exact u hu).mpr ⟨b, hb, hdesc'.trans hdesc⟩)
        | false =>
          cases hlive : s.isCancelled u with
          | true => exact Or.inl rfl
          | false => exact Or.inr ⟨rfl, h.path ht u hu hlive hdesc⟩

/-- A tree with one more token: whether it is cancelled, what it hangs below, and below which token
it was made if it was made below one. -/
structure Plants (s : Tokens) (o : Option Nat) (tree : Cancellation) (x : Bool)
    (link : Option Nat) : Prop where
  size : tree.nodes.size = s.origins.length + 1
  node : ∀ u, tree.node u =
    if u = s.origins.length then ⟨x, link, []⟩
    else if link = some u then
      { s.tree.node u with children := (s.tree.node u).children ++ [s.origins.length] }
    else s.tree.node u
  held : ∀ p, o = some p → s.Held p
  inherits : x = (o.map s.isCancelled).getD false
  hangs : link = if x then none else o

section Plants

variable {o : Option Nat} {tree : Cancellation} {x : Bool} {link : Option Nat}

theorem Plants.held_of_link (h : s.Plants o tree x link) (hp : link = some p) :
    o = some p ∧ s.Held p := by
  have hlink := h.hangs
  split at hlink
  next => exact absurd (hlink.symm.trans hp) (by simp)
  next => exact ⟨hlink.symm.trans hp, h.held p (hlink.symm.trans hp)⟩

theorem Plants.parent (h : s.Plants o tree x link) (hu : u < s.origins.length) :
    (tree.node u).parent = (s.tree.node u).parent := by
  rw [h.node, if_neg (Nat.ne_of_lt hu)]
  split <;> rfl

theorem Plants.isCancelled (h : s.Plants o tree x link) (hu : u < s.origins.length) :
    tree.isCancelled u = s.isCancelled u := by
  unfold Cancellation.isCancelled
  rw [h.node, if_neg (Nat.ne_of_lt hu)]
  split <;> rfl

theorem Plants.node_new (h : s.Plants o tree x link) :
    tree.node s.origins.length = ⟨x, link, []⟩ := by
  rw [h.node, if_pos rfl]

/-- Who is a child of whom, once there is one more token. -/
theorem Plants.mem_children (h : s.Plants o tree x link) :
    u ∈ (tree.node p).children ↔
      u ∈ (s.tree.node p).children ∧ p ≠ s.origins.length ∨
        link = some p ∧ u = s.origins.length := by
  rw [h.node]
  by_cases hp : p = s.origins.length
  · have hno : link ≠ some p := by
      intro hl
      have := (h.held_of_link hl).2.1
      omega
    simp [hp, hp ▸ hno]
  · rw [if_neg hp]
    by_cases hl : link = some p
    · simp [hl, hp]
    · simp [hl, hp]

theorem Plants.ordered (h : s.Plants o tree x link) (hs : s.Sound) :
    Ordered (s.origins ++ [o]) := by
  intro u p hu
  rcases Nat.lt_or_ge u s.origins.length with hlt | hge
  · rw [List.getElem?_append_left hlt] at hu
    exact hs.ordered u p hu
  · rw [List.getElem?_append_right hge, List.getElem?_singleton] at hu
    split at hu
    next => exact Nat.lt_of_lt_of_le (h.held p (Option.some.inj hu)).1 hge
    next => exact absurd hu (by simp)

/-- What the new token descends from is itself, and what the one above it descends from. -/
theorem Plants.descends (h : s.Plants o tree x link) (hs : s.Sound) {a : Nat}
    (hne : a ≠ s.origins.length) : Descends (s.origins ++ [o]) a s.origins.length ↔
      ∃ p, o = some p ∧ Descends s.origins a p := by
  have hlast : (s.origins ++ [o])[s.origins.length]? = some o := by
    rw [List.getElem?_append_right (Nat.le_refl _), Nat.sub_self]
    rfl
  constructor
  · intro hdesc
    cases hdesc with
    | self => exact absurd rfl hne
    | @made p _ hp hdesc =>
      have hp : o = some p := Option.some.inj (hlast.symm.trans hp)
      exact ⟨p, hp, (Descends.append_iff hs.ordered o p (h.held p hp).1).mp hdesc⟩
  · rintro ⟨p, rfl, hdesc⟩
    exact .made hlast ((Descends.append_iff hs.ordered _ p (h.held p rfl).1).mpr hdesc)

theorem Plants.shape (h : s.Plants o tree x link) (hs : s.Sound) :
    tree.Shape (s.origins ++ [o]) fun u => u < (s.origins ++ [o]).length ∧ u ∉ s.released := by
  have hlength : (s.origins ++ [o]).length = s.origins.length + 1 := by simp
  refine ⟨h.size.trans hlength.symm, fun u p hu => ?_, fun p u hu => ?_, fun p u hu hheld => ?_⟩
  · rw [h.mem_children]
    by_cases hnew : u = s.origins.length
    · rw [hnew, h.node_new] at hu
      exact Or.inr ⟨hu, hnew⟩
    · have hlt : u < s.origins.length := by
        have := h.size ▸ Cancellation.lt_size_of_parent hu
        omega
      rw [h.parent hlt] at hu
      have hmem := hs.shape.listed u p hu
      have := hs.shape.size ▸ Cancellation.lt_size_of_child hmem
      exact Or.inl ⟨hmem, by omega⟩
  · rcases h.mem_children.mp hu with ⟨hold, -⟩ | ⟨hlink, rfl⟩
    · obtain ⟨hlt, hul, hdesc⟩ := hs.shape.below p u hold
      exact ⟨hlt, by omega, (Descends.append_iff hs.ordered o u hul).mpr hdesc⟩
    · obtain ⟨ho, hheld⟩ := h.held_of_link hlink
      refine ⟨hheld.1, by omega, (h.descends hs (Nat.ne_of_lt hheld.1)).mpr ⟨p, ho, .self⟩⟩
  · rcases h.mem_children.mp hu with ⟨hold, -⟩ | ⟨hlink, rfl⟩
    · have hul := (hs.shape.below p u hold).2.1
      rw [h.parent hul]
      exact hs.shape.owned p u hold ⟨hul, hheld.2⟩
    · rw [h.node_new]
      exact hlink

/-- A token is made, alone or below one that is held. -/
theorem Plants.sound (h : s.Plants o tree x link) (hs : s.Sound) :
    Sound { s with tree, origins := s.origins ++ [o] } := by
  have hord := h.ordered hs
  have hcases : ∀ {u}, u < (s.origins ++ [o]).length → u < s.origins.length ∨
      u = s.origins.length := by
    intro u hu
    rw [List.length_append, List.length_singleton] at hu
    omega
  have hmore : ∀ {u}, s.Held u → Held { s with tree, origins := s.origins ++ [o] } u :=
    fun hu => ⟨Nat.lt_of_lt_of_le hu.1 (by simp), hu.2⟩
  refine ⟨h.shape hs, hord, fun a ha => ?_, fun u hu hlive t ht hne hdesc => ?_, fun u hu => ?_⟩
  · exact Nat.lt_of_lt_of_le (hs.known a ha) (by simp)
  · rcases hcases hu.1 with hlt | rfl
    · have htlt : t < s.origins.length := by
        have := hdesc.le hord
        omega
      obtain ⟨p, hp, hheld, hdesc'⟩ := hs.linked u ⟨hlt, hu.2⟩ ((h.isCancelled hlt).symm.trans hlive)
        t ⟨htlt, ht.2⟩ hne ((Descends.append_iff hs.ordered o u hlt).mp hdesc)
      exact ⟨p, (h.parent hlt).trans hp, hmore hheld,
        (Descends.append_iff hs.ordered o p hheld.1).mpr hdesc'⟩
    · obtain ⟨p, hp, hdesc'⟩ := (h.descends hs hne).mp hdesc
      have hlink := h.hangs
      rw [if_neg, hp] at hlink
      · refine ⟨p, ?_, hmore (h.held p hp), ?_⟩
        · show (tree.node s.origins.length).parent = some p
          rw [h.node_new]
          exact hlink
        · exact (Descends.append_iff hs.ordered o p (h.held p hp).1).mpr hdesc'
      · have hx : tree.isCancelled s.origins.length = x := by
          unfold Cancellation.isCancelled
          rw [h.node_new]
        exact Bool.eq_false_iff.mp (hx.symm.trans hlive)
  · rcases hcases hu.1 with hlt | rfl
    · show tree.isCancelled u = true ↔ _
      rw [h.isCancelled hlt, hs.exact u ⟨hlt, hu.2⟩]
      refine exists_congr fun a => and_congr_right fun _ => ?_
      exact (Descends.append_iff hs.ordered o u hlt).symm
    · have hx : tree.isCancelled s.origins.length = (o.map s.isCancelled).getD false := by
        rw [← h.inherits]
        unfold Cancellation.isCancelled
        rw [h.node_new]
      show tree.isCancelled s.origins.length = true ↔ _
      rw [hx]
      constructor
      · intro hc
        cases o with
        | none => exact absurd hc (by simp)
        | some p =>
          obtain ⟨a, ha, hdesc⟩ := (hs.exact p (h.held p rfl)).mp hc
          exact ⟨a, ha, (h.descends hs (Nat.ne_of_lt (hs.known a ha))).mpr ⟨p, rfl, hdesc⟩⟩
      · rintro ⟨a, ha, hdesc⟩
        obtain ⟨p, rfl, hdesc'⟩ := (h.descends hs (Nat.ne_of_lt (hs.known a ha))).mp hdesc
        exact (hs.exact p (h.held p rfl)).mpr ⟨a, ha, hdesc'⟩

end Plants

theorem plants_fresh (h : s.Sound) : s.Plants none s.tree.fresh.1 false none := by
  refine ⟨?_, fun u => ?_, fun p hp => absurd hp (by simp), rfl, rfl⟩
  · exact (Array.size_push _).trans (congrArg (· + 1) h.shape.size)
  · rw [← h.shape.size]
    exact (Cancellation.node_push s.tree _ u).trans (by simp)

theorem plants_child (h : s.Sound) (hp : s.Held p) :
    ∃ x link, s.Plants (some p) (s.tree.child p).1 x link := by
  have hlt : p < s.tree.nodes.size := h.shape.size ▸ hp.1
  have hheld : ∀ q, some p = some q → s.Held q := fun q hq => Option.some.inj hq ▸ hp
  unfold Cancellation.child
  dsimp only
  split
  next hc =>
    refine ⟨true, none, ?_, fun u => ?_, hheld, hc.symm, rfl⟩
    · exact (Array.size_push _).trans (congrArg (· + 1) h.shape.size)
    · rw [← h.shape.size]
      exact (Cancellation.node_push s.tree _ u).trans (by simp)
  next hc =>
    refine ⟨false, some p, ?_, fun u => ?_, hheld, (Bool.eq_false_iff.mpr hc).symm, rfl⟩
    · rw [Cancellation.size_update]
      exact (Array.size_push _).trans (congrArg (· + 1) h.shape.size)
    · rw [← h.shape.size, Cancellation.node_update, Cancellation.node_push, Array.size_push]
      by_cases hu : u = s.tree.nodes.size
      · have hup : u ≠ p := by omega
        simp [hu, hu ▸ hup]
      · by_cases hup : u = p
        · subst hup
          have hlt' : u < s.tree.nodes.size + 1 := by omega
          simp [hu, hlt']
        · have hpu : p ≠ u := fun he => hup he.symm
          simp [hu, hup, hpu]

theorem sound_release (h : s.Sound) (ht : s.Held t) :
    Sound { s with tree := s.tree.release t, released := t :: s.released } := by
  have hfewer : ∀ u, Held { s with tree := s.tree.release t, released := t :: s.released } u →
      s.Held u ∧ u ≠ t := by
    intro u hu
    obtain ⟨hne, hno⟩ := not_or.mp fun ho => hu.2 (List.mem_cons.mpr ho)
    exact ⟨⟨hu.1, hno⟩, hne⟩
  have hmore : ∀ {u}, s.Held u → u ≠ t →
      Held { s with tree := s.tree.release t, released := t :: s.released } u :=
    fun hu hne => ⟨hu.1, fun hm => (List.mem_cons.mp hm).elim hne hu.2⟩
  have hnode : ∀ {u}, s.Held u → (s.tree.release t).node u = _ :=
    fun hu => Cancellation.node_release (h.shape.size ▸ hu.1) t
  have hcancelled : ∀ {u}, s.Held u → (s.tree.release t).isCancelled u = s.isCancelled u := by
    intro u hu
    unfold Cancellation.isCancelled
    rw [hnode hu]
    rfl
  refine ⟨(h.shape.release t).mono hfewer, h.ordered, h.known,
    fun u hu hlive v hv hne hdesc => ?_, fun u hu => ?_⟩
  · obtain ⟨hu, hut⟩ := hfewer u hu
    obtain ⟨hv, hvt⟩ := hfewer v hv
    have hlive : s.isCancelled u = false := (hcancelled hu).symm.trans hlive
    obtain ⟨p, hp, hheld, hdesc'⟩ := h.linked u hu hlive v hv hne hdesc
    have hmem := h.shape.listed u p hp
    show ∃ q, ((s.tree.release t).node u).parent = some q ∧ _
    rw [hnode hu]
    dsimp only
    rw [if_neg hut]
    by_cases hpt : p = t
    · -- it hangs below `t`, and from now on below what `t` hung below
      rw [hpt] at hp hmem hdesc'
      have htlive := h.parent_live hu hlive hp ht
      obtain ⟨q, hq, hqheld, hqdesc⟩ := h.linked t ht htlive v hv hvt hdesc'
      have hlt := (h.shape.below q t (h.shape.listed t q hq)).1
      rw [if_pos hmem]
      exact ⟨q, hq, hmore hqheld (Nat.ne_of_lt hlt), hqdesc⟩
    · rw [if_neg fun hmem' => hpt ?_]
      · exact ⟨p, hp, hmore hheld hpt, hdesc'⟩
      · have hp' := h.shape.owned t u hmem' hu
        exact Option.some.inj (hp.symm.trans hp')
  · obtain ⟨hu, -⟩ := hfewer u hu
    show (s.tree.release t).isCancelled u = true ↔ _
    rw [hcancelled hu]
    exact h.exact u hu

theorem sound_perform (h : s.Sound) (a : Act) : (s.perform a).Sound := by
  cases a with
  | fresh => exact (plants_fresh h).sound h
  | child p =>
    unfold perform
    dsimp only
    split
    next hp =>
      obtain ⟨x, link, hplants⟩ := plants_child h hp
      exact hplants.sound h
    next => exact h
  | cancel t =>
    unfold perform
    dsimp only
    split
    next ht => exact sound_cancel h ht
    next => exact h
  | release t =>
    unfold perform
    dsimp only
    split
    next ht => exact sound_release h ht
    next => exact h

theorem lt_of_isCancelled (h : s.Sound) (hu : s.isCancelled u = true) : u < s.origins.length := by
  rw [← h.shape.size]
  refine Nat.lt_of_not_le fun hle => ?_
  unfold isCancelled Cancellation.isCancelled at hu
  rw [Cancellation.node_of_le hle] at hu
  exact absurd hu (by decide)

/-- A cancelled token stays so, whether it is held or not. -/
theorem isCancelled_perform (h : s.Sound) (a : Act) (hu : s.isCancelled u = true) :
    (s.perform a).isCancelled u = true := by
  have hlt := lt_of_isCancelled h hu
  have hlt' : u < s.tree.nodes.size := h.shape.size ▸ hlt
  cases a with
  | fresh => exact ((plants_fresh h).isCancelled hlt).trans hu
  | child p =>
    unfold perform
    dsimp only
    split
    next hp =>
      obtain ⟨x, link, hplants⟩ := plants_child h hp
      exact (hplants.isCancelled hlt).trans hu
    next => exact hu
  | cancel t =>
    unfold perform
    dsimp only
    split
    next => exact (Cancellation.isCancelled_cancel h.shape.link_lt hlt').mpr (Or.inl hu)
    next => exact hu
  | release t =>
    unfold perform
    dsimp only
    split
    next =>
      show ((s.tree.release t).node u).cancelled = true
      rw [Cancellation.node_release hlt']
      exact hu
    next => exact hu

/-- Only by being given up does a token come to be held by nobody. -/
theorem held_perform {a : Act} (ht : s.Held t) (ha : a ≠ .release t) : (s.perform a).Held t := by
  have hmore : ∀ o : Option Nat, t < (s.origins ++ [o]).length :=
    fun o => Nat.lt_of_lt_of_le ht.1 (by simp)
  cases a with
  | fresh => exact ⟨hmore none, ht.2⟩
  | child p =>
    unfold perform
    dsimp only
    split
    next => exact ⟨hmore (some p), ht.2⟩
    next => exact ht
  | cancel u =>
    unfold perform
    dsimp only
    split <;> exact ht
  | release u =>
    unfold perform
    dsimp only
    split
    next =>
      refine ⟨ht.1, fun hm => ?_⟩
      rcases List.mem_cons.mp hm with rfl | hm
      · exact ha rfl
      · exact ht.2 hm
    next => exact ht

theorem sound_foldl (acts : List Act) : ∀ {s : Tokens}, s.Sound → (acts.foldl perform s).Sound := by
  induction acts with
  | nil => exact fun h => h
  | cons a acts ih => exact fun h => ih (sound_perform h a)

theorem sound_run (acts : List Act) : (run acts).Sound := sound_foldl acts sound_empty

/-- **A token is cancelled with those that it descends from.**  Whatever is made, cancelled and
given up, a token that is held is cancelled exactly if it or a token that it descends from was
cancelled by name, before or after it was made. -/
theorem isCancelled_iff (acts : List Act) {t : Nat} (ht : (run acts).Held t) :
    (run acts).isCancelled t = true ↔
      ∃ a ∈ (run acts).named, Descends (run acts).origins a t :=
  (sound_run acts).exact t ht

end Tokens

end InformerHub
