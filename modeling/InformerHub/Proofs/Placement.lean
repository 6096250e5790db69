import InformerHub.Proofs.Attempts
import InformerHub.Proofs.Conditions
import InformerHub.Proofs.SortedMap

/-!
# Where a condition is written

A list of conditions may come from another writer, so it need not be in order, and a kind may occur
in it several times.  Writing a condition to such a list goes one of two ways:

> A condition whose kind is there stands where the first one of its kind stood, and everything else
> stays as it is.  One whose kind is new makes the list the stable sort of the old conditions and
> the new one (`set_places`).

Either way what is found of the other kinds is what was found before, and a list that was in order
remains so.

`SortsStably` says what a stable sort is without saying how it is made: the same conditions, in the
order of kinds, and for each kind those of that kind as they stood.  There is one such list only,
and `sortByKind` makes it (`sortsStably_iff`).
-/

namespace InformerHub

namespace Condition

variable {τ : Type} {cs ds : List (Condition τ)}

/-- The kinds stand in the order of their bytes; a kind may occur more than once. -/
def Ordered (cs : List (Condition τ)) : Prop :=
  cs.Pairwise fun a b => Text.bytes a.kind ≤ Text.bytes b.kind

theorem ordered_iff : Ordered cs ↔ cs.Pairwise fun a b => a.kind ≤ b.kind := by
  have hle : ∀ s t : String, Text.bytes s ≤ Text.bytes t ↔ s ≤ t := by
    intro s t
    rw [← List.not_lt, ← String.not_lt, Text.lt_iff_bytes_lt]
  unfold Ordered
  simp only [hle]

/-- The conditions of one list in the order of kinds, and those of one kind in the order in which
they stood. -/
structure SortsStably (cs ds : List (Condition τ)) : Prop where
  perm : ds.Perm cs
  ordered : Ordered ds
  alike : ∀ kind, ds.filter (fun d => d.kind = kind) = cs.filter fun d => d.kind = kind

theorem sortsStably_sortByKind (cs : List (Condition τ)) : SortsStably cs (sortByKind cs) where
  perm := List.mergeSort_perm cs _
  ordered := ordered_iff.mpr (pairwise_sortByKind cs)
  alike kind := filter_sortByKind kind cs

/-- A stable sort leaves no choice. -/
theorem sortsStably_iff : SortsStably cs ds ↔ ds = sortByKind cs := by
  constructor
  · intro h
    have hsorted := sortsStably_sortByKind cs
    refine eq_of_filter_eq kind (ordered_iff.mp h.ordered) (ordered_iff.mp hsorted.ordered) ?_
    intro k
    exact (h.alike k).trans (hsorted.alike k).symm
  · rintro rfl
    exact sortsStably_sortByKind cs

theorem ordered_set (h : Ordered cs) (c : Condition τ) : Ordered (set cs c) := by
  unfold set
  split
  next =>
    -- the kinds are the same ones, place by place
    rw [ordered_iff, ← List.pairwise_map (f := kind) (R := (· ≤ ·))] at h ⊢
    rwa [map_kind_overwrite]
  next => exact (sortsStably_sortByKind (cs ++ [c])).ordered

theorem set_of_present {old c : Condition τ} (h : get? cs c.kind = some old) :
    set cs c = overwrite c cs := by
  unfold set
  rw [h]

theorem set_of_absent {c : Condition τ} (h : get? cs c.kind = none) :
    set cs c = sortByKind (cs ++ [c]) := by
  unfold set
  rw [h]

/-- What a write does to any list of conditions.  Of every other kind the same is found as before.
If the kind is there, the first one of it is replaced where it stands, the time carried over if the
status is the same, and nothing else is touched.  If it is not, the outcome is the stable sort of
all that was there and the new one.  A list that is in order remains so. -/
theorem set_places (cs : List (Condition τ)) (c : Condition τ) :
    (∀ kind, kind ≠ c.kind → get? (set cs c) kind = get? cs kind) ∧
    (∀ old, get? cs c.kind = some old →
      let new := if old.status = c.status then { c with transition := old.transition } else c
      get? (set cs c) c.kind = some new ∧
      ∃ before after, cs = before ++ old :: after ∧ (∀ d ∈ before, d.kind ≠ c.kind) ∧
        set cs c = before ++ new :: after) ∧
    (get? cs c.kind = none →
      get? (set cs c) c.kind = some c ∧ ∀ ds, SortsStably (cs ++ [c]) ds ↔ ds = set cs c) ∧
    (Ordered cs → Ordered (set cs c)) := by
  refine ⟨fun kind hk => get?_set_of_ne hk cs, ?_, ?_, fun h => ordered_set h c⟩
  · intro old hold
    obtain ⟨before, after, hcs, -, hfirst, hover⟩ := overwrite_of_get? hold
    rw [set_of_present hold]
    exact ⟨get?_overwrite hold, before, after, hcs, hfirst, hover c rfl⟩
  · intro hnone
    rw [set_of_absent hnone]
    exact ⟨get?_sortByKind hnone, fun ds => sortsStably_iff⟩

/-- A kind that occurs twice, in a list that is out of order: the first one is written over and keeps
its time, and the second one is left alone. -/
example :
    let second := failing "Ready" "Late" .error "" 2
    set [failing "Ready" "Early" .error "" 1, second, holding "Ample" 3]
        (failing "Ready" "New" .info "" 9) =
      [failing "Ready" "New" .info "" 1, second, holding "Ample" 3] := by
  decide

end Condition

end InformerHub
