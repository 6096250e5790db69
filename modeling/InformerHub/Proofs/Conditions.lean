import Mathlib.Data.List.DropRight
import InformerHub.Proofs.ByteOrder
import InformerHub.Proofs.Report

/-!
# What a list of conditions remembers

A list of conditions is written one condition at a time.  What it says of a kind depends on all the
writes of that kind, and on no others:

> The condition of a kind is the last one that was written, with the time of the first write of the
> unbroken block at the end that has its status (`remembers_edits`).

One write says that much about two: it carries the time over if the status is that of the condition
it replaces (`get?_set_self`), and the block at the end grows by one in just that case
(`unbroken_concat`).  A write of another kind changes nothing (`get?_set_of_ne`), as sorting by kind
leaves the conditions of one kind in their order (`filter_sortByKind`).
-/

namespace InformerHub

namespace Condition

variable {τ : Type} {c : Condition τ} {cs : List (Condition τ)}

/-! ## Sorting by kind -/

/-- The order of kinds, as the sort asks for it. -/
def kindLE (a b : Condition τ) : Bool := decide (a.kind ≤ b.kind)

theorem kindLE_trans (a b c : Condition τ) (hab : kindLE a b = true) (hbc : kindLE b c = true) :
    kindLE a c = true :=
  decide_eq_true (String.le_trans (of_decide_eq_true hab) (of_decide_eq_true hbc))

theorem kindLE_total (a b : Condition τ) : (kindLE a b || kindLE b a) = true := by
  unfold kindLE
  rw [Bool.or_eq_true, decide_eq_true_eq, decide_eq_true_eq]
  exact String.le_total a.kind b.kind

theorem pairwise_sortByKind (cs : List (Condition τ)) :
    (sortByKind cs).Pairwise fun a b => a.kind ≤ b.kind :=
  (List.pairwise_mergeSort kindLE_trans kindLE_total cs).imp of_decide_eq_true

/-- Sorting leaves the conditions of one kind in their order. -/
theorem filter_sortByKind (kind : String) (cs : List (Condition τ)) :
    (sortByKind cs).filter (fun c => c.kind = kind) = cs.filter fun c => c.kind = kind := by
  have hequal : (cs.filter fun c => c.kind = kind).Pairwise fun a b => kindLE a b = true := by
    refine List.pairwise_of_forall_mem_list fun a ha b hb => ?_
    have hka : a.kind = kind := of_decide_eq_true (List.mem_filter.mp ha).2
    have hkb : b.kind = kind := of_decide_eq_true (List.mem_filter.mp hb).2
    unfold kindLE
    rw [hka, hkb]
    exact decide_eq_true (String.le_refl kind)
  have hsub : (cs.filter fun c => c.kind = kind).Sublist (sortByKind cs) :=
    List.sublist_mergeSort kindLE_trans kindLE_total hequal List.filter_sublist
  have hkept := hsub.filter fun c => decide (c.kind = kind)
  rw [List.filter_filter, List.filter_congr fun c _ => Bool.and_self _] at hkept
  have hperm : ((sortByKind cs).filter fun c => c.kind = kind).Perm
      (cs.filter fun c => c.kind = kind) := (List.mergeSort_perm cs _).filter _
  exact (hkept.eq_of_length hperm.length_eq.symm).symm

/-! ## One write -/

theorem get?_eq_head?_filter (cs : List (Condition τ)) (kind : String) :
    get? cs kind = (cs.filter fun c => c.kind = kind).head? :=
  (List.head?_filter ..).symm

theorem get?_overwrite_of_ne {kind : String} (h : kind ≠ c.kind) (cs : List (Condition τ)) :
    get? (overwrite c cs) kind = get? cs kind := by
  unfold get?
  induction cs with
  | nil => rfl
  | cons d ds ih =>
    by_cases hd : d.kind = c.kind
    · have hother : ¬ d.kind = kind := fun hk => h (hk.symm.trans hd)
      have hnew : ¬ (carryOver d c).kind = kind := by
        rw [kind_carryOver]
        exact fun hk => h hk.symm
      simp [overwrite, hd ▸ hother, hd, hnew]
    · rw [overwrite, if_neg hd, List.find?_cons, List.find?_cons, ih]

/-- Writing a condition changes none of another kind. -/
theorem get?_set_of_ne {kind : String} (h : kind ≠ c.kind) (cs : List (Condition τ)) :
    get? (set cs c) kind = get? cs kind := by
  unfold set
  split
  next => exact get?_overwrite_of_ne h cs
  next =>
    have hnew : ([c].filter fun d => d.kind = kind) = [] := by
      simpa using fun hk : c.kind = kind => h hk.symm
    rw [get?_eq_head?_filter, get?_eq_head?_filter, filter_sortByKind, List.filter_append, hnew,
      List.append_nil]

/-- What a write leaves of its kind. -/
theorem get?_set_self (cs : List (Condition τ)) (c : Condition τ) :
    get? (set cs c) c.kind = some ((get? cs c.kind).elim c fun old => carryOver old c) := by
  unfold set
  split
  next old h =>
    rw [get?_overwrite h, h]
    rfl
  next h =>
    rw [get?_sortByKind h, h]
    rfl

theorem map_kind_overwrite (c : Condition τ) (cs : List (Condition τ)) :
    (overwrite c cs).map kind = cs.map kind := by
  induction cs with
  | nil => rfl
  | cons d ds ih =>
    unfold overwrite
    split
    next hd => rw [List.map_cons, List.map_cons, kind_carryOver, hd]
    next => rw [List.map_cons, List.map_cons, ih]

/-- The kinds stand in the order of their bytes, and none of them twice. -/
def InOrder (cs : List (Condition τ)) : Prop :=
  cs.Pairwise fun a b => Text.bytes a.kind < Text.bytes b.kind

theorem inOrder_iff : InOrder cs ↔ (cs.map kind).Pairwise (· < ·) := by
  unfold InOrder
  rw [List.pairwise_map]
  simp only [Text.lt_iff_bytes_lt]

theorem inOrder_set (h : InOrder cs) (c : Condition τ) : InOrder (set cs c) := by
  rw [inOrder_iff] at h ⊢
  unfold set
  split
  next => rwa [map_kind_overwrite]
  next hnone =>
    have hnew : c.kind ∉ cs.map kind := by
      rw [List.mem_map]
      rintro ⟨d, hd, hk⟩
      exact List.find?_eq_none.mp hnone d hd (decide_eq_true hk)
    have hnodup : ((sortByKind (cs ++ [c])).map kind).Nodup := by
      have hperm : ((sortByKind (cs ++ [c])).map kind).Perm (c.kind :: cs.map kind) :=
        ((List.mergeSort_perm _ _).trans (List.perm_append_singleton c cs)).map kind
      exact hperm.nodup_iff.mpr (List.nodup_cons.mpr ⟨hnew, h.imp String.ne_of_lt⟩)
    have hsorted : ((sortByKind (cs ++ [c])).map kind).Pairwise (· ≤ ·) := by
      rw [List.pairwise_map]
      exact pairwise_sortByKind (cs ++ [c])
    refine (hsorted.and hnodup).imp fun ⟨hle, hne⟩ => ?_
    exact Decidable.byContradiction fun hlt => hne (String.le_antisymm hle (String.not_lt.mp hlt))

/-! ## All writes of one kind -/

/-- The writes at the end that have the status of the last one. -/
def unbroken (writes : List (Condition τ)) : List (Condition τ) :=
  match writes.getLast? with
  | some last => writes.rtakeWhile fun c => c.status = last.status
  | none => []

theorem unbroken_concat (writes : List (Condition τ)) (c : Condition τ) :
    unbroken (writes ++ [c]) =
      if writes.getLast?.map status = some c.status then unbroken writes ++ [c] else [c] := by
  unfold unbroken
  rw [List.getLast?_concat]
  dsimp only
  rw [List.rtakeWhile_concat_pos (fun d => decide (d.status = c.status)) writes c
    (decide_eq_true rfl)]
  split
  next h =>
    obtain ⟨last, hlast, hs⟩ := Option.map_eq_some_iff.mp h
    rw [hlast]
    dsimp only
    rw [hs]
  next h =>
    -- the block before was one of another status
    rw [List.rtakeWhile_eq_nil_iff.mpr fun hne => ?_, List.nil_append]
    rw [List.getLast?_eq_some_getLast hne] at h
    simpa using h

theorem head?_unbroken {writes : List (Condition τ)} {last : Condition τ}
    (h : writes.getLast? = some last) : ∃ first, (unbroken writes).head? = some first := by
  obtain ⟨before, rfl⟩ := List.getLast?_eq_some_iff.mp h
  rw [unbroken_concat]
  split
  · exact ⟨_, List.head?_eq_some_head (by simp)⟩
  · exact ⟨last, rfl⟩

/-- What is left of the writes of one kind: the last one, with the time of the first of its
block. -/
def remains (writes : List (Condition τ)) : Option (Condition τ) :=
  match writes.getLast?, (unbroken writes).head? with
  | some last, some first => some { last with transition := first.transition }
  | _, _ => none

theorem remains_concat (writes : List (Condition τ)) (c : Condition τ) :
    remains (writes ++ [c]) = some ((remains writes).elim c fun old => carryOver old c) := by
  unfold remains
  rw [List.getLast?_concat, unbroken_concat]
  cases hlast : writes.getLast? with
  | none => rfl
  | some last =>
    obtain ⟨first, hfirst⟩ := head?_unbroken hlast
    rw [hfirst, Option.map_some]
    by_cases hs : last.status = c.status
    · rw [if_pos (congrArg some hs), List.head?_append, hfirst]
      simp [carryOver, hs]
    · rw [if_neg fun he => hs (Option.some.inj he)]
      simp [carryOver, hs]

/-! ## Histories -/

/-- A change of a list of conditions, with the reading of the clock where it needs one. -/
inductive Edit (τ : Type) where
  | set (condition : Condition τ)
  | markTrue (kind : String) (now : τ)
  | markFalse (kind reason : String) (severity : Severity) (message : String) (now : τ)

/-- The condition that a change writes. -/
def Edit.condition : Edit τ → Condition τ
  | .set c => c
  | .markTrue kind now => .holding kind now
  | .markFalse kind reason severity message now => .failing kind reason severity message now

def perform (cs : List (Condition τ)) (e : Edit τ) : List (Condition τ) := set cs e.condition

/-- A list of conditions that was empty at first. -/
def after (edits : List (Edit τ)) : List (Condition τ) := edits.foldl perform []

/-- What was written of a kind, the first one first. -/
def writes (edits : List (Edit τ)) (kind : String) : List (Condition τ) :=
  (edits.map Edit.condition).filter fun c => c.kind = kind

theorem after_concat (edits : List (Edit τ)) (e : Edit τ) :
    after (edits ++ [e]) = perform (after edits) e := List.foldl_concat ..

theorem inOrder_after (edits : List (Edit τ)) : InOrder (after edits) := by
  induction edits using List.reverseRecOn with
  | nil => exact List.Pairwise.nil
  | append_singleton edits e ih =>
    rw [after_concat]
    exact inOrder_set ih e.condition

/-- The condition of a kind is what remains of its writes. -/
theorem get?_after (edits : List (Edit τ)) (kind : String) :
    get? (after edits) kind = remains (writes edits kind) := by
  induction edits using List.reverseRecOn with
  | nil => rfl
  | append_singleton edits e ih =>
    rw [after_concat]
    unfold writes perform
    rw [List.map_append, List.filter_append]
    by_cases hk : kind = e.condition.kind
    · subst hk
      rw [get?_set_self, ih]
      simp only [List.map_cons, List.map_nil, List.filter_cons, List.filter_nil, decide_true,
        if_true]
      exact (remains_concat (writes edits e.condition.kind) e.condition).symm
    · rw [get?_set_of_ne hk, ih]
      have hnone : ([e].map Edit.condition).filter (fun c => decide (c.kind = kind)) = [] := by
        simpa using fun he : e.condition.kind = kind => hk he.symm
      rw [hnone, List.append_nil]
      rfl

/-- **A list of conditions remembers the last write of each kind, and since when its status has
stood.**  Take any changes of a list that is empty at first, with any readings of the clock.  Then
the kinds stand in order of their bytes, none of them twice.  There is no condition of a kind that
was not written; of any other it is the last one written, but for the time, which is that of the
first write of the unbroken block at the end whose writes have the present status, whatever was
written of other kinds in between.  One more change does nothing to the conditions of other
kinds. -/
theorem remembers_edits (edits : List (Edit τ)) :
    InOrder (after edits) ∧
    (∀ kind, writes edits kind = [] → get? (after edits) kind = none) ∧
    (∀ kind last, (writes edits kind).getLast? = some last →
      ∃ first, (unbroken (writes edits kind)).head? = some first ∧
        get? (after edits) kind = some { last with transition := first.transition }) ∧
    ∀ (e : Edit τ) (kind : String), kind ≠ e.condition.kind →
      get? (perform (after edits) e) kind = get? (after edits) kind := by
  refine ⟨inOrder_after edits, fun kind hnone => ?_, fun kind last hlast => ?_, fun e kind hk => ?_⟩
  · rw [get?_after, hnone]
    rfl
  · obtain ⟨first, hfirst⟩ := head?_unbroken hlast
    refine ⟨first, hfirst, ?_⟩
    rw [get?_after, remains, hlast, hfirst]
  · exact get?_set_of_ne hk (after edits)

end Condition

end InformerHub
