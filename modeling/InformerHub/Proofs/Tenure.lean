import Mathlib.Data.List.Nodup
import InformerHub.Proofs.Ledger

/-!
# Who is registered when

A tenure is the time that somebody is registered, told by the numbers of a ledger: it begins with
the number of his replay, and ends with how many deliveries had begun when he was removed.  So it is
plain which batches it covers.

A list of tenures is right about a ledger (`Enrolled`) if those who were registered when a batch
began are those whose tenures cover it, in the order in which they came.  It remains right when
somebody comes (`Enrolled.come`), when somebody is removed (`Enrolled.leave`), and when a batch
begins (`Enrolled.batch`).

What is due to a tenure is its own replay and the events of all batches that it covers
(`Tenure.due`).  It is what the calls of the deliveries have for its target (`eventsFor_calls`).
-/

namespace InformerHub

open Informer Session

variable {α : Type}

/-- The time that somebody is registered. -/
structure Tenure where
  registration : Registration Nat
  /-- The number of the replay. -/
  own : Nat
  /-- How many deliveries had begun when the registration was removed. -/
  left : Option Nat
  deriving DecidableEq, Repr

namespace Tenure

def target (tn : Tenure) : Target Nat := tn.registration.target

/-- Whether the delivery of a number began after the replay, and before the removal. -/
def covers (n : Nat) (tn : Tenure) : Bool := decide (tn.own < n) && tn.left.all (decide <| n < ·)

/-- The tenure ends if it is the one of this id, unless it has done so before. -/
def leave (id : Option Nat) (now : Nat) (tn : Tenure) : Tenure :=
  if some tn.registration.id = id then { tn with left := tn.left.or (some now) } else tn

/-- What a delivery has to tell. -/
def due (tn : Tenure) (n : Nat) : Occasion α → List (Event α)
  | .batch _ events _ => if tn.covers n then events else []
  | .replay _ stock => if n = tn.own then Event.replay stock else []
  | .aside _ => []

@[simp] theorem leave_registration (id : Option Nat) (now : Nat) (tn : Tenure) :
    (tn.leave id now).registration = tn.registration := by
  unfold leave
  split <;> rfl

@[simp] theorem leave_own (id : Option Nat) (now : Nat) (tn : Tenure) :
    (tn.leave id now).own = tn.own := by
  unfold leave
  split <;> rfl

theorem leave_none (now : Nat) (tn : Tenure) : tn.leave none now = tn := if_neg (by simp)

theorem left_leave (id : Option Nat) (now : Nat) (tn : Tenure) : (tn.leave id now).left =
    if some tn.registration.id = id then tn.left.or (some now) else tn.left := by
  unfold leave
  split <;> rfl

/-- A removal changes nothing for the deliveries that have begun. -/
theorem covers_leave (id : Option Nat) {now n : Nat} (hn : n < now) (tn : Tenure) :
    (tn.leave id now).covers n = tn.covers n := by
  unfold covers
  rw [leave_own, left_leave]
  split
  next =>
    cases tn.left with
    | none => simp [hn]
    | some l => rfl
  next => rfl

/-- Whoever is still there is there for the next delivery. -/
theorem covers_next {tn : Tenure} {n : Nat} (hown : tn.own < n)
    (hleft : ∀ l, tn.left = some l → l ≤ n) : tn.covers n = tn.left.isNone := by
  unfold covers
  cases hl : tn.left with
  | none => simp [hown]
  | some l => simp [hown, hleft l hl]

end Tenure

/-- The tenures are right about the registrations and the deliveries. -/
structure Enrolled (regs : List (Registration Nat)) (os : List (Occasion α)) (ts : List Tenure) :
    Prop where
  present : regs = (ts.filter (·.left.isNone)).map Tenure.registration
  past : ∀ tn ∈ ts, tn.own < os.length ∧ ∀ l, tn.left = some l → l ≤ os.length
  own : ∀ tn ∈ ts, ∃ stock, os[tn.own]? = some (.replay tn.registration stock)
  replays : ∀ n r stock, os[n]? = some (.replay r stock) →
    ∃ tn ∈ ts, tn.registration = r ∧ tn.own = n
  audience : ∀ n b events audience, os[n]? = some (.batch b events audience) →
    audience = (ts.filter (·.covers n)).map Tenure.registration

namespace Enrolled

variable {regs : List (Registration Nat)} {os : List (Occasion α)} {ts : List Tenure}

theorem nil : Enrolled [] ([] : List (Occasion α)) [] where
  present := rfl
  past tn htn := absurd htn List.not_mem_nil
  own tn htn := absurd htn List.not_mem_nil
  replays n r stock ho := absurd ho (by simp)
  audience n b events audience ho := absurd ho (by simp)

/-- Somebody is removed. -/
theorem leave (h : Enrolled regs os ts) (id : Option Nat) :
    Enrolled (regs.filter fun g => decide (some g.id ≠ id)) os
      (ts.map (Tenure.leave id os.length)) := by
  have hreg : Tenure.registration ∘ Tenure.leave id os.length = Tenure.registration :=
    funext fun tn => tn.leave_registration id os.length
  refine ⟨?_, ?_, ?_, ?_, ?_⟩
  · rw [h.present, List.filter_map, List.filter_filter, List.filter_map, List.map_map, hreg]
    refine congrArg _ (List.filter_congr fun tn _ => ?_)
    show (decide (some tn.registration.id ≠ id) && tn.left.isNone) =
      (tn.leave id os.length).left.isNone
    rw [Tenure.left_leave]
    by_cases hid : some tn.registration.id = id <;> simp [hid]
  · intro tn htn
    obtain ⟨old, hold, rfl⟩ := List.mem_map.mp htn
    obtain ⟨hown, hleft⟩ := h.past old hold
    rw [Tenure.leave_own, Tenure.left_leave]
    refine ⟨hown, fun l hl => ?_⟩
    split at hl
    next =>
      rcases Option.or_eq_some_iff.mp hl with hl | ⟨-, hl⟩
      · exact hleft l hl
      · exact Nat.le_of_eq (Option.some.inj hl).symm
    next => exact hleft l hl
  · intro tn htn
    obtain ⟨old, hold, rfl⟩ := List.mem_map.mp htn
    rw [Tenure.leave_own, Tenure.leave_registration]
    exact h.own old hold
  · intro n r stock ho
    obtain ⟨tn, htn, hr, hown⟩ := h.replays n r stock ho
    exact ⟨_, List.mem_map_of_mem htn, (tn.leave_registration ..).trans hr,
      (tn.leave_own ..).trans hown⟩
  · intro n b events audience ho
    have hn : n < os.length := (List.getElem?_eq_some_iff.mp ho).1
    rw [List.filter_map, List.map_map, hreg, h.audience n b events audience ho]
    exact congrArg _ (List.filter_congr fun tn _ => (tn.covers_leave id hn).symm)

/-- Somebody comes, and his replay begins. -/
theorem come (h : Enrolled regs os ts) (r : Registration Nat) (stock : List α) :
    Enrolled (regs ++ [r]) (os ++ [.replay r stock]) (ts ++ [⟨r, os.length, none⟩]) := by
  have hlength : (os ++ [Occasion.replay r stock]).length = os.length + 1 := List.length_append
  refine ⟨?_, ?_, ?_, ?_, ?_⟩
  · rw [h.present, List.filter_append, List.map_append]
    rfl
  · intro tn htn
    rw [hlength]
    rcases List.mem_append.mp htn with htn | htn
    · obtain ⟨hown, hleft⟩ := h.past tn htn
      exact ⟨Nat.lt_succ_of_lt hown, fun l hl => Nat.le_succ_of_le (hleft l hl)⟩
    · rw [List.mem_singleton.mp htn]
      exact ⟨Nat.lt_succ_self _, fun l hl => absurd hl (by simp)⟩
  · intro tn htn
    rcases List.mem_append.mp htn with htn | htn
    · obtain ⟨stock', ho⟩ := h.own tn htn
      exact ⟨stock', getElem?_concat_eq_some.mpr (Or.inl ho)⟩
    · rw [List.mem_singleton.mp htn]
      exact ⟨stock, List.getElem?_concat_length⟩
  · intro n r' stock' ho
    rcases getElem?_concat_eq_some.mp ho with ho | ⟨hn, hnew⟩
    · obtain ⟨tn, htn, hr, hown⟩ := h.replays n r' stock' ho
      exact ⟨tn, List.mem_append_left _ htn, hr, hown⟩
    · exact ⟨_, List.mem_append_right _ (List.mem_singleton_self _),
        (Occasion.replay.inj hnew).1, hn.symm⟩
  · intro n b events audience ho
    rcases getElem?_concat_eq_some.mp ho with ho | ⟨-, hlast⟩
    · have hn : n < os.length := (List.getElem?_eq_some_iff.mp ho).1
      have hnew : Tenure.covers n ⟨r, os.length, none⟩ = false := by
        unfold Tenure.covers
        rw [decide_eq_false (Nat.not_lt_of_lt hn), Bool.false_and]
      rw [List.filter_append, List.filter_singleton, hnew, h.audience n b events audience ho]
      exact (congrArg _ (List.append_nil _)).symm
    · exact absurd hlast (by simp)

/-- Something else than a replay begins to be delivered. -/
theorem concat (h : Enrolled regs os ts) {o : Occasion α}
    (hreplay : ∀ r stock, o ≠ .replay r stock)
    (hbatch : ∀ b events audience, o = .batch b events audience → audience = regs) :
    Enrolled regs (os ++ [o]) ts := by
  have hlength : (os ++ [o]).length = os.length + 1 := List.length_append
  refine ⟨h.present, ?_, ?_, ?_, ?_⟩
  · intro tn htn
    obtain ⟨hown, hleft⟩ := h.past tn htn
    rw [hlength]
    exact ⟨Nat.lt_succ_of_lt hown, fun l hl => Nat.le_succ_of_le (hleft l hl)⟩
  · intro tn htn
    obtain ⟨stock, ho⟩ := h.own tn htn
    exact ⟨stock, getElem?_concat_eq_some.mpr (Or.inl ho)⟩
  · intro n r stock ho
    rcases getElem?_concat_eq_some.mp ho with ho | ⟨-, hlast⟩
    · exact h.replays n r stock ho
    · exact absurd hlast (hreplay r stock)
  · intro n b events audience ho
    rcases getElem?_concat_eq_some.mp ho with ho | ⟨rfl, hlast⟩
    · exact h.audience n b events audience ho
    · -- the audience are those who have not been removed yet
      rw [hbatch b events audience hlast, h.present]
      refine congrArg _ (List.filter_congr fun tn htn => ?_)
      obtain ⟨hown, hleft⟩ := h.past tn htn
      exact (Tenure.covers_next hown hleft).symm

/-- A target is registered once, so the calls of a delivery have for it what is due. -/
theorem eventsFor_calls (h : Enrolled regs os ts) (hnodup : (ts.map Tenure.target).Nodup)
    {tn : Tenure} (htn : tn ∈ ts) {n : Nat} {o : Occasion α} (ho : os[n]? = some o)
    (haside : ∀ calls, o = .aside calls → ∀ c ∈ calls, c.target ≠ tn.target) :
    eventsFor (· == tn.target) o.calls = tn.due n o := by
  have heq : ∀ {tn' : Tenure}, tn' ∈ ts → tn'.target = tn.target → tn' = tn :=
    fun htn' ht => List.inj_on_of_nodup_map hnodup htn' htn ht
  unfold Occasion.calls Tenure.due
  cases o with
  | batch b events audience =>
    have haudience : audience.map Registration.target =
        (ts.filter (·.covers n)).map Tenure.target := by
      rw [h.audience n b events audience ho, List.map_map]
      rfl
    dsimp only
    rw [haudience]
    split
    next hcovers =>
      refine eventsFor_callsOf_of_one (List.count_eq_one_of_mem ?_ ?_) events
      · exact hnodup.sublist (List.filter_sublist.map _)
      · exact List.mem_map_of_mem (List.mem_filter.mpr ⟨htn, hcovers⟩)
    next hcovers =>
      refine eventsFor_callsOf_of_none (List.count_eq_zero.mpr fun hmem => hcovers ?_) events
      obtain ⟨tn', hmem', ht⟩ := List.mem_map.mp hmem
      obtain ⟨htn', hcovers'⟩ := List.mem_filter.mp hmem'
      exact heq htn' ht ▸ hcovers'
  | replay r stock =>
    obtain ⟨tn', htn', rfl, rfl⟩ := h.replays n r stock ho
    dsimp only
    rw [eventsFor_callsOf_singleton]
    by_cases ht : tn'.registration.target = tn.target
    · rw [ht, if_pos (beq_self_eq_true tn.target), heq htn' ht, if_pos rfl]
    · have hown : tn'.own ≠ tn.own := by
        -- a number is that of one replay only
        intro hown
        obtain ⟨stock', ho'⟩ := h.own tn htn
        rw [← hown, ho] at ho'
        exact ht (congrArg Registration.target (Occasion.replay.inj (Option.some.inj ho')).1)
      rw [if_neg fun hb => ht (eq_of_beq hb), if_neg hown]
  | aside calls =>
    unfold eventsFor
    rw [List.map_eq_nil_iff, List.filter_eq_nil_iff]
    intro c hc hb
    exact haside calls rfl c hc (eq_of_beq hb)

end Enrolled

/-! ## All that is due -/

/-- All that is due to a tenure, with the numbers of the deliveries. -/
def Tenure.dues (tn : Tenure) (os : List (Occasion α)) : List (Nat × Event α) :=
  os.zipIdx.flatMap fun x => (tn.due x.2 x.1).map fun e => (x.2, e)

theorem Tenure.dues_concat (tn : Tenure) (os : List (Occasion α)) (o : Occasion α) :
    tn.dues (os ++ [o]) = tn.dues os ++ (tn.due os.length o).map fun e => (os.length, e) := by
  unfold dues
  rw [List.zipIdx_append, List.flatMap_append, List.zipIdx_singleton, List.flatMap_singleton,
    Nat.zero_add]

theorem Tenure.lt_of_mem_dues {tn : Tenure} {os : List (Occasion α)} {x : Nat × Event α}
    (hx : x ∈ tn.dues os) : x.1 < os.length := by
  obtain ⟨⟨o, n⟩, ho, hmem⟩ := List.mem_flatMap.mp hx
  obtain ⟨e, -, rfl⟩ := List.mem_map.mp hmem
  exact (List.getElem?_eq_some_iff.mp (List.mem_zipIdx_iff_getElem?.mp ho)).1

/-- The dues are ordered, and each delivery has its own part of them. -/
theorem Tenure.dues_spec (tn : Tenure) (os : List (Occasion α)) :
    (tn.dues os).Pairwise (·.1 ≤ ·.1) ∧ ∀ n, (tn.dues os).filter (·.1 == n) =
      (os[n]?.elim [] (tn.due n)).map fun e => (n, e) := by
  induction os using List.reverseRecOn with
  | nil => exact ⟨.nil, fun n => rfl⟩
  | append_singleton os o ih =>
    obtain ⟨hsorted, hparts⟩ := ih
    have hold : ∀ x ∈ tn.dues os, x.1 < os.length := fun x hx => Tenure.lt_of_mem_dues hx
    have hnew : ∀ y ∈ (tn.due os.length o).map (fun e => (os.length, e)), y.1 = os.length := by
      intro y hy
      obtain ⟨e, -, rfl⟩ := List.mem_map.mp hy
      rfl
    rw [tn.dues_concat]
    refine ⟨List.pairwise_append.mpr ⟨hsorted, ?_, fun x hx y hy => ?_⟩, fun n => ?_⟩
    · exact List.pairwise_map.mpr (List.pairwise_of_forall fun _ _ => Nat.le_refl _)
    · rw [hnew y hy]
      exact Nat.le_of_lt (hold x hx)
    · rw [List.filter_append, hparts]
      by_cases hn : n = os.length
      · subst hn
        rw [List.getElem?_eq_none (Nat.le_refl _), List.getElem?_concat_length]
        refine (List.nil_append _).trans (List.filter_eq_self.mpr fun y hy => ?_)
        exact beq_iff_eq.mpr (hnew y hy)
      · have hnone : ((tn.due os.length o).map fun e => (os.length, e)).filter (·.1 == n) = [] := by
          refine List.filter_eq_nil_iff.mpr fun y hy hb => hn ?_
          rw [← hnew y hy]
          exact (eq_of_beq hb).symm
        rw [hnone, List.append_nil]
        by_cases hlt : n < os.length
        · rw [List.getElem?_append_left hlt]
        · have hle : os.length + 1 ≤ n := by omega
          rw [List.getElem?_eq_none (Nat.le_of_lt hle),
            List.getElem?_eq_none (by rw [List.length_append]; exact hle)]

/-- What is due to two tenures from the deliveries that both cover is the same. -/
theorem Tenure.dues_alike (tn tn' : Tenure) (os : List (Occasion α)) :
    (tn.dues os).filter (fun x => tn.covers x.1 && tn'.covers x.1) =
      (tn'.dues os).filter fun x => tn.covers x.1 && tn'.covers x.1 := by
  have hpast : ∀ {tn : Tenure} {n : Nat}, tn.covers n = true → n ≠ tn.own := by
    intro tn n hcovers hn
    have hlt := of_decide_eq_true (Bool.and_eq_true_iff.mp hcovers).1
    exact Nat.lt_irrefl _ (hn ▸ hlt)
  unfold dues
  rw [List.filter_flatMap, List.filter_flatMap]
  refine List.flatMap_congr fun x _ => ?_
  by_cases hboth : tn.covers x.2 = true ∧ tn'.covers x.2 = true
  · have hdue : tn.due x.2 x.1 = tn'.due x.2 x.1 := by
      obtain ⟨h, h'⟩ := hboth
      unfold due
      cases x.1 with
      | batch b events audience => dsimp only; rw [if_pos h, if_pos h']
      | replay r stock => dsimp only; rw [if_neg (hpast h), if_neg (hpast h')]
      | aside calls => rfl
    rw [hdue]
  · -- neither of them counts a delivery that is not covered by both
    have hnone : ∀ es : List (Event α), (es.map fun e => (x.2, e)).filter
        (fun y => tn.covers y.1 && tn'.covers y.1) = [] := by
      intro es
      refine List.filter_eq_nil_iff.mpr fun y hy hb => hboth ?_
      obtain ⟨e, -, rfl⟩ := List.mem_map.mp hy
      exact Bool.and_eq_true_iff.mp hb
    rw [hnone, hnone]

end InformerHub
