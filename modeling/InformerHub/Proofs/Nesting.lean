import InformerHub.Proofs.Attendance
import InformerHub.Proofs.Session

/-!
# Deliveries inside one another

A fan-out passes an event on by a delivery inside the one that calls it, and while it does so its
handlers may bring about further deliveries inside that one.  None of these has a call for the
fan-out (`Apart`): a batch begins only at rest, a replay is for somebody who has just come, and
another fan-out passes its events on to handlers.  So no dispatch begins inside another one of the
same fan-out, which is what `Holds` keeps track of.
-/

namespace InformerHub.Session

open Informer

variable {α : Type}

/-! ## The dispatch under way -/

/-- A delivery has no call for the fan-out. -/
def Apart (index : Nat) (d : Delivery α Nat) : Prop := ∀ c ∈ d.pending, c.target ≠ .fanOut index

/-- No dispatch is under way, or one that has `rest` left, and no further one will begin inside it.
The other deliveries are `others`. -/
def Holds (index : Nat) (under : Option Nat) (ds : List (Delivery α Nat))
    (rest : List (Call α Nat)) (others : List (Delivery α Nat)) : Prop :=
  under = none ∧ rest = [] ∧ others = ds ∨
    ∃ inner completes outer, under = some (outer.length + 1) ∧
      ds = inner ++ ⟨rest, completes⟩ :: outer ∧ others = inner ++ outer ∧
        ∀ d ∈ inner, Apart index d

section Holds

variable {index : Nat} {under : Option Nat} {ds others : List (Delivery α Nat)}
  {rest calls : List (Call α Nat)} {completes : Bool} {c : Call α Nat}

theorem Holds.push (h : Holds index under ds rest others) (pushed : List (Delivery α Nat))
    (hp : ∀ d ∈ pushed, Apart index d) :
    Holds index under (pushed ++ ds) rest (pushed ++ others) := by
  rcases h with ⟨hu, hr, ho⟩ | ⟨inner, b, outer, hu, hd, ho, hi⟩
  · exact Or.inl ⟨hu, hr, congrArg _ ho⟩
  · refine Or.inr ⟨pushed ++ inner, b, outer, hu, ?_, ?_, fun d hd => ?_⟩
    · rw [hd, List.append_assoc]
    · rw [ho, List.append_assoc]
    · exact (List.mem_append.mp hd).elim (hp d) (hi d)

theorem Holds.mem_of_others (h : Holds index under ds rest others) {d : Delivery α Nat}
    (hd : d ∈ others) : d ∈ ds := by
  rcases h with ⟨-, -, rfl⟩ | ⟨inner, b, outer, -, rfl, rfl, -⟩
  · exact hd
  · exact List.mem_append.mpr ((List.mem_append.mp hd).imp_right fun hd =>
      List.mem_cons_of_mem _ hd)

/-- With nothing to deliver, no dispatch is under way. -/
theorem Holds.of_nil (h : Holds index under ([] : List (Delivery α Nat)) rest others) :
    under = none ∧ rest = [] ∧ others = [] := by
  rcases h with h | ⟨inner, b, outer, -, hd, -, -⟩
  · exact h
  · exact absurd hd (by simp)

/-- The innermost delivery belongs to the dispatch under way, or it is another one. -/
theorem Holds.cases_cons (h : Holds index under (⟨calls, completes⟩ :: ds) rest others) :
    under = some (ds.length + 1) ∧ rest = calls ∧ others = ds ∨
      under ≠ some (ds.length + 1) ∧ (∃ others', others = ⟨calls, completes⟩ :: others' ∧
        Holds index under ds rest others') ∧ (under = none ∨ Apart index ⟨calls, completes⟩) := by
  rcases h with ⟨rfl, rfl, rfl⟩ | ⟨inner, b, outer, rfl, hd, rfl, hi⟩
  · exact Or.inr ⟨by simp, ⟨ds, rfl, Or.inl ⟨rfl, rfl, rfl⟩⟩, Or.inl rfl⟩
  · cases inner with
    | nil =>
      obtain ⟨hhead, rfl⟩ := List.cons.inj hd
      exact Or.inl ⟨rfl, congrArg Delivery.pending hhead.symm, rfl⟩
    | cons d inner =>
      obtain ⟨rfl, rfl⟩ := List.cons.inj hd
      refine Or.inr ⟨?_, ⟨inner ++ outer, rfl, Or.inr ⟨inner, b, outer, rfl, rfl, rfl,
        fun d hd => hi d (List.mem_cons_of_mem _ hd)⟩⟩, Or.inr (hi _ List.mem_cons_self)⟩
      -- there is a delivery further inside
      intro hu
      have hlength : outer.length + 1 = (inner ++ ⟨rest, b⟩ :: outer).length + 1 :=
        Option.some.inj hu
      rw [List.length_append, List.length_cons] at hlength
      omega

/-- The dispatch under way makes a call. -/
theorem Holds.next_own (h : Holds index under (⟨c :: calls, completes⟩ :: ds) rest others)
    (hu : under = some (ds.length + 1)) : rest = c :: calls ∧ others = ds ∧
      Holds index under (⟨calls, completes⟩ :: ds) calls others := by
  rcases h.cases_cons with ⟨-, hr, ho⟩ | ⟨hne, -⟩
  · exact ⟨hr, ho, Or.inr ⟨[], completes, ds, hu, rfl, ho, fun _ hd => absurd hd List.not_mem_nil⟩⟩
  · exact absurd hu hne

/-- Another delivery makes a call, which is for the fan-out only if no dispatch is under way. -/
theorem Holds.next_other (h : Holds index under (⟨c :: calls, completes⟩ :: ds) rest others)
    (hu : under ≠ some (ds.length + 1)) : ∃ others', others = ⟨c :: calls, completes⟩ :: others' ∧
      Holds index under (⟨calls, completes⟩ :: ds) rest (⟨calls, completes⟩ :: others') ∧
        (c.target = .fanOut index → under = none) := by
  rcases h.cases_cons with ⟨hown, -⟩ | ⟨-, ⟨others', ho, hholds⟩, hdone⟩
  · exact absurd hown hu
  · refine ⟨others', ho, ?_, fun ht => ?_⟩
    · rcases hdone with hnone | hapart
      · rcases hholds with ⟨-, hr, ho'⟩ | ⟨_, _, _, hsome, -⟩
        · exact Or.inl ⟨hnone, hr, congrArg _ ho'⟩
        · exact absurd (hnone.symm.trans hsome) (by simp)
      · refine hholds.push [⟨calls, completes⟩] fun d hd c' hc' => ?_
        rw [List.mem_singleton.mp hd] at hc'
        exact hapart c' (List.mem_cons_of_mem c hc')
    · exact hdone.resolve_right fun hapart => hapart c List.mem_cons_self ht

/-- A delivery ends, and with it the dispatch under way if it is its own. -/
theorem Holds.close (h : Holds index under (⟨[], completes⟩ :: ds) rest others) :
    ∃ others', (∀ d ∈ others', d ∈ others) ∧
      Holds index (if under = some (ds.length + 1) then none else under) ds rest others' := by
  rcases h.cases_cons with ⟨hu, rfl, rfl⟩ | ⟨hu, ⟨others', rfl, hholds⟩, -⟩
  · exact ⟨others, fun _ hd => hd, Or.inl ⟨if_pos hu, rfl, rfl⟩⟩
  · rw [if_neg hu]
    exact ⟨others', fun _ hd => List.mem_cons_of_mem _ hd, hholds⟩

end Holds

/-! ## What an act adds to the deliveries -/

/-- Only replays begin when something is requested, and none is for a fan-out that is there. -/
theorem deliveries_carryOut {inf : Informer α Nat} {index : Nat} (hi : index < inf.fanOuts.length)
    (n : Nat) (r : Request) : ∃ pushed, (r.carryOut inf n).deliveries = pushed ++ inf.deliveries ∧
      ∀ d ∈ pushed, Apart index d ∧ ∀ c ∈ d.pending, ∃ a, c.event = .add a true := by
  have hnone : ∃ pushed : List (Delivery α Nat), inf.deliveries = pushed ++ inf.deliveries ∧
      ∀ d ∈ pushed, Apart index d ∧ ∀ c ∈ d.pending, ∃ a, c.event = .add a true :=
    ⟨[], rfl, fun _ hd => absurd hd List.not_mem_nil⟩
  have hreplay : ∀ t : Target Nat, t ≠ .fanOut index → ∃ pushed : List (Delivery α Nat),
      ⟨callsOf (Event.replay inf.store.list) [t], false⟩ :: inf.deliveries =
        pushed ++ inf.deliveries ∧
      ∀ d ∈ pushed, Apart index d ∧ ∀ c ∈ d.pending, ∃ a, c.event = .add a true := by
    intro t ht
    refine ⟨[_], rfl, fun d hd => ?_⟩
    rw [List.mem_singleton.mp hd]
    refine ⟨fun c hc htarget => ht ?_, fun c hc => ?_⟩
    · exact (List.mem_singleton.mp (of_mem_callsOf hc).2).symm.trans htarget
    · obtain ⟨a, -, he⟩ := List.mem_map.mp (of_mem_callsOf hc).1
      exact ⟨a, he.symm⟩
  cases r with
  | addHandler a =>
    cases a with
    | direct => exact hreplay _ (by simp)
    | dynamic => exact hnone
  | removeHandler a id => cases a <;> exact hnone
  | addFanOut a =>
    cases a with
    | direct => exact hreplay _ fun he => Nat.ne_of_gt hi (Target.fanOut.inj he)
    | dynamic => exact hnone
  | dropFanOut k =>
    unfold Request.carryOut dropFanOut
    dsimp only
    split <;> exact hnone
  | join k name =>
    simp only [Request.carryOut, join?]
    cases inf.fanOuts[k]? with
    | none => exact hnone
    | some f => exact hreplay (.handler n) (by simp)
  | leave k key =>
    unfold Request.carryOut leave
    dsimp only
    split <;> exact hnone

section Acts

variable [Object α]

/-- A batch begins at rest, with calls for what is registered. -/
theorem deliveries_batch (x : Session α) (b : Batch α) :
    (x.perform (.batch b)).informer.deliveries = x.informer.deliveries ∨
      x.AtRest ∧ ∃ es completes, (x.perform (.batch b)).informer.deliveries =
        [⟨callsOf es x.informer.targets, completes⟩] := by
  by_cases hr : x.AtRest
  · rw [perform_batch_of_atRest hr]
    have hd : x.informer.deliveries = [] := hr
    cases b with
    | relist items => exact Or.inr ⟨hr, _, _, congrArg _ hd⟩
    | change c =>
      show (x.informer.change c).1.deliveries = _ ∨ _ ∧ ∃ es completes,
        (x.informer.change c).1.deliveries = _
      unfold change
      split
      next => exact Or.inr ⟨hr, _, _, congrArg _ hd⟩
      next => exact Or.inl rfl
    | resync => exact Or.inr ⟨hr, _, _, congrArg _ hd⟩
  · rw [perform_batch_of_not_atRest hr]
    exact Or.inl rfl

theorem calls_batch (x : Session α) (b : Batch α) : (x.perform (.batch b)).calls = x.calls := by
  unfold Session.perform
  dsimp only
  split <;> rfl

theorem steady_batch (x : Session α) (b : Batch α) :
    Steady x.informer (x.perform (.batch b)).informer := by
  rcases steady_perform x (.batch b) with ⟨r, hr⟩ | hs
  · exact absurd hr (by simp)
  · exact hs

/-- Where the next call leads. -/
theorem deliveries_call {x : Session α} {c : Call α Nat} {cs : List (Call α Nat)}
    {completes : Bool} {ds : List (Delivery α Nat)}
    (hd : x.informer.deliveries = ⟨c :: cs, completes⟩ :: ds) :
    (x.perform .proceed).informer.deliveries =
      match c.target with
      | .handler _ => ⟨cs, completes⟩ :: ds
      | .fanOut k =>
        ⟨callsOf [c.event] (x.informer.joined k), false⟩ :: ⟨cs, completes⟩ :: ds := by
  unfold Session.perform next?
  dsimp only
  rw [hd]
  dsimp only
  unfold pass
  cases c.target <;> rfl

omit [Object α] in
/-- The calls for those who are there are the calls of a dispatch. -/
theorem calls_dispatch {x : Session α} {index : Nat} {f : FanOut Nat}
    (hf : x.informer.fanOuts[index]? = some f) (e : Event α) :
    callsOf [e] (x.informer.joined index) = Dispatch.calls ⟨e, f.handlers.entries⟩ := by
  rw [joined_of_getElem? hf]
  unfold callsOf Dispatch.calls SortedMap.values
  rw [List.flatMap_singleton, List.map_map, List.map_map]
  rfl

end Acts

end InformerHub.Session
