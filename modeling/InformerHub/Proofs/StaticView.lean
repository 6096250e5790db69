import Mathlib.Data.List.Induction
import InformerHub.Proofs.Registrations
import InformerHub.Scenario.Object

/-!
# The view of a handler

A handler that is registered with an informer can trust every event, and what it makes of them is
the content of the store whenever nothing is being delivered (`view_of_registered`).  It may have
been registered at any time, also from inside a callback in the middle of a batch, when the store
is ahead of the events that are still to come.

The invariant is `Follows`, for a target that has come: what it is told, the events it has heard
and those that the deliveries still hold for it, is a strict history, and as long as the target is
registered that history leads to the content of the store.  A registration begins it, since the
replay is all that there is for the newcomer (`follows_register`); a batch puts a strict history
behind it; no other act changes what is told (`follows_perform`).

The same holds of fan-outs (`follows_fanOut`), which are registered once, when they are added.
-/

namespace InformerHub.Session

open Informer History

variable {α : Type} [Object α] {s : Session α} {t : Target Nat}

/-- What a target is told can be trusted, and leads to the content of the store as long as the
target is registered. -/
structure Follows (s : Session α) (t : Target Nat) : Prop where
  known : s.Known t
  once : s.informer.targets.count t ≤ 1
  /-- It is behind no fan-out. -/
  apart : ∀ k, (s.informer.joined k).count t = 0
  strict : Strict ∅ (s.told t (· == t))
  current : t ∈ s.informer.targets → view ∅ (s.told t (· == t)) = s.informer.store.items

/-- A target that is registered, whatever else happens in the same act, is told all that is stored
and nothing that is left of a batch. -/
theorem follows_register {s' : Session α} (hs : s.informer.store.Sound) (h : s.Absent t)
    (hknown : s'.Known t) (hcalls : s'.calls = s.calls)
    (hstore : s'.informer.store = s.informer.store)
    (hregs : s'.informer.registrations = (s.informer.register t).1.registrations)
    (hdels : s'.informer.deliveries = (s.informer.register t).1.deliveries)
    (hj : ∀ k, s'.informer.joined k = s.informer.joined k) : s'.Follows t := by
  obtain ⟨hheard, hahead⟩ := List.append_eq_nil_iff.mp h.untold
  have htargets : s'.informer.targets = s.informer.targets ++ [t] := by
    rw [← targets_register]
    unfold targets
    rw [hregs]
  have htold : s'.told t (· == t) = Event.replay s.informer.store.list := by
    have hnew : s'.informer.ahead (· == t) = (s.informer.register t).1.ahead (· == t) := by
      unfold ahead
      rw [hdels]
    have hold : s'.heard t = [] := by
      rw [← hheard]
      unfold heard
      rw [hcalls]
    unfold told
    rw [hold, hnew, ahead_register, hahead, beq_self_eq_true, List.append_nil]
    rfl
  have hl := Store.leads_replay hs
  refine ⟨hknown, Nat.le_of_eq ?_, fun k => ?_, ?_, fun _ => ?_⟩
  · rw [htargets, List.count_append, h.unregistered, List.count_singleton_self]
  · rw [hj]
    exact h.apart k
  · rw [htold]
    exact hl.strict
  · rw [htold, hstore]
    exact hl.ends

theorem follows_perform (hs : s.informer.store.Sound) (h : s.Follows t) (a : Act α) :
    (s.perform a).Follows t := by
  have hw : Wanes s (s.perform a) (· == t) := wanes_perform (known_of_beq h.known)
  have he := tells_perform (a := a) hs h.once (routed_self h.apart) (known_of_beq h.known)
  refine ⟨known_perform h.known a, Nat.le_trans hw.registered h.once,
    fun k => Nat.le_zero.mp (h.apart k ▸ hw.joined k), ?_, fun ht => ?_⟩
  · rw [he.told]
    split
    next hany =>
      -- registered, so up to date, and the new events follow strictly
      obtain ⟨u, hu, hut⟩ := List.any_eq_true.mp hany
      rw [eq_of_beq hut] at hu
      refine strict_append.mpr ⟨h.strict, ?_⟩
      rw [h.current hu]
      exact he.leads.strict
    next =>
      rw [List.append_nil]
      exact h.strict
  · -- no act brings a target back, so one that is registered was so before
    have ht₀ := hw.mem_targets ht
    have hany : s.informer.targets.any (· == t) = true :=
      List.any_eq_true.mpr ⟨t, ht₀, beq_self_eq_true t⟩
    rw [he.told, hany, if_pos rfl, view_append, h.current ht₀]
    exact he.leads.ends

/-- A fan-out follows the store from the moment it is added. -/
theorem follows_fanOut (acts : List (Act α)) (index : Nat)
    (hi : index < (run acts).informer.fanOuts.length) : (run acts).Follows (.fanOut index) := by
  induction acts using List.reverseRecOn with
  | nil => exact absurd hi (Nat.not_lt_zero index)
  | append_singleton acts a ih =>
    rw [run_concat] at hi ⊢
    by_cases hold : index < (run acts).informer.fanOuts.length
    · exact follows_perform (sound_run acts) (ih hold) a
    · -- the act has just added the fan-out
      rcases fanOuts_perform (run acts) a with hl | ⟨rfl, hl⟩
      · exact absurd (hl ▸ hi) hold
      · obtain rfl : index = (run acts).informer.fanOuts.length := by omega
        exact follows_register (sound_run acts) (absent_run acts _ (Nat.lt_irrefl _)) hi rfl rfl rfl
          rfl (joined_append_new _ _)

/-- A handler follows the store from the moment it is registered. -/
theorem follows_handler (before after : List (Act α)) :
    (run (before ++ .request (.addHandler .direct) :: after)).Follows
      (.handler (run before).arrivals) := by
  have hs := sound_run before
  have hnew : ((run before).perform (.request (.addHandler .direct))).Follows
      (.handler (run before).arrivals) :=
    follows_register hs (absent_run before _ (Nat.lt_irrefl _)) (Nat.lt_succ_self _) rfl rfl
      rfl rfl fun _ => rfl
  show (List.foldl perform new (before ++ _ :: after)).Follows _
  rw [List.foldl_append]
  exact foldl_invariant (fun _ a hs h => follows_perform hs h a) after (sound_perform hs _) hnew

/-- **What a handler makes of its events is the content of the store.**  Take any acts, and a
handler that is registered at any moment of them.  The events it has received form a strict
history; and whenever nothing is being delivered, and the handler is registered, that history leads
from the empty map to the content of the store.  It is registered until its id is removed. -/
theorem view_of_registered (before after : List (Act α)) :
    let handler : Target Nat := .handler (run before).arrivals
    let s := run (before ++ .request (.addHandler .direct) :: after)
    Strict ∅ (s.heard handler) ∧
      (handler ∈ s.informer.targets → s.AtRest →
        view ∅ (s.heard handler) = s.informer.store.items) ∧
      (.request (.removeHandler .direct (run before).informer.nextId) ∉ after →
        handler ∈ s.informer.targets) := by
  intro handler s
  have h : s.Follows handler := follows_handler before after
  refine ⟨(strict_append.mp h.strict).1, fun hm hr => ?_, registered_of_kept before after⟩
  rw [← told_of_atRest hr handler (· == handler)]
  exact h.current hm

/-- An item of the runs below. -/
def item (name : String) (version : Nat) : Scenario.Obj := .item ⟨none, name, version, []⟩

/-- A list names an item twice, and the first of its three events has been told to a handler. -/
def midList : List (Act Scenario.Obj) :=
  [.request (.addHandler .direct), .proceed,
    .batch (.relist [item "a" 1, item "b" 1, item "a" 2]), .proceed]

/-- The rest of the list is delivered, and an item is deleted. -/
def afterList : List (Act Scenario.Obj) :=
  List.replicate 6 .proceed ++
    .batch (.change (.deleted (item "b" 1))) :: List.replicate 3 .proceed

/-- A handler that is registered inside that first callback hears the later version alone, and the
deletion. -/
theorem view_of_registered_in_callback :
    let handler : Target Nat := .handler (run midList).arrivals
    let s := run (midList ++ .request (.addHandler .direct) :: afterList)
    handler ∈ s.informer.targets ∧ s.AtRest ∧
      s.heard handler = [.add (item "a" 2) true, .add (item "b" 1) true, .delete (item "b" 1)] ∧
      view ∅ (s.heard handler) = s.informer.store.items := by
  obtain ⟨-, hview, hstays⟩ := view_of_registered midList afterList
  have hm := hstays (by simp [afterList])
  have hr : (run (midList ++ .request (.addHandler .direct) :: afterList)).AtRest :=
    List.isEmpty_iff.mp (by decide +kernel)
  exact ⟨hm, hr, by decide +kernel, hview hm hr⟩

end InformerHub.Session
