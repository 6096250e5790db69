import Mathlib.Data.List.Nodup
import InformerHub.Informer
import InformerHub.Proofs.SortedMap

/-!
# Who is told what

A fan-out dispatches one event after the other, each to the handlers that are behind it at that
moment.  This module is about the record of all that: the dispatches that have begun, and for every
handler the time that it stayed, where the time is the number of dispatches that have begun.

A record is right (`Attended`) if the audience of every dispatch are the handlers that stayed then.
It remains so when a handler comes, when one leaves, and when a dispatch begins.

> A handler is told the events of its stay, each of them once, in their order
> (`Attended.forHandler_numbered`).
-/

namespace InformerHub

open Informer

variable {α : Type}

/-- An event that a fan-out passes on, and the handlers behind it when it began to. -/
structure Dispatch (α : Type) where
  event : Event α
  audience : List (HandlerKey × Nat)
  deriving DecidableEq, Repr

/-- The calls of a dispatch in their order. -/
def Dispatch.calls (d : Dispatch α) : List (Call α Nat) :=
  d.audience.map fun e => ⟨.handler e.2, d.event⟩

/-- The time that a handler is behind a fan-out. -/
structure Stay where
  key : HandlerKey
  handler : Nat
  /-- How many dispatches had begun when it came, one under way included. -/
  since : Nat
  /-- How many had begun when it left. -/
  left : Option Nat
  deriving DecidableEq, Repr

namespace Stay

/-- Whether the dispatch of a number began during a stay. -/
def covers (st : Stay) (i : Nat) : Bool := decide (st.since ≤ i) && st.left.all (decide <| i < ·)

/-- The stay of a key ends, unless it has done so before. -/
def leave (key : HandlerKey) (now : Nat) (st : Stay) : Stay :=
  if st.key = key then { st with left := st.left.or (some now) } else st

@[simp] theorem leave_key (key : HandlerKey) (now : Nat) (st : Stay) :
    (st.leave key now).key = st.key := by
  unfold leave
  split <;> rfl

@[simp] theorem leave_handler (key : HandlerKey) (now : Nat) (st : Stay) :
    (st.leave key now).handler = st.handler := by
  unfold leave
  split <;> rfl

@[simp] theorem leave_since (key : HandlerKey) (now : Nat) (st : Stay) :
    (st.leave key now).since = st.since := by
  unfold leave
  split <;> rfl

theorem left_leave (key : HandlerKey) (now : Nat) (st : Stay) :
    (st.leave key now).left = if st.key = key then st.left.or (some now) else st.left := by
  unfold leave
  split <;> rfl

/-- Leaving changes nothing for the dispatches that have begun. -/
theorem covers_leave (key : HandlerKey) {now i : Nat} (st : Stay) (hi : i < now) :
    (st.leave key now).covers i = st.covers i := by
  unfold covers
  rw [leave_since, left_leave]
  split
  next =>
    cases st.left with
    | none => simp [hi]
    | some l => rfl
  next => rfl

/-- The next dispatch is for those that have not left. -/
theorem covers_next {st : Stay} {n : Nat} (hsince : st.since ≤ n)
    (hleft : ∀ l, st.left = some l → l ≤ n) : st.covers n = true ↔ st.left = none := by
  unfold covers
  cases hl : st.left with
  | none => simp [hsince]
  | some l =>
    have hle := hleft l hl
    simp [hsince, hle]

end Stay

/-! ## Lists of calls -/

/-- The calls of some dispatches, with the numbers of the dispatches. -/
def numbered (ds : List (Dispatch α)) : List (Nat × Call α Nat) :=
  ds.zipIdx.flatMap fun x => x.1.calls.map fun c => (x.2, c)

/-- What a handler is told by some of them. -/
def forHandler (n : Nat) (cs : List (Nat × Call α Nat)) : List (Nat × Event α) :=
  (cs.filter fun c => c.2.target == .handler n).map fun c => (c.1, c.2.event)

/-- The events of a stay, with the numbers of their dispatches. -/
def Stay.events (st : Stay) (ds : List (Dispatch α)) : List (Nat × Event α) :=
  (ds.zipIdx.filter fun x => st.covers x.2).map fun x => (x.2, x.1.event)

theorem numbered_concat (ds : List (Dispatch α)) (d : Dispatch α) :
    numbered (ds ++ [d]) = numbered ds ++ d.calls.map fun c => (ds.length, c) := by
  unfold numbered
  rw [List.zipIdx_append, List.flatMap_append, List.zipIdx_singleton, List.flatMap_singleton,
    Nat.zero_add]

theorem lt_of_mem_numbered {ds : List (Dispatch α)} {x : Nat × Call α Nat}
    (h : x ∈ numbered ds) : x.1 < ds.length := by
  obtain ⟨⟨d, i⟩, hy, hx⟩ := List.mem_flatMap.mp h
  obtain ⟨c, -, rfl⟩ := List.mem_map.mp hx
  exact (List.getElem?_eq_some_iff.mp (List.mk_mem_zipIdx_iff_getElem?.mp hy)).1

/-- Dispatches call handlers. -/
theorem handler_of_mem_numbered {ds : List (Dispatch α)} {x : Nat × Call α Nat}
    (h : x ∈ numbered ds) : ∃ n, x.2.target = .handler n := by
  obtain ⟨y, -, hx⟩ := List.mem_flatMap.mp h
  obtain ⟨c, hc, rfl⟩ := List.mem_map.mp hx
  obtain ⟨e, -, rfl⟩ := List.mem_map.mp hc
  exact ⟨e.2, rfl⟩

theorem forHandler_append (n : Nat) (cs cs' : List (Nat × Call α Nat)) :
    forHandler n (cs ++ cs') = forHandler n cs ++ forHandler n cs' := by
  unfold forHandler
  rw [List.filter_append, List.map_append]

/-- Two handlers that stay from `a` until `b` have the same events between the two. -/
theorem Stay.events_between {st st' : Stay} {a b : Nat}
    (h : ∀ i, a ≤ i → i < b → st.covers i = true ∧ st'.covers i = true)
    (ds : List (Dispatch α)) :
    (st.events ds).filter (fun x => decide (a ≤ x.1) && decide (x.1 < b)) =
      (st'.events ds).filter fun x => decide (a ≤ x.1) && decide (x.1 < b) := by
  unfold events
  rw [List.filter_map, List.filter_map, List.filter_filter, List.filter_filter]
  refine congrArg _ (List.filter_congr fun x _ => ?_)
  dsimp only [Function.comp]
  by_cases hx : a ≤ x.2 ∧ x.2 < b
  · obtain ⟨hst, hst'⟩ := h x.2 hx.1 hx.2
    rw [hst, hst']
  · have hno : (decide (a ≤ x.2) && decide (x.2 < b)) = false := by
      simpa using hx
    rw [hno, Bool.false_and, Bool.false_and]

/-! ## Right records -/

/-- The audience of every dispatch are the handlers that stayed then, in the order of their keys. -/
structure Attended (stays : List Stay) (ds : List (Dispatch α)) : Prop where
  keys : (stays.map Stay.key).Nodup
  handlers : (stays.map Stay.handler).Nodup
  since : ∀ st ∈ stays, st.since ≤ ds.length
  left : ∀ st ∈ stays, ∀ l, st.left = some l → l ≤ ds.length
  ordered : ∀ d ∈ ds, (d.audience.map Prod.fst).Pairwise fun a b => compare a b = .lt
  known : ∀ d ∈ ds, ∀ e ∈ d.audience, ∃ st ∈ stays, (st.key, st.handler) = e
  covered : ∀ st ∈ stays, ∀ i d, ds[i]? = some d →
    ((st.key, st.handler) ∈ d.audience ↔ st.covers i = true)

namespace Attended

variable {stays : List Stay} {ds : List (Dispatch α)}

theorem nil : Attended [] ([] : List (Dispatch α)) where
  keys := List.nodup_nil
  handlers := List.nodup_nil
  since _ h := absurd h List.not_mem_nil
  left _ h := absurd h List.not_mem_nil
  ordered _ h := absurd h List.not_mem_nil
  known _ h := absurd h List.not_mem_nil
  covered _ h := absurd h List.not_mem_nil

/-- A handler comes.  The dispatch under way, if there is one, has begun without it. -/
theorem come (h : Attended stays ds) {key : HandlerKey} {n : Nat}
    (hkey : key ∉ stays.map Stay.key) (hn : n ∉ stays.map Stay.handler) :
    Attended (stays ++ [⟨key, n, ds.length, none⟩]) ds := by
  have hnew : ∀ {P : Stay → Prop}, (∀ st ∈ stays, P st) → P ⟨key, n, ds.length, none⟩ →
      ∀ st ∈ stays ++ [⟨key, n, ds.length, none⟩], P st := by
    intro P hold hlast st hst
    rcases List.mem_append.mp hst with hst | hst
    · exact hold st hst
    · rw [List.mem_singleton.mp hst]
      exact hlast
  refine ⟨?_, ?_, hnew h.since (Nat.le_refl _), hnew h.left fun l hl => absurd hl (by simp),
    h.ordered, fun d hd e he => ?_, hnew h.covered fun i d hd => ?_⟩
  · rw [List.map_append]
    exact h.keys.append (List.nodup_singleton _) (List.disjoint_singleton.mpr hkey)
  · rw [List.map_append]
    exact h.handlers.append (List.nodup_singleton _) (List.disjoint_singleton.mpr hn)
  · obtain ⟨st, hst, heq⟩ := h.known d hd e he
    exact ⟨st, List.mem_append_left _ hst, heq⟩
  · have hi : i < ds.length := (List.getElem?_eq_some_iff.mp hd).1
    refine ⟨fun he => ?_, fun hc => ?_⟩
    · obtain ⟨st, hst, heq⟩ := h.known d (List.mem_of_getElem? hd) _ he
      exact absurd (List.mem_map.mpr ⟨st, hst, congrArg Prod.fst heq⟩) hkey
    · have hle : ds.length ≤ i := of_decide_eq_true (Bool.and_eq_true_iff.mp hc).1
      exact absurd hi (Nat.not_lt.mpr hle)

/-- A handler leaves.  The dispatch under way, if there is one, still reaches it. -/
theorem leave (h : Attended stays ds) (key : HandlerKey) :
    Attended (stays.map (Stay.leave key ds.length)) ds := by
  refine ⟨?_, ?_, fun st hst => ?_, fun st hst l hl => ?_, h.ordered, fun d hd e he => ?_,
    fun st hst i d hd => ?_⟩
  · rw [List.map_map]
    exact (List.map_congr_left fun st _ => Stay.leave_key key _ st) ▸ h.keys
  · rw [List.map_map]
    exact (List.map_congr_left fun st _ => Stay.leave_handler key _ st) ▸ h.handlers
  · obtain ⟨old, hold, rfl⟩ := List.mem_map.mp hst
    rw [Stay.leave_since]
    exact h.since old hold
  · obtain ⟨old, hold, rfl⟩ := List.mem_map.mp hst
    rw [Stay.left_leave] at hl
    split at hl
    next =>
      rcases Option.or_eq_some_iff.mp hl with hl | ⟨-, hl⟩
      · exact h.left old hold l hl
      · exact Nat.le_of_eq (Option.some.inj hl).symm
    next => exact h.left old hold l hl
  · obtain ⟨st, hst, heq⟩ := h.known d hd e he
    refine ⟨_, List.mem_map_of_mem hst, ?_⟩
    rw [Stay.leave_key, Stay.leave_handler]
    exact heq
  · obtain ⟨old, hold, rfl⟩ := List.mem_map.mp hst
    have hi : i < ds.length := (List.getElem?_eq_some_iff.mp hd).1
    rw [Stay.leave_key, Stay.leave_handler, Stay.covers_leave key old hi]
    exact h.covered old hold i d hd

/-- A dispatch begins, for those that are there. -/
theorem dispatch (h : Attended stays ds) (e : Event α) {m : SortedMap HandlerKey Nat}
    (hm : ∀ key n, m.get? key = some n ↔
      ∃ st ∈ stays, st.key = key ∧ st.handler = n ∧ st.left = none) :
    Attended stays (ds ++ [⟨e, m.entries⟩]) := by
  have hlength : ds.length ≤ (ds ++ [⟨e, m.entries⟩] : List (Dispatch α)).length := by simp
  refine ⟨h.keys, h.handlers, fun st hst => Nat.le_trans (h.since st hst) hlength,
    fun st hst l hl => Nat.le_trans (h.left st hst l hl) hlength, fun d hd => ?_,
    fun d hd x hx => ?_, fun st hst i d hd => ?_⟩
  · rcases List.mem_append.mp hd with hd | hd
    · exact h.ordered d hd
    · rw [List.mem_singleton.mp hd]
      exact SortedMap.keys_increasing m
  · rcases List.mem_append.mp hd with hd | hd
    · exact h.known d hd x hx
    · rw [List.mem_singleton.mp hd] at hx
      obtain ⟨st, hst, hkey, hn, -⟩ := (hm x.1 x.2).mp (SortedMap.mem_entries_iff.mp hx)
      exact ⟨st, hst, Prod.ext hkey hn⟩
  · by_cases hi : i < ds.length
    · rw [List.getElem?_append_left hi] at hd
      exact h.covered st hst i d hd
    · have hlt : i < ds.length + 1 := by
        simpa using (List.getElem?_eq_some_iff.mp hd).1
      obtain rfl : i = ds.length := by omega
      obtain rfl : (⟨e, m.entries⟩ : Dispatch α) = d :=
        Option.some.inj (List.getElem?_concat_length.symm.trans hd)
      rw [Stay.covers_next (h.since st hst) (h.left st hst), SortedMap.mem_entries_iff, hm]
      constructor
      · rintro ⟨st', hst', hkey, -, hleft⟩
        -- keys are not shared
        rwa [List.inj_on_of_nodup_map h.keys hst hst' hkey.symm]
      · exact fun hleft => ⟨st, hst, rfl, rfl, hleft⟩

/-- A dispatch makes one call for each handler in its audience. -/
theorem forHandler_calls (h : Attended stays ds) {st : Stay} (hst : st ∈ stays) {i : Nat}
    {d : Dispatch α} (hd : ds[i]? = some d) :
    forHandler st.handler (d.calls.map fun c => (i, c)) =
      if st.covers i then [(i, d.event)] else [] := by
  have hmem := List.mem_of_getElem? hd
  have hkeys : (d.audience.map Prod.fst).Nodup := by
    refine (h.ordered d hmem).imp fun {a b} hlt heq => ?_
    rw [heq] at hlt
    exact SortedMap.compare_self_ne_lt b hlt
  have hnodup : d.audience.Nodup := hkeys.of_map
  -- among the audience, the handler has one key
  have hone : ∀ e ∈ d.audience,
      ((Target.handler e.2 : Target Nat) == .handler st.handler) =
        (e == (st.key, st.handler)) := by
    intro e he
    rw [Bool.eq_iff_iff, beq_iff_eq, beq_iff_eq, Target.handler.injEq]
    refine ⟨fun hn => ?_, fun heq => congrArg Prod.snd heq⟩
    obtain ⟨st', hst', rfl⟩ := h.known d hmem e he
    rw [List.inj_on_of_nodup_map h.handlers hst' hst hn]
  unfold forHandler Dispatch.calls
  rw [List.map_map, List.filter_map, List.map_map]
  have hfilter : d.audience.filter (fun e => (Target.handler e.2 : Target Nat) ==
      .handler st.handler) = if st.covers i then [(st.key, st.handler)] else [] := by
    rw [List.filter_congr hone, List.filter_beq, hnodup.count]
    simp only [h.covered st hst i d hd]
    split <;> rfl
  show (d.audience.filter fun e => (Target.handler e.2 : Target Nat) ==
    .handler st.handler).map _ = _
  rw [hfilter]
  split <;> rfl

/-- **A handler is told the events of its stay**, each of them once, in their order. -/
theorem forHandler_numbered (h : Attended stays ds) {st : Stay} (hst : st ∈ stays) :
    forHandler st.handler (numbered ds) = st.events ds := by
  have hcalls : ∀ x ∈ ds.zipIdx,
      forHandler st.handler (x.1.calls.map fun c => (x.2, c)) =
        if st.covers x.2 then [(x.2, x.1.event)] else [] :=
    fun x hx => h.forHandler_calls hst (List.mk_mem_zipIdx_iff_getElem?.mp hx)
  unfold numbered Stay.events
  generalize ds.zipIdx = xs at hcalls ⊢
  induction xs with
  | nil => rfl
  | cons x xs ih =>
    rw [List.flatMap_cons, forHandler_append, hcalls x List.mem_cons_self,
      ih fun y hy => hcalls y (List.mem_cons_of_mem x hy), List.filter_cons]
    split <;> rfl

end Attended

end InformerHub
