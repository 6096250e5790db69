import Mathlib.Data.List.Nodup
import InformerHub.Proofs.Transcript

/-!
# Registrations do not interfere

Handlers and the fan-outs of dynamic informers share one list of registrations, in which nothing but
an id tells one from the other.  They come and go in any order, at rest or from inside callbacks,
and whoever was given an id may use it as often as he likes.

`Clientele` is a session with a record of all registrations that were ever made, of the ids that
were handed back, and of the fan-outs that were dropped.

> Those who are registered are those who came, in the order in which they came, but for the handlers
> whose id was handed back and the fan-outs that were dropped (`registrations_independent`).

So what one of them does is nothing to the others.  A fan-out is registered once, however many
handlers are behind it, and once it is dropped and everything that was under way has been delivered,
no handler behind it hears anything any more (`Quiet`).

Ids are numbers without a bound.  A count in 64 bits, which no run lives to fill, gives the same
ids to the first 2^64 registrations (`id_of_countUp`).
-/

namespace InformerHub

open Informer Session

variable {α : Type}

namespace Informer

variable {H : Type}

/-! ## Removals -/

/-- With ids that are not shared, a removal takes one registration out of its place. -/
theorem unregister_of_mem {inf : Informer α H} {g : Registration H}
    (hids : (inf.registrations.map Registration.id).Nodup) (hg : g ∈ inf.registrations) :
    ∃ before after, inf.registrations = before ++ g :: after ∧
      inf.unregister g.id = ({ inf with registrations := before ++ after }, true) := by
  obtain ⟨before, after, hregs⟩ := List.append_of_mem hg
  rw [hregs, List.map_append, List.map_cons, List.nodup_middle, List.nodup_cons] at hids
  have hothers : ∀ r ∈ before ++ after, (r.id != g.id) = true := by
    intro r hr
    rw [bne_iff_ne]
    intro he
    exact hids.1 (List.map_append ▸ he ▸ List.mem_map_of_mem hr)
  have hbefore : before.filter (fun r => r.id != g.id) = before :=
    List.filter_eq_self.mpr fun r hr => hothers r (List.mem_append_left _ hr)
  have hafter : after.filter (fun r => r.id != g.id) = after :=
    List.filter_eq_self.mpr fun r hr => hothers r (List.mem_append_right _ hr)
  refine ⟨before, after, hregs, ?_⟩
  unfold unregister
  rw [hregs, List.filter_append, List.filter_cons_of_neg (by simp), hbefore, hafter]
  simp

/-- An id that nobody has removes nobody. -/
theorem unregister_of_not_mem {inf : Informer α H} {id : Nat}
    (h : ∀ g ∈ inf.registrations, g.id ≠ id) : inf.unregister id = (inf, false) := by
  have hall : inf.registrations.filter (fun g => g.id != id) = inf.registrations :=
    List.filter_eq_self.mpr fun g hg => bne_iff_ne.mpr (h g hg)
  have hnone : inf.registrations.any (fun g => g.id == id) = false :=
    List.any_eq_false.mpr fun g hg => by simpa using h g hg
  unfold unregister
  rw [hall, hnone]

/-! ## Who is behind a fan-out -/

/-- A fan-out that is changed in its place has nobody behind it but those who were before, and those
who are new there. -/
theorem mem_joined_set {inf : Informer α H} {index : Nat} {f f' : FanOut H}
    (hf : inf.fanOuts[index]? = some f) {new : H → Prop}
    (h : ∀ m ∈ f'.handlers.values, m ∈ f.handlers.values ∨ new m) {k : Nat} {u : Target H}
    (hu : u ∈ ({ inf with fanOuts := inf.fanOuts.set index f' } : Informer α H).joined k) :
    u ∈ inf.joined k ∨ k = index ∧ ∃ m, new m ∧ u = .handler m := by
  rw [joined_set hf] at hu
  split at hu
  next hk =>
    subst hk
    rw [joined_of_getElem? hf]
    obtain ⟨m, hm, rfl⟩ := List.mem_map.mp hu
    exact (h m hm).imp List.mem_map_of_mem fun hnew => ⟨rfl, m, hnew, rfl⟩
  next => exact Or.inl hu

/-- Nobody is behind a fan-out after a request but those who were before, and one who joins it. -/
theorem mem_joined_carryOut {inf : Informer α H} {n : H} {r : Request} {k : Nat} {u : Target H}
    (hu : u ∈ (r.carryOut inf n).joined k) : u ∈ inf.joined k ∨
      u = .handler n ∧ (∃ name, r = .join k name) ∧ k < inf.fanOuts.length := by
  cases r with
  | addHandler a => cases a <;> exact Or.inl hu
  | removeHandler a id => cases a <;> exact Or.inl hu
  | addFanOut a =>
    cases a with
    | direct => exact Or.inl (joined_append_new (inf.register _).1 inf.nextId k ▸ hu)
    | dynamic => exact Or.inl hu
  | dropFanOut index =>
    have hsame : (inf.dropFanOut index).joined k = inf.joined k := by
      unfold dropFanOut
      split <;> rfl
    exact Or.inl (hsame ▸ hu)
  | join index name =>
    simp only [Request.carryOut, join?] at hu
    cases hf : inf.fanOuts[index]? with
    | none =>
      rw [hf] at hu
      exact Or.inl hu
    | some f =>
      rw [hf] at hu
      obtain ⟨hlt, -⟩ := List.getElem?_eq_some_iff.mp hf
      refine (mem_joined_set hf (fun m => SortedMap.mem_values_of_insert) hu).imp_right ?_
      rintro ⟨rfl, m, rfl, hm⟩
      exact ⟨hm, ⟨name, rfl⟩, hlt⟩
  | leave index key =>
    simp only [Request.carryOut, leave] at hu
    cases hf : inf.fanOuts[index]? with
    | none =>
      rw [hf] at hu
      exact Or.inl hu
    | some f =>
      rw [hf] at hu
      have hfewer : ∀ m ∈ (f.leave key).1.handlers.values, m ∈ f.handlers.values ∨ False :=
        fun m hm => Or.inl (SortedMap.mem_values_of_erase hm)
      exact (mem_joined_set hf hfewer hu).imp_right fun h => h.2.elim fun _ hm => hm.1.elim

/-- Who comes or goes behind a fan-out changes none of the registrations. -/
theorem registry_of_behind (inf : Informer α H) {r : Request} {k : Nat}
    (hr : (∃ name, r = .join k name) ∨ ∃ key, r = .leave k key) (n : H) :
    (r.carryOut inf n).registrations = inf.registrations ∧
      (r.carryOut inf n).nextId = inf.nextId ∧ fanOutIds (r.carryOut inf n) = fanOutIds inf := by
  rcases hr with ⟨name, rfl⟩ | ⟨key, rfl⟩
  · simp only [Request.carryOut, join?]
    cases hf : inf.fanOuts[k]? with
    | none => exact ⟨rfl, rfl, rfl⟩
    | some f => exact ⟨rfl, rfl, fanOutIds_set hf rfl⟩
  · simp only [Request.carryOut, leave]
    cases hf : inf.fanOuts[k]? with
    | none => exact ⟨rfl, rfl, rfl⟩
    | some f => exact ⟨rfl, rfl, fanOutIds_set hf rfl⟩

end Informer

/-! ## Silence -/

namespace Session

/-- Nothing is under way for the targets that `p` picks, and nothing will be: none of them is
registered, and none is behind a fan-out that is not itself picked. -/
structure Quiet (s : Session α) (p : Target Nat → Bool) : Prop where
  known : ∀ u, p u = true → s.Known u
  ahead : s.informer.ahead p = []
  unregistered : s.informer.targets.countP p = 0
  apart : ∀ k, p (.fanOut k) = false → (s.informer.joined k).countP p = 0

variable [Object α] {s : Session α} {p : Target Nat → Bool}

/-- An act puts nothing under way for them, and tells them nothing. -/
theorem Quiet.ahead_perform (h : s.Quiet p) (hs : s.informer.store.Sound) (a : Act α) :
    (s.perform a).informer.ahead p = [] ∧
      ∀ t, p t = true → (s.perform a).heard t = s.heard t := by
  cases a with
  | batch b =>
    by_cases hr : s.AtRest
    · rw [perform_batch_of_atRest hr]
      refine ⟨?_, fun _ _ => rfl⟩
      show (b.begin s.informer).ahead p = []
      rw [(begins_begin hs b).ahead, eventsFor_callsOf_of_none h.unregistered, h.ahead]
      rfl
    · rw [perform_batch_of_not_atRest hr]
      exact ⟨h.ahead, fun _ _ => rfl⟩
  | request r =>
    have hk : Keeps p s.informer (s.perform (.request r)).informer :=
      keeps_request fun u hu _ => h.known u hu
    exact ⟨hk.ahead.trans h.ahead, fun _ _ => rfl⟩
  | proceed =>
    obtain ⟨made, hp⟩ := proceeds_proceed s
    obtain ⟨rest, hbefore, hafter⟩ := hp.ahead p
    rw [h.ahead] at hbefore
    obtain ⟨hmade, rfl⟩ := List.append_eq_nil_iff.mp hbefore.symm
    cases made with
    | none =>
      refine ⟨hafter, fun t _ => ?_⟩
      unfold heard
      rw [hp.calls, Option.toList_none, List.append_nil]
    | some c =>
      -- the call is for somebody else, who passes nothing on to those that `p` picks
      rw [Option.toList_some, eventsFor_singleton] at hmade
      have hc : p c.target = false := by
        refine Bool.eq_false_iff.mpr fun hpc => ?_
        rw [if_pos hpc] at hmade
        exact absurd hmade (List.cons_ne_nil _ _)
      have hpassed : eventsFor p (passedOn s.informer c) = [] := by
        unfold passedOn
        split
        next => rfl
        next k hk => exact eventsFor_callsOf_of_none (h.apart k (hk ▸ hc)) _
      refine ⟨?_, fun t ht => ?_⟩
      · rw [hafter, Option.toList_some, List.flatMap_singleton, hpassed]
        rfl
      · have hne : (c.target == t) = false := by
          refine beq_eq_false_iff_ne.mpr fun he => ?_
          rw [he, ht] at hc
          exact absurd hc (by simp)
        unfold heard
        rw [hp.calls, eventsFor_append, Option.toList_some, eventsFor_singleton, hne]
        exact List.append_nil _

theorem quiet_perform (h : s.Quiet p) (hs : s.informer.store.Sound) (a : Act α) :
    (s.perform a).Quiet p := by
  have hw : Wanes s (s.perform a) p := wanes_perform fun u hu _ => h.known u hu
  refine ⟨fun u hu => known_perform (h.known u hu) a, (h.ahead_perform hs a).1, ?_, fun k hk => ?_⟩
  · exact Nat.le_zero.mp (h.unregistered ▸ hw.registered)
  · exact Nat.le_zero.mp (h.apart k hk ▸ hw.joined k)

omit [Object α] in
/-- A panic takes away from what is under way. -/
theorem quiet_abandon (h : s.Quiet p) (n : Nat) : (s.abandon n).Quiet p := by
  refine ⟨h.known, ?_, h.unregistered, h.apart⟩
  have hall := h.ahead
  unfold ahead at hall
  rw [← List.take_append_drop n s.informer.deliveries, List.flatMap_append,
    eventsFor_append] at hall
  exact (List.append_eq_nil_iff.mp hall).2

end Session

/-! ## The record -/

/-- A session, and all who have come to it. -/
structure Clientele (α : Type) where
  session : Session α
  /-- All registrations ever made, the first one first. -/
  came : List (Registration Nat)
  /-- The ids that were handed back, as often as they were. -/
  removals : List Nat
  /-- The fan-outs that were dropped. -/
  drops : List Nat
  /-- For every request so far, the fan-out to which it brought a handler. -/
  homes : List (Option Nat)

namespace Clientele

inductive Act (α : Type) where
  | onSession (a : Session.Act α)
  /-- A callback panics.  What it is called from ends, up to where the panic is caught. -/
  | panic (n : Nat)

/-- The ids that were returned to those who asked for them.  A dynamic informer keeps its own. -/
def returned (s : Clientele α) : List Nat :=
  s.came.filterMap fun g =>
    match g.target with
    | .handler _ => some g.id
    | .fanOut _ => none

/-- Whether a registration has not been ended by whom it belongs to. -/
def stays (s : Clientele α) (g : Registration Nat) : Bool :=
  match g.target with
  | .handler _ => decide (g.id ∉ s.removals)
  | .fanOut index => decide (index ∉ s.drops)

/-- A fan-out and everybody who was ever behind it. -/
def household (s : Clientele α) (k : Nat) : Target Nat → Bool
  | .handler n => s.homes[n]? == some (some k)
  | .fanOut j => j == k

/-- Nobody hands back an id that was not returned to him. -/
def allows (s : Clientele α) : Session.Act α → Bool
  | .request (.removeHandler .direct id) => decide (id ∈ s.returned)
  | _ => true

def handedBack? : Session.Act α → Option Nat
  | .request (.removeHandler .direct id) => some id
  | _ => none

def dropped? (s : Session α) : Session.Act α → Option Nat
  | .request (.dropFanOut index) => s.informer.fanOuts[index]?.map fun _ => index
  | _ => none

/-- The fan-out to which a request brings a handler. -/
def home? (s : Session α) : Request → Option Nat
  | .join index _ => s.informer.fanOuts[index]?.map fun _ => index
  | _ => none

def homes? (s : Session α) : Session.Act α → Option (Option Nat)
  | .request r => some (home? s r)
  | _ => none

def new : Clientele α := ⟨.new, [], [], [], []⟩

section Run

variable [Object α]

/-- The record of an act. -/
def note (s : Clientele α) (a : Session.Act α) : Clientele α where
  session := s.session.perform a
  came := s.came ++
    (s.session.newcomer? a).toList.map fun u => ⟨s.session.informer.nextId, u⟩
  removals := s.removals ++ (handedBack? a).toList
  drops := s.drops ++ (dropped? s.session a).toList
  homes := s.homes ++ (homes? s.session a).toList

def perform (s : Clientele α) : Act α → Clientele α
  | .onSession a => if s.allows a then s.note a else s
  | .panic n => { s with session := s.session.abandon n }

def run (s : Clientele α) (acts : List (Act α)) : Clientele α := acts.foldl perform s

end Run

/-! ## What is kept -/

/-- The list of registrations is what the record says. -/
structure Listed (s : Clientele α) : Prop where
  ids : s.came.map Registration.id = List.range s.session.informer.nextId
  /-- A fan-out came under the id that it keeps. -/
  owned : ∀ k id, ⟨id, .fanOut k⟩ ∈ s.came ↔ (fanOutIds s.session.informer)[k]? = some id
  registered : s.session.informer.registrations = s.came.filter s.stays
  removed : ∀ id ∈ s.removals, ∃ n, ⟨id, .handler n⟩ ∈ s.came
  dropped : ∀ k ∈ s.drops, ∃ id, ⟨id, .fanOut k⟩ ∈ s.came

/-- Whoever came as himself is behind no fan-out, and whoever is behind one came to it. -/
structure Housed (s : Clientele α) : Prop where
  requests : s.homes.length = s.session.arrivals
  targets : (s.came.map Registration.target).Nodup
  known : ∀ g ∈ s.came, s.session.Known g.target
  outside : ∀ g ∈ s.came, ∀ n, g.target = .handler n → s.homes[n]? = some none
  behind : ∀ k, ∀ u ∈ s.session.informer.joined k,
    ∃ n, u = .handler n ∧ s.homes[n]? = some (some k)

variable {s : Clientele α}

theorem mem_returned {id : Nat} : id ∈ s.returned ↔ ∃ n, ⟨id, .handler n⟩ ∈ s.came := by
  unfold returned
  rw [List.mem_filterMap]
  constructor
  · rintro ⟨⟨id', u⟩, hg, hid⟩
    cases u with
    | handler n =>
      obtain rfl := Option.some.inj hid
      exact ⟨n, hg⟩
    | fanOut k => exact absurd hid (by simp)
  · rintro ⟨n, hg⟩
    exact ⟨_, hg, rfl⟩

theorem Listed.nextId_eq (h : s.Listed) : s.session.informer.nextId = s.came.length := by
  have hlength := congrArg List.length h.ids
  rw [List.length_map, List.length_range] at hlength
  exact hlength.symm

theorem Listed.nodup (h : s.Listed) : (s.came.map Registration.id).Nodup :=
  h.ids ▸ List.nodup_range

theorem Listed.eq_of_id (h : s.Listed) {g g' : Registration Nat} (hg : g ∈ s.came)
    (hg' : g' ∈ s.came) (hid : g.id = g'.id) : g = g' :=
  List.inj_on_of_nodup_map h.nodup hg hg' hid

theorem Listed.id_lt (h : s.Listed) {g : Registration Nat} (hg : g ∈ s.came) :
    g.id < s.session.informer.nextId := by
  have hmem : g.id ∈ s.came.map Registration.id := List.mem_map_of_mem hg
  rw [h.ids] at hmem
  exact List.mem_range.mp hmem

theorem Listed.mem_registrations (h : s.Listed) {g : Registration Nat} :
    g ∈ s.session.informer.registrations ↔ g ∈ s.came ∧ s.stays g = true := by
  rw [h.registered, List.mem_filter]

/-- A fan-out came under the id that it keeps. -/
theorem Listed.mem_of_fanOut (h : s.Listed) {k : Nat} {f : FanOut Nat}
    (hf : s.session.informer.fanOuts[k]? = some f) : ⟨f.registration, .fanOut k⟩ ∈ s.came :=
  (h.owned k f.registration).mpr ((List.getElem?_map ..).trans (congrArg _ hf))

/-- Nothing that the record is about has happened. -/
theorem Listed.steady (h : s.Listed) {s' : Clientele α} (hcame : s'.came = s.came)
    (hremovals : s'.removals = s.removals) (hdrops : s'.drops = s.drops)
    (hregs : s'.session.informer.registrations = s.session.informer.registrations)
    (hnext : s'.session.informer.nextId = s.session.informer.nextId)
    (hids : fanOutIds s'.session.informer = fanOutIds s.session.informer) : s'.Listed := by
  have hstays : s'.stays = s.stays := by
    funext g
    unfold stays
    rw [hremovals, hdrops]
  refine ⟨?_, ?_, ?_, ?_, ?_⟩
  · rw [hcame, hnext]
    exact h.ids
  · rw [hcame, hids]
    exact h.owned
  · rw [hcame, hregs, hstays]
    exact h.registered
  · rw [hcame, hremovals]
    exact h.removed
  · rw [hcame, hdrops]
    exact h.dropped

/-- Somebody comes, under the next id. -/
theorem Listed.come (h : s.Listed) {s' : Clientele α} {u : Target Nat}
    (hcame : s'.came = s.came ++ [⟨s.session.informer.nextId, u⟩])
    (hremovals : s'.removals = s.removals) (hdrops : s'.drops = s.drops)
    (hregs : s'.session.informer.registrations =
      s.session.informer.registrations ++ [⟨s.session.informer.nextId, u⟩])
    (hnext : s'.session.informer.nextId = s.session.informer.nextId + 1)
    (howned : ∀ k id, ⟨id, .fanOut k⟩ ∈ s'.came ↔ (fanOutIds s'.session.informer)[k]? = some id)
    (hnew : ∀ k, u = .fanOut k → k ∉ s.drops) : s'.Listed := by
  have hstays : s'.stays = s.stays := by
    funext g
    unfold stays
    rw [hremovals, hdrops]
  have hthere : s.stays ⟨s.session.informer.nextId, u⟩ = true := by
    cases u with
    | handler n =>
      refine decide_eq_true fun hgone => ?_
      obtain ⟨m, hm⟩ := h.removed _ hgone
      exact Nat.lt_irrefl _ (h.id_lt hm)
    | fanOut k => exact decide_eq_true (hnew k rfl)
  refine ⟨?_, howned, ?_, fun id hid => ?_, fun k hk => ?_⟩
  · rw [hcame, hnext, List.map_append, h.ids, List.range_succ]
    rfl
  · rw [hcame, hregs, hstays, List.filter_append, h.registered, List.filter_singleton, hthere]
    rfl
  · obtain ⟨n, hn⟩ := h.removed id (hremovals ▸ hid)
    exact ⟨n, hcame ▸ List.mem_append_left _ hn⟩
  · obtain ⟨id, hid⟩ := h.dropped k (hdrops ▸ hk)
    exact ⟨id, hcame ▸ List.mem_append_left _ hid⟩

/-- One of those who came goes. -/
theorem Listed.leave (h : s.Listed) {s' : Clientele α} {g : Registration Nat} (hg : g ∈ s.came)
    (hcame : s'.came = s.came)
    (hregs : s'.session.informer.registrations =
      s.session.informer.registrations.filter fun r => decide (some r.id ≠ some g.id))
    (hnext : s'.session.informer.nextId = s.session.informer.nextId)
    (hids : fanOutIds s'.session.informer = fanOutIds s.session.informer)
    (hstays : ∀ r ∈ s.came, s'.stays r = true ↔ r ≠ g ∧ s.stays r = true)
    (hremoved : ∀ id ∈ s'.removals, ∃ n, ⟨id, .handler n⟩ ∈ s.came)
    (hdropped : ∀ k ∈ s'.drops, ∃ id, ⟨id, .fanOut k⟩ ∈ s.came) : s'.Listed := by
  refine ⟨?_, ?_, ?_, hcame ▸ hremoved, hcame ▸ hdropped⟩
  · rw [hcame, hnext]
    exact h.ids
  · rw [hcame, hids]
    exact h.owned
  · rw [hcame, hregs, h.registered, List.filter_filter]
    refine List.filter_congr fun r hr => ?_
    rw [Bool.eq_iff_iff, hstays r hr, Bool.and_eq_true, decide_eq_true_eq]
    refine and_congr_left fun _ => not_congr ⟨fun hid => ?_, fun he => congrArg _ (congrArg _ he)⟩
    exact h.eq_of_id hr hg (Option.some.inj hid)

variable [Object α]

/-- An act of which there is nothing to note. -/
theorem Listed.idle (h : s.Listed) {a : Session.Act α} (hnew : s.session.newcomer? a = none)
    (hback : handedBack? a = none) (hdrop : dropped? s.session a = none)
    (hregs : (s.session.perform a).informer.registrations = s.session.informer.registrations)
    (hnext : (s.session.perform a).informer.nextId = s.session.informer.nextId)
    (hids : fanOutIds (s.session.perform a).informer = fanOutIds s.session.informer) :
    (s.note a).Listed := by
  refine h.steady ?_ ?_ ?_ hregs hnext hids
  · simp [Clientele.note, hnew]
  · simp [Clientele.note, hback]
  · simp [Clientele.note, hdrop]

theorem Listed.addHandler (h : s.Listed) : (s.note (.request (.addHandler .direct))).Listed := by
  refine h.come (u := .handler s.session.arrivals) rfl (List.append_nil _) (List.append_nil _) rfl
    rfl (fun k id => ?_) fun k hk => absurd hk (by simp)
  show _ ∈ s.came ++ [_] ↔ (fanOutIds s.session.informer)[k]? = some id
  rw [List.mem_append, h.owned]
  simp

theorem Listed.addFanOut (h : s.Listed) : (s.note (.request (.addFanOut .direct))).Listed := by
  have hlength : (fanOutIds s.session.informer).length = s.session.informer.fanOuts.length :=
    List.length_map _
  refine h.come (u := .fanOut s.session.informer.fanOuts.length) rfl (List.append_nil _)
    (List.append_nil _) rfl rfl (fun k id => ?_) fun k hk hgone => ?_
  · have hids : fanOutIds (s.session.perform (.request (.addFanOut .direct))).informer =
        fanOutIds s.session.informer ++ [s.session.informer.nextId] := List.map_append
    show _ ∈ s.came ++ [⟨s.session.informer.nextId, .fanOut s.session.informer.fanOuts.length⟩] ↔
      (fanOutIds (s.session.perform (.request (.addFanOut .direct))).informer)[k]? = some id
    rw [hids, List.mem_append, h.owned, getElem?_concat_eq_some, hlength, List.mem_singleton,
      Registration.mk.injEq, Target.fanOut.injEq, and_comm, eq_comm (a := id)]
  · -- what was dropped had an index before
    obtain ⟨id, hid⟩ := h.dropped k hgone
    obtain ⟨hlt, -⟩ := List.getElem?_eq_some_iff.mp ((h.owned k id).mp hid)
    have hk := Target.fanOut.inj hk
    omega

theorem Listed.removeHandler (h : s.Listed) {id : Nat} (hid : id ∈ s.returned) :
    (s.note (.request (.removeHandler .direct id))).Listed := by
  obtain ⟨n, hg⟩ := mem_returned.mp hid
  refine h.leave hg (List.append_nil _) (filter_unregister s.session.informer id) rfl rfl
    (fun r hr => ?_) (fun i hi => ?_) fun k hk => h.dropped k (List.append_nil s.drops ▸ hk)
  · obtain ⟨i, u⟩ := r
    cases u with
    | handler m =>
      have hsame : (⟨i, .handler m⟩ : Registration Nat) = ⟨id, .handler n⟩ ↔ i = id :=
        ⟨fun he => congrArg Registration.id he, fun he => h.eq_of_id hr hg he⟩
      show decide (i ∉ s.removals ++ [id]) = true ↔ _ ∧ decide (i ∉ s.removals) = true
      simp only [hsame, decide_eq_true_eq, List.mem_append, List.mem_singleton, not_or, ne_eq]
      exact and_comm
    | fanOut k =>
      show decide (k ∉ s.drops ++ []) = true ↔ _ ∧ decide (k ∉ s.drops) = true
      simp
  · rcases List.mem_append.mp hi with hi | hi
    · exact h.removed i hi
    · rw [List.mem_singleton.mp hi]
      exact ⟨n, hg⟩

theorem Listed.dropFanOut (h : s.Listed) (k : Nat) :
    (s.note (.request (.dropFanOut k))).Listed := by
  cases hf : s.session.informer.fanOuts[k]? with
  | none =>
    have hsame : s.session.informer.dropFanOut k = s.session.informer := by
      unfold Informer.dropFanOut
      rw [hf]
    have hinformer : (s.session.perform (.request (.dropFanOut k))).informer =
        s.session.informer := hsame
    have hdrop : dropped? s.session (.request (.dropFanOut k)) = none :=
      Option.map_eq_none_iff.mpr hf
    exact h.idle rfl rfl hdrop (congrArg _ hinformer) (congrArg _ hinformer) (congrArg _ hinformer)
  | some f =>
    have hg := h.mem_of_fanOut hf
    have hinformer : (s.session.perform (.request (.dropFanOut k))).informer =
        (s.session.informer.unregister f.registration).1 := by
      show s.session.informer.dropFanOut k = _
      unfold Informer.dropFanOut
      rw [hf]
    have hdrops : (s.note (.request (.dropFanOut k))).drops = s.drops ++ [k] := by
      show s.drops ++ (s.session.informer.fanOuts[k]?.map fun _ => k).toList = _
      rw [hf]
      rfl
    refine h.leave hg (List.append_nil _) ?_ ((congrArg nextId hinformer).trans rfl)
      ((congrArg fanOutIds hinformer).trans rfl) (fun r hr => ?_) (fun i hi => ?_) fun j hj => ?_
    · exact (congrArg _ hinformer).trans (filter_unregister s.session.informer f.registration)
    · obtain ⟨i, u⟩ := r
      cases u with
      | handler m =>
        show decide (i ∉ s.removals ++ []) = true ↔ _ ∧ decide (i ∉ s.removals) = true
        simp
      | fanOut j =>
        have hsame : (⟨i, .fanOut j⟩ : Registration Nat) = ⟨f.registration, .fanOut k⟩ ↔ j = k := by
          refine ⟨fun he => Target.fanOut.inj (congrArg Registration.target he), ?_⟩
          rintro rfl
          have hi := ((h.owned j i).mp hr).symm.trans ((h.owned j f.registration).mp hg)
          rw [Option.some.inj hi]
        show decide (j ∉ (s.note (.request (.dropFanOut k))).drops) = true ↔
          _ ∧ decide (j ∉ s.drops) = true
        simp only [hdrops, hsame, decide_eq_true_eq, List.mem_append, List.mem_singleton, not_or,
          ne_eq]
        exact and_comm
    · exact h.removed i (List.append_nil s.removals ▸ hi)
    · rw [hdrops] at hj
      rcases List.mem_append.mp hj with hj | hj
      · exact h.dropped j hj
      · rw [List.mem_singleton.mp hj]
        exact ⟨f.registration, hg⟩

theorem Listed.note (h : s.Listed) {a : Session.Act α} (ha : s.allows a = true) :
    (s.note a).Listed := by
  have hsteady : Steady s.session.informer (s.session.perform a).informer →
      s.session.newcomer? a = none → handedBack? a = none → dropped? s.session a = none →
        (s.note a).Listed := by
    intro hs hnew hback hdrop
    exact h.idle hnew hback hdrop hs.registrations hs.nextId (congrArg (List.map _) hs.fanOuts)
  cases a with
  | batch b => exact hsteady ((steady_perform _ _).resolve_left (by simp)) rfl rfl rfl
  | proceed => exact hsteady ((steady_perform _ _).resolve_left (by simp)) rfl rfl rfl
  | request r =>
    cases r with
    | addHandler a =>
      cases a with
      | direct => exact h.addHandler
      | dynamic => exact hsteady (steady_refl _) rfl rfl rfl
    | removeHandler a id =>
      cases a with
      | direct => exact h.removeHandler (of_decide_eq_true ha)
      | dynamic => exact hsteady (steady_refl _) rfl rfl rfl
    | addFanOut a =>
      cases a with
      | direct => exact h.addFanOut
      | dynamic => exact hsteady (steady_refl _) rfl rfl rfl
    | dropFanOut k => exact h.dropFanOut k
    | join k name =>
      obtain ⟨hregs, hnext, hids⟩ := registry_of_behind s.session.informer
        (Or.inl ⟨name, rfl⟩) s.session.arrivals
      exact h.idle rfl rfl rfl hregs hnext hids
    | leave k key =>
      obtain ⟨hregs, hnext, hids⟩ := registry_of_behind s.session.informer
        (Or.inr ⟨key, rfl⟩) s.session.arrivals
      exact h.idle rfl rfl rfl hregs hnext hids

/-- Those who come are known from then on, and were not before. -/
theorem known_of_newcomer {r : Request} {u : Target Nat}
    (hu : s.session.newcomer? (.request r) = some u) :
    ¬s.session.Known u ∧ (s.session.perform (.request r)).Known u := by
  have hentry := enters_request s.session r
  rw [hu] at hentry
  generalize s.session.removed? (.request r) = id at hentry
  generalize s.session.occasion? (.request r) = o at hentry
  cases hentry with
  | comes _ _ _ hnew hknown => exact ⟨hnew, hknown⟩

omit [Object α] in
/-- A handler that is registered comes with the latest request, and to no fan-out. -/
theorem home?_of_newcomer {r : Request} {n : Nat}
    (hu : s.session.newcomer? (.request r) = some (.handler n)) :
    n = s.session.arrivals ∧ home? s.session r = none := by
  cases r with
  | addHandler a =>
    cases a with
    | direct => exact ⟨(Target.handler.inj (Option.some.inj hu)).symm, rfl⟩
    | dynamic => exact absurd hu (by simp [newcomer?])
  | addFanOut a => cases a <;> exact absurd hu (by simp [newcomer?])
  | removeHandler | dropFanOut | join | leave => exact absurd hu (by simp [newcomer?])

theorem mem_came_note {a : Session.Act α} {g : Registration Nat} (hg : g ∈ (s.note a).came) :
    g ∈ s.came ∨ s.session.newcomer? a = some g.target := by
  rcases List.mem_append.mp hg with hg | hg
  · exact Or.inl hg
  · obtain ⟨u, hu, rfl⟩ := List.mem_map.mp hg
    exact Or.inr (Option.mem_toList.mp hu)

theorem Housed.request (h : s.Housed) (r : Request) : (s.note (.request r)).Housed := by
  have hhomes : ∀ {n : Nat} {x : Option Nat}, s.homes[n]? = some x →
      (s.note (.request r)).homes[n]? = some x := by
    intro n x hx
    obtain ⟨hn, -⟩ := List.getElem?_eq_some_iff.mp hx
    exact (List.getElem?_append_left hn).trans hx
  have hlast : (s.note (.request r)).homes[s.session.arrivals]? = some (home? s.session r) := by
    rw [← h.requests]
    exact List.getElem?_concat_length
  refine ⟨?_, ?_, ?_, ?_, ?_⟩
  · show (s.homes ++ [home? s.session r]).length = s.session.arrivals + 1
    rw [List.length_append, h.requests]
    rfl
  · show ((s.came ++ _).map Registration.target).Nodup
    rw [List.map_append]
    cases hu : s.session.newcomer? (.request r) with
    | none => simpa using h.targets
    | some u =>
      refine h.targets.append (List.nodup_singleton u) (List.disjoint_singleton.mpr fun hmem => ?_)
      obtain ⟨g, hg, rfl⟩ := List.mem_map.mp hmem
      exact (known_of_newcomer hu).1 (h.known g hg)
  · intro g hg
    rcases mem_came_note hg with hg | hu
    · exact known_perform (h.known g hg) _
    · exact (known_of_newcomer hu).2
  · intro g hg n hn
    rcases mem_came_note hg with hg | hu
    · exact hhomes (h.outside g hg n hn)
    · obtain ⟨rfl, hhome⟩ := home?_of_newcomer (hn ▸ hu)
      exact hlast.trans (congrArg some hhome)
  · intro k u hu
    rcases mem_joined_carryOut hu with hold | ⟨rfl, ⟨name, rfl⟩, hk⟩
    · obtain ⟨n, rfl, hn⟩ := h.behind k u hold
      exact ⟨n, rfl, hhomes hn⟩
    · refine ⟨_, rfl, hlast.trans (congrArg some ?_)⟩
      exact congrArg (Option.map _) (List.getElem?_eq_getElem hk)

theorem Housed.note (h : s.Housed) (a : Session.Act α) : (s.note a).Housed := by
  have hsteady : Steady s.session.informer (s.session.perform a).informer →
      (s.session.perform a).arrivals = s.session.arrivals → s.session.newcomer? a = none →
        homes? s.session a = none → (s.note a).Housed := by
    intro hs harrivals hnew hhomes
    have hcame : (s.note a).came = s.came := by simp [Clientele.note, hnew]
    have hhomes : (s.note a).homes = s.homes := by simp [Clientele.note, hhomes]
    refine ⟨hhomes ▸ h.requests.trans harrivals.symm, hcame ▸ h.targets, fun g hg => ?_,
      fun g hg n hn => ?_, fun k u hu => ?_⟩
    · exact known_perform (h.known g (hcame ▸ hg)) a
    · rw [hhomes]
      exact h.outside g (hcame ▸ hg) n hn
    · rw [hhomes]
      exact h.behind k u (hs.joined k ▸ hu)
  cases a with
  | batch b =>
    refine hsteady ((steady_perform _ _).resolve_left (by simp)) ?_ rfl rfl
    unfold Session.perform
    dsimp only
    split <;> rfl
  | request r => exact h.request r
  | proceed =>
    obtain ⟨made, hp⟩ := proceeds_proceed s.session
    exact hsteady hp.steady hp.arrivals rfl rfl

structure Kept (s : Clientele α) : Prop where
  sound : s.session.informer.store.Sound
  listed : s.Listed
  housed : s.Housed

theorem kept_new : (new : Clientele α).Kept where
  sound := Store.sound_empty
  listed := ⟨rfl, fun _ _ => ⟨fun h => absurd h List.not_mem_nil,
    fun h => absurd h.symm (Option.some_ne_none _)⟩, rfl, fun _ h => absurd h List.not_mem_nil,
    fun _ h => absurd h List.not_mem_nil⟩
  housed := ⟨rfl, List.nodup_nil, fun _ h => absurd h List.not_mem_nil,
    fun _ h => absurd h List.not_mem_nil, fun _ _ h => absurd h List.not_mem_nil⟩

theorem kept_perform (h : s.Kept) (a : Act α) : (s.perform a).Kept := by
  cases a with
  | onSession a =>
    show Kept (if s.allows a then s.note a else s)
    split
    next ha => exact ⟨sound_perform h.sound a, h.listed.note ha, h.housed.note a⟩
    next => exact h
  | panic n =>
    -- nobody comes or goes
    exact ⟨h.sound, h.listed.steady rfl rfl rfl rfl rfl rfl,
      ⟨h.housed.requests, h.housed.targets, h.housed.known, h.housed.outside, h.housed.behind⟩⟩

theorem kept_run (acts : List (Act α)) : ∀ {s : Clientele α}, s.Kept → (s.run acts).Kept := by
  induction acts with
  | nil => exact fun h => h
  | cons a acts ih => exact fun h => ih (kept_perform h a)

/-! ## Dropped fan-outs -/

/-- Once nothing is under way, there is nothing for those behind a fan-out that was dropped. -/
theorem Kept.quiet (h : s.Kept) (hrest : s.session.AtRest) {k : Nat} (hk : k ∈ s.drops) :
    s.session.Quiet (s.household k) := by
  refine ⟨fun u hu => ?_, ahead_of_atRest hrest _, ?_, fun j hj => ?_⟩
  · cases u with
    | handler n =>
      obtain ⟨hn, -⟩ := List.getElem?_eq_some_iff.mp (eq_of_beq hu)
      exact Nat.lt_of_lt_of_eq hn h.housed.requests
    | fanOut j =>
      rw [eq_of_beq hu]
      obtain ⟨id, hid⟩ := h.listed.dropped k hk
      exact h.housed.known _ hid
  · refine List.countP_eq_zero.mpr fun u hu hpicked => ?_
    obtain ⟨⟨id, u⟩, hg, rfl⟩ := List.mem_map.mp hu
    obtain ⟨hcame, hstays⟩ := h.listed.mem_registrations.mp hg
    cases u with
    | handler n =>
      have hout := h.housed.outside _ hcame n rfl
      exact absurd (hout.symm.trans (eq_of_beq hpicked)) (by simp)
    | fanOut j =>
      rw [eq_of_beq (show (j == k) = true from hpicked)] at hstays
      exact of_decide_eq_true hstays hk
  · refine List.countP_eq_zero.mpr fun u hu hpicked => ?_
    obtain ⟨n, rfl, hn⟩ := h.housed.behind j u hu
    have hjk : j = k :=
      Option.some.inj (Option.some.inj (hn.symm.trans (eq_of_beq hpicked)))
    exact absurd hj (by simp [household, hjk])

/-- What nobody tells a target now, nobody ever will. -/
theorem heard_run_of_quiet {p : Target Nat → Bool} {t : Target Nat} (ht : p t = true)
    (acts : List (Act α)) : ∀ {s : Clientele α}, s.Kept → s.session.Quiet p →
      (s.run acts).session.heard t = s.session.heard t := by
  induction acts with
  | nil => exact fun _ _ => rfl
  | cons a acts ih =>
    intro s h hq
    have hstep : (s.perform a).session.Quiet p ∧
        (s.perform a).session.heard t = s.session.heard t := by
      cases a with
      | onSession a =>
        show (if s.allows a then s.note a else s).session.Quiet p ∧
          (if s.allows a then s.note a else s).session.heard t = _
        split
        next => exact ⟨quiet_perform hq h.sound a, (hq.ahead_perform h.sound a).2 t ht⟩
        next => exact ⟨hq, rfl⟩
      | panic n => exact ⟨quiet_abandon hq n, rfl⟩
    exact (ih (kept_perform h a) hstep.1).trans hstep.2

/-! ## What the rest of the program sees -/

/-- What is true of the registrations on an informer at any time. -/
structure Independent (s : Clientele α) : Prop where
  /-- No id is given out twice. -/
  ids : (s.came.map Registration.id).Nodup
  /-- Who is registered, and in which order. -/
  registered : s.session.informer.registrations = s.came.filter s.stays
  /-- Whoever comes gets the next id, and stands behind all others. -/
  added : ∀ n, ∃ inf, s.session.informer.addHandler .direct n = .ok (inf, s.came.length) ∧
    inf.registrations = s.session.informer.registrations ++ [⟨s.came.length, .handler n⟩]
  /-- An id that is handed back for the first time takes that one registration away, and nobody
  else's place changes.  Handed back again, it does nothing. -/
  removed : ∀ id n, ⟨id, .handler n⟩ ∈ s.came →
    (id ∉ s.removals → ∃ before after,
      s.session.informer.registrations = before ++ ⟨id, .handler n⟩ :: after ∧
      s.session.informer.removeHandler .direct id =
        ({ s.session.informer with registrations := before ++ after }, true)) ∧
    (id ∈ s.removals → s.session.informer.removeHandler .direct id = (s.session.informer, false))
  /-- A fan-out has one registration, whoever is behind it, and none once it is dropped. -/
  single : ∀ k, k < s.session.informer.fanOuts.length →
    s.session.informer.targets.count (.fanOut k) = if k ∈ s.drops then 0 else 1
  /-- To drop a fan-out is to take its own registration away, and nobody else's place changes. -/
  dropped : ∀ k f, s.session.informer.fanOuts[k]? = some f → k ∉ s.drops → ∃ before after,
    s.session.informer.registrations = before ++ ⟨f.registration, .fanOut k⟩ :: after ∧
    s.session.informer.dropFanOut k =
      { s.session.informer with registrations := before ++ after }
  /-- Nothing is registered or removed through a dynamic informer, and the attempt has no effect. -/
  rejected : ∀ n id, s.session.informer.addHandler .dynamic n = .error .staticHandlerRejected ∧
    s.session.informer.addFanOut .dynamic = .error .staticHandlerRejected ∧
    s.session.informer.removeHandler .dynamic id = (s.session.informer, false) ∧
    ∀ r ∈ [Request.addHandler .dynamic, .addFanOut .dynamic, .removeHandler .dynamic id],
      (s.session.perform (.request r)).informer = s.session.informer
  /-- A batch tells all its events to each of those who are registered, and to nobody else. -/
  told : s.session.AtRest → ∀ b u, (s.session.perform (.batch b)).informer.ahead (· == u) =
    if u ∈ s.session.informer.targets then b.events s.session.informer else []
  /-- Who has come to a fan-out that was dropped hears nothing any more.  As a batch begins only
  while nothing is under way, that is nothing of any later batch. -/
  silent : s.session.AtRest → ∀ k n, k ∈ s.drops → s.homes[n]? = some (some k) →
    ∀ more : List (Act α),
      (s.run more).session.heard (.handler n) = s.session.heard (.handler n)

theorem Kept.nodup_registrations (h : s.Kept) :
    (s.session.informer.registrations.map Registration.id).Nodup := by
  rw [h.listed.registered]
  exact h.listed.nodup.sublist (List.filter_sublist.map _)

theorem Kept.nodup_targets (h : s.Kept) : s.session.informer.targets.Nodup := by
  unfold Informer.targets
  rw [h.listed.registered]
  exact h.housed.targets.sublist (List.filter_sublist.map _)

theorem Kept.independent (h : s.Kept) : s.Independent where
  ids := h.listed.nodup
  registered := h.listed.registered
  added n := by
    rw [← h.listed.nextId_eq]
    exact ⟨_, rfl, rfl⟩
  removed id n hg := by
    constructor
    · intro hid
      have hmem := h.listed.mem_registrations.mpr ⟨hg, decide_eq_true hid⟩
      exact unregister_of_mem h.nodup_registrations hmem
    · intro hid
      refine unregister_of_not_mem fun g hmem heq => ?_
      obtain ⟨hcame, hstays⟩ := h.listed.mem_registrations.mp hmem
      rw [h.listed.eq_of_id hcame hg heq] at hstays
      exact of_decide_eq_true hstays hid
  single k hk := by
    have hg := h.listed.mem_of_fanOut (List.getElem?_eq_getElem hk)
    have hmem : .fanOut k ∈ s.session.informer.targets ↔ k ∉ s.drops := by
      constructor
      · intro hthere hgone
        obtain ⟨⟨id, u⟩, hregistered, rfl⟩ := List.mem_map.mp hthere
        exact of_decide_eq_true (h.listed.mem_registrations.mp hregistered).2 hgone
      · intro hthere
        have hregistered := h.listed.mem_registrations.mpr ⟨hg, decide_eq_true hthere⟩
        exact List.mem_map.mpr ⟨_, hregistered, rfl⟩
    rw [h.nodup_targets.count, if_congr hmem rfl rfl, ite_not]
  dropped k f hf hk := by
    have hg := h.listed.mem_of_fanOut hf
    have hmem := h.listed.mem_registrations.mpr ⟨hg, decide_eq_true hk⟩
    obtain ⟨before, after, hregs, hgone⟩ := unregister_of_mem h.nodup_registrations hmem
    refine ⟨before, after, hregs, ?_⟩
    unfold dropFanOut
    rw [hf]
    exact congrArg Prod.fst hgone
  rejected n id := by
    refine ⟨rfl, rfl, rfl, fun r hr => ?_⟩
    simp only [List.mem_cons, List.not_mem_nil, or_false] at hr
    rcases hr with rfl | rfl | rfl <;> rfl
  told hrest b u := by
    rw [perform_batch_of_atRest hrest]
    show (b.begin s.session.informer).ahead (· == u) = _
    rw [(begins_begin h.sound b).ahead, ahead_of_atRest hrest, List.append_nil]
    split
    next hu =>
      exact eventsFor_callsOf_of_one ((List.count_eq_one_of_mem h.nodup_targets hu)) _
    next hu => exact eventsFor_callsOf_of_none (List.count_eq_zero.mpr hu) _
  silent hrest k n hk hn more := by
    have hpicked : s.household k (.handler n) = true := beq_iff_eq.mpr hn
    exact heard_run_of_quiet hpicked more h (h.quiet hrest hk)

/-- The id of a registration is what a word tells that counts those before it, if there are fewer
than a word can count. -/
theorem id_of_countUp (acts : List (Act α)) {i : Nat} {g : Registration Nat}
    (hg : (new.run acts).came[i]? = some g) (hroom : i < UInt64.size) :
    (countUp ((new.run acts).came.take i)).toNat = g.id := by
  have hlisted := (kept_run acts (kept_new (α := α))).listed
  refine toNat_countUp_take ?_ hg hroom
  rw [hlisted.ids, hlisted.nextId_eq]

/-- **Registrations are independent.**  Whatever handlers and fan-outs come to an informer and go
again, in whatever order and from inside whatever callback, and however often somebody hands back an
id, each of them takes care of its own registration and of no other. -/
theorem registrations_independent (acts : List (Act α)) : (new.run acts).Independent :=
  (kept_run acts kept_new).independent

end Clientele

end InformerHub
