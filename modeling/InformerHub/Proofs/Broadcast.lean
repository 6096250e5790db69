import InformerHub.Proofs.DynamicView
import InformerHub.Proofs.Nesting

/-!
# A fan-out passes everything on

`Broadcast` is a session in which one fan-out is watched, from the moment at which it is added.
Handlers come to it and leave it at any time, from inside callbacks too, and from other threads,
which make their replays beside whatever is being delivered.  It is written down which dispatches
have begun, which calls belong to them, and when which handler came and left.

> Dispatches do not overlap, each tells its event to those who are there when it begins, in the
> order of their keys, and their events are what the source tells the fan-out (`faithful_run`).

No dispatch begins inside another one (`Holds`), so what remains is to keep the record right, which
is what `Attended` is about.
-/

namespace InformerHub

open Informer Session

variable {α : Type}

/-- A fan-out, and what has happened around it since it was added. -/
structure Broadcast (α : Type) where
  session : Session α
  index : Nat
  /-- While a dispatch is under way: how many deliveries there are up to its own. -/
  under : Option Nat
  /-- The dispatches that have begun, the first one first. -/
  dispatches : List (Dispatch α)
  /-- The calls that were made, with the numbers of the dispatches that they belong to, if any. -/
  log : List (Option Nat × Call α Nat)
  stays : List Stay
  /-- What the source has told the fan-out, or is about to. -/
  emitted : List (Event α)
  /-- What remains of the replays that other threads make. -/
  beside : List (List (Call α Nat))

namespace Broadcast

inductive Act (α : Type) where
  | onSession (a : Session.Act α)
  /-- Another thread adds a handler to a fan-out. -/
  | aside (k : Nat) (name : String)
  /-- Another thread makes the next call of its replay. -/
  | proceedAside (i : Nat)

section Run

def depth (s : Broadcast α) : Nat := s.session.informer.deliveries.length

/-- The number of the dispatch whose calls the innermost delivery makes. -/
def number (s : Broadcast α) : Option Nat :=
  if s.under = some s.depth then some (s.dispatches.length - 1) else none

/-- The handlers behind the fan-out. -/
def audience (s : Broadcast α) : List (HandlerKey × Nat) :=
  match s.session.informer.fanOuts[s.index]? with
  | some f => f.handlers.entries
  | none => []

/-- A call is about to be made.  One for the fan-out begins a dispatch. -/
def noteCall (s : Broadcast α) (c : Call α Nat) : Broadcast α :=
  { s with
    log := s.log ++ [(s.number, c)]
    dispatches := if c.target = .fanOut s.index then s.dispatches ++ [⟨c.event, s.audience⟩]
      else s.dispatches
    under := if c.target = .fanOut s.index then some (s.depth + 1) else s.under }

/-- The innermost delivery is about to end. -/
def noteEnd (s : Broadcast α) : Broadcast α :=
  { s with under := if s.under = some s.depth then none else s.under }

/-- The stays behind a fan-out when a request has been made after `now` dispatches. -/
def staysAfter (s : Session α) (index now : Nat) (stays : List Stay) : Request → List Stay
  | .join k name =>
    if k = index then
      match s.informer.join? k name s.arrivals with
      | some (_, key) => stays ++ [⟨key, s.arrivals, now, none⟩]
      | none => stays
    else stays
  | .leave k key => if k = index then stays.map (Stay.leave key now) else stays
  | _ => stays

/-- What is written down when something is about to happen. -/
def note [Object α] (s : Broadcast α) : Session.Act α → Broadcast α
  | .batch b =>
    { s with emitted := s.emitted ++
        if .fanOut s.index ∈ s.session.informer.targets then Act.events s.session (.batch b)
        else [] }
  | .request r => { s with stays := staysAfter s.session s.index s.dispatches.length s.stays r }
  | .proceed =>
    match s.session.informer.next? with
    | some (c, _) => s.noteCall c
    | none => s.noteEnd

/-- The session after a request that another thread makes: what it has to deliver is not inside
what is being delivered. -/
def requestAside [Object α] (s : Session α) (r : Request) : Session α :=
  let after := s.perform (.request r)
  { after with informer := { after.informer with deliveries := s.informer.deliveries } }

/-- What the other thread has to deliver. -/
def replaysAside [Object α] (s : Session α) (r : Request) : List (List (Call α Nat)) :=
  let after := (s.perform (.request r)).informer.deliveries
  (after.take (after.length - s.informer.deliveries.length)).map Delivery.pending

def perform [Object α] (s : Broadcast α) : Act α → Broadcast α
  | .onSession a => { s.note a with session := s.session.perform a }
  | .aside k name =>
    { s.note (.request (.join k name)) with
      session := requestAside s.session (.join k name)
      beside := s.beside ++ replaysAside s.session (.join k name) }
  | .proceedAside i =>
    match s.beside[i]? with
    | some (c :: cs) => { s with log := s.log ++ [(none, c)], beside := s.beside.set i cs }
    | _ => s

def run [Object α] (s : Broadcast α) (acts : List (Act α)) : Broadcast α := acts.foldl perform s

/-- A fan-out that is added to an informer after some acts, and replayed what is stored. -/
def begin [Object α] (before : List (Session.Act α)) : Broadcast α where
  session := Session.run (before ++ [.request (.addFanOut .direct)])
  index := (Session.run before).informer.fanOuts.length
  under := none
  dispatches := []
  log := []
  stays := []
  emitted := Event.replay (Session.run before).informer.store.list
  beside := []

/-- The calls of dispatches that were made, with the numbers of the dispatches. -/
def made (s : Broadcast α) : List (Nat × Call α Nat) :=
  s.log.filterMap fun x => x.1.map fun i => (i, x.2)

end Run

theorem made_concat (log : List (Option Nat × Call α Nat)) (o : Option Nat) (c : Call α Nat) :
    ((log ++ [(o, c)]).filterMap fun x => x.1.map fun i => (i, x.2)) =
      (log.filterMap fun x => x.1.map fun i => (i, x.2)) ++ (o.map fun i => (i, c)).toList := by
  rw [List.filterMap_append]
  cases o <;> rfl

/-! ## Who is there -/

/-- The handlers behind the fan-out are those that have not left. -/
structure Seats (index : Nat) (stays : List Stay) (fanOuts : List (FanOut Nat)) (f : FanOut Nat) :
    Prop where
  found : fanOuts[index]? = some f
  seated : ∀ key n, f.handlers.get? key = some n ↔
    ∃ st ∈ stays, st.key = key ∧ st.handler = n ∧ st.left = none
  past : ∀ st ∈ stays, st.key.epoch < f.nextEpoch

section Seats

variable {s : Session α} {index now : Nat} {stays : List Stay} {f : FanOut Nat}

theorem staysAfter_join (hf : s.informer.fanOuts[index]? = some f) (name : String) :
    staysAfter s index now stays (.join index name) =
      stays ++ [⟨⟨name, f.nextEpoch⟩, s.arrivals, now, none⟩] := by
  simp only [staysAfter, join?, hf, Option.map_some, if_true]
  rfl

theorem staysAfter_leave (s : Session α) (index now : Nat) (stays : List Stay)
    (key : HandlerKey) :
    staysAfter s index now stays (.leave index key) = stays.map (Stay.leave key now) :=
  if_pos rfl

/-- Handlers come to the fan-out, they leave it, or nothing happens to it. -/
theorem request_cases (s : Session α) (index now : Nat) (stays : List Stay) (f : FanOut Nat)
    (r : Request) : (∃ name, r = .join index name) ∨ (∃ key, r = .leave index key) ∨
      staysAfter s index now stays r = stays ∧ r.onFanOut s.arrivals index f = f := by
  cases r with
  | join k name =>
    by_cases hk : k = index
    · exact Or.inl ⟨name, hk ▸ rfl⟩
    · exact Or.inr (Or.inr ⟨if_neg hk, if_neg hk⟩)
  | leave k key =>
    by_cases hk : k = index
    · exact Or.inr (Or.inl ⟨key, hk ▸ rfl⟩)
    · exact Or.inr (Or.inr ⟨if_neg hk, if_neg hk⟩)
  | addHandler | removeHandler | addFanOut | dropFanOut => exact Or.inr (Or.inr ⟨rfl, rfl⟩)

/-- Who is there after a request was there before, or is the newcomer. -/
theorem mem_staysAfter {r : Request} {st : Stay} (h : st ∈ staysAfter s index now stays r)
    (hf : s.informer.fanOuts[index]? = some f) : (∃ old ∈ stays, old.handler = st.handler) ∨
      st.handler = s.arrivals ∧ ∃ name, r = .join index name := by
  rcases request_cases s index now stays f r with ⟨name, rfl⟩ | ⟨key, rfl⟩ | ⟨hsame, -⟩
  · rw [staysAfter_join hf] at h
    rcases List.mem_append.mp h with h | h
    · exact Or.inl ⟨st, h, rfl⟩
    · rw [List.mem_singleton.mp h]
      exact Or.inr ⟨rfl, name, rfl⟩
  · rw [staysAfter_leave] at h
    obtain ⟨old, hold, rfl⟩ := List.mem_map.mp h
    exact Or.inl ⟨old, hold, (Stay.leave_handler key now old).symm⟩
  · rw [hsame] at h
    exact Or.inl ⟨st, h, rfl⟩

/-- Nobody has had the key of a newcomer. -/
theorem Seats.new_key {fs : List (FanOut Nat)} (h : Seats index stays fs f) (name : String) :
    (⟨name, f.nextEpoch⟩ : HandlerKey) ∉ stays.map Stay.key := by
  intro hmem
  obtain ⟨st, hst, hkey⟩ := List.mem_map.mp hmem
  have hpast := h.past st hst
  rw [hkey] at hpast
  exact Nat.lt_irrefl _ hpast

theorem Seats.come (h : Seats index stays s.informer.fanOuts f) (name : String) :
    Seats index (stays ++ [⟨⟨name, f.nextEpoch⟩, s.arrivals, now, none⟩])
      (Request.carryOut s.informer s.arrivals (.join index name)).fanOuts
      (f.join name s.arrivals).1 := by
  refine ⟨(fanOut_carryOut h.found _ _).trans (congrArg some (if_pos rfl)), fun key n => ?_,
    fun st hst => ?_⟩
  · show (f.handlers.insert ⟨name, f.nextEpoch⟩ s.arrivals).get? key = some n ↔ _
    by_cases hkey : key = ⟨name, f.nextEpoch⟩
    · rw [hkey, SortedMap.get?_insert_self]
      constructor
      · intro hn
        exact ⟨_, List.mem_append_right _ (List.mem_singleton_self _), rfl, Option.some.inj hn, rfl⟩
      · rintro ⟨st, hst, hk, hn, -⟩
        rcases List.mem_append.mp hst with hst | hst
        · exact absurd (List.mem_map.mpr ⟨st, hst, hk⟩) (h.new_key name)
        · rw [← hn, List.mem_singleton.mp hst]
    · rw [SortedMap.get?_insert_of_ne hkey, h.seated]
      constructor
      · rintro ⟨st, hst, hst'⟩
        exact ⟨st, List.mem_append_left _ hst, hst'⟩
      · rintro ⟨st, hst, hk, hst'⟩
        rcases List.mem_append.mp hst with hst | hst
        · exact ⟨st, hst, hk, hst'⟩
        · rw [List.mem_singleton.mp hst] at hk
          exact absurd hk.symm hkey
  · rcases List.mem_append.mp hst with hst | hst
    · exact Nat.lt_succ_of_lt (h.past st hst)
    · rw [List.mem_singleton.mp hst]
      exact Nat.lt_succ_self _

theorem Seats.leave (h : Seats index stays s.informer.fanOuts f) (key : HandlerKey) :
    Seats index (stays.map (Stay.leave key now))
      (Request.carryOut s.informer s.arrivals (.leave index key)).fanOuts (f.leave key).1 := by
  refine ⟨(fanOut_carryOut h.found _ _).trans (congrArg some (if_pos rfl)), fun key' n => ?_,
    fun st hst => ?_⟩
  · show (f.handlers.erase key).get? key' = some n ↔ _
    by_cases hkey : key' = key
    · subst hkey
      rw [SortedMap.get?_erase_self]
      refine ⟨fun hn => absurd hn (by simp), ?_⟩
      rintro ⟨st, hst, hk, -, hleft⟩
      obtain ⟨old, -, rfl⟩ := List.mem_map.mp hst
      rw [Stay.leave_key] at hk
      rw [Stay.left_leave, if_pos hk] at hleft
      exact absurd (Option.or_eq_none_iff.mp hleft).2 (by simp)
    · rw [SortedMap.get?_erase_of_ne hkey, h.seated]
      have hother : ∀ st : Stay, st.key = key' → st.leave key now = st :=
        fun st hk => if_neg fun he => hkey (hk.symm.trans he)
      constructor
      · rintro ⟨st, hst, hk, hst'⟩
        exact ⟨st, List.mem_map.mpr ⟨st, hst, hother st hk⟩, hk, hst'⟩
      · rintro ⟨st, hst, hk, hst'⟩
        obtain ⟨old, hold, rfl⟩ := List.mem_map.mp hst
        rw [Stay.leave_key] at hk
        rw [hother old hk] at hst'
        exact ⟨old, hold, hk, hst'⟩
  · obtain ⟨old, hold, rfl⟩ := List.mem_map.mp hst
    rw [Stay.leave_key]
    exact h.past old hold

theorem Seats.request (h : Seats index stays s.informer.fanOuts f) (now : Nat) (r : Request) :
    ∃ f', Seats index (staysAfter s index now stays r)
      (r.carryOut s.informer s.arrivals).fanOuts f' := by
  rcases request_cases s index now stays f r with ⟨name, rfl⟩ | ⟨key, rfl⟩ | ⟨hsame, hf⟩
  · rw [staysAfter_join h.found]
    exact ⟨_, h.come name⟩
  · rw [staysAfter_leave]
    exact ⟨_, h.leave key⟩
  · rw [hsame]
    exact ⟨f, (fanOut_carryOut h.found _ _).trans (congrArg some hf), h.seated, h.past⟩

theorem new_handler (hknown : ∀ st ∈ stays, st.handler < s.arrivals) :
    s.arrivals ∉ stays.map Stay.handler := by
  intro hmem
  obtain ⟨st, hst, hn⟩ := List.mem_map.mp hmem
  have hlt := hknown st hst
  rw [hn] at hlt
  exact Nat.lt_irrefl _ hlt

/-- The record stays right when something is requested. -/
theorem attended_request (h : Seats index stays s.informer.fanOuts f)
    (hknown : ∀ st ∈ stays, st.handler < s.arrivals) {ds : List (Dispatch α)}
    (hds : Attended stays ds) (r : Request) :
    Attended (staysAfter s index ds.length stays r) ds := by
  rcases request_cases s index ds.length stays f r with ⟨name, rfl⟩ | ⟨key, rfl⟩ | ⟨hsame, -⟩
  · rw [staysAfter_join h.found]
    exact hds.come (h.new_key name) (new_handler hknown)
  · rw [staysAfter_leave]
    exact hds.leave key
  · rw [hsame]
    exact hds

end Seats

/-! ## The session -/

/-- A call tells nobody behind the fan-out anything but what was there when he came. -/
def Plain (stays : List Stay) (c : Call α Nat) : Prop :=
  ∀ st ∈ stays, c.target = .handler st.handler → ∃ a, c.event = .add a true

section Placed

variable [Object α]

/-- The handlers of the record are behind the fan-out and nowhere else. -/
structure Placed (s : Session α) (index : Nat) (stays : List Stay) : Prop where
  sound : s.informer.store.Sound
  /-- What has not come is nowhere. -/
  absent : ∀ t, ¬s.Known t → s.Absent t
  once : s.informer.targets.count (.fanOut index) ≤ 1
  fanOut : ∃ f, Seats index stays s.informer.fanOuts f
  known : ∀ st ∈ stays, s.Known (.handler st.handler)
  aloof : ∀ st ∈ stays, .handler st.handler ∉ s.informer.targets ∧
    ∀ k, k ≠ index → .handler st.handler ∉ s.informer.joined k

variable {s : Session α} {index : Nat} {stays : List Stay}

theorem Placed.known_fanOut (h : Placed s index stays) : s.Known (.fanOut index) := by
  obtain ⟨f, hf⟩ := h.fanOut
  exact (List.getElem?_eq_some_iff.mp hf.found).1

/-- Only what has come is told anything. -/
theorem Placed.known_of_pending (h : Placed s index stays) {d : Delivery α Nat}
    (hd : d ∈ s.informer.deliveries) {c : Call α Nat} (hc : c ∈ d.pending) :
    s.Known c.target := by
  by_contra hno
  have hahead := (List.append_eq_nil_iff.mp (h.absent c.target hno).untold).2
  have hmem : c.event ∈ s.informer.ahead (· == c.target) :=
    List.mem_map.mpr ⟨c, List.mem_filter.mpr ⟨List.mem_flatMap.mpr ⟨d, hd, hc⟩,
      beq_self_eq_true c.target⟩, rfl⟩
  rw [hahead] at hmem
  exact absurd hmem List.not_mem_nil

/-- An act brings nobody among those that are known to other places. -/
theorem aloof_perform {n : Nat} (hn : s.Known (.handler n)) (a : Session.Act α)
    (h : .handler n ∉ s.informer.targets ∧ ∀ k, k ≠ index → .handler n ∉ s.informer.joined k) :
    .handler n ∉ (s.perform a).informer.targets ∧
      ∀ k, k ≠ index → .handler n ∉ (s.perform a).informer.joined k := by
  have hw : Wanes s (s.perform a) (· == .handler n) := wanes_perform (known_of_beq hn)
  refine ⟨fun hm => h.1 (hw.mem_targets hm), fun k hk hm => h.2 k hk ?_⟩
  exact List.count_pos_iff.mp (Nat.lt_of_lt_of_le (List.count_pos_iff.mpr hm) (hw.joined k))

theorem placed_perform (h : Placed s index stays) {a : Session.Act α}
    (ha : Steady s.informer (s.perform a).informer) : Placed (s.perform a) index stays := by
  obtain ⟨f, hf⟩ := h.fanOut
  refine ⟨sound_perform h.sound a, fun t ht => ?_, ?_, ⟨f, ha.fanOuts ▸ hf⟩,
    fun st hst => known_perform (h.known st hst) a,
    fun st hst => aloof_perform (h.known st hst) a (h.aloof st hst)⟩
  · exact absent_perform h.sound (h.absent t fun hk => ht (known_perform hk a)) ht
  · rw [ha.targets]
    exact h.once

/-- The newcomer is behind the fan-out only. -/
theorem aloof_join (h : s.Absent (.handler s.arrivals)) {f : FanOut Nat}
    (hf : s.informer.fanOuts[index]? = some f) (name : String) :
    .handler s.arrivals ∉ (s.perform (.request (.join index name))).informer.targets ∧
      ∀ k, k ≠ index →
        .handler s.arrivals ∉ (s.perform (.request (.join index name))).informer.joined k := by
  have hjoin : ∃ inf key, s.informer.join? index name s.arrivals = some (inf, key) := by
    unfold join?
    rw [hf]
    exact ⟨_, _, rfl⟩
  obtain ⟨inf, key, hj⟩ := hjoin
  have hinf : (s.perform (.request (.join index name))).informer = inf := by
    show Request.carryOut s.informer s.arrivals (.join index name) = inf
    unfold Request.carryOut
    dsimp only
    rw [hj]
  obtain ⟨-, htargets, -, hjoined⟩ := join?_spec hj (· == .handler s.arrivals)
  rw [hinf, htargets]
  refine ⟨List.count_eq_zero.mp h.unregistered, fun k hk => List.count_eq_zero.mp ?_⟩
  have hle := hjoined k
  rw [if_neg fun he => hk he.1] at hle
  exact Nat.le_zero.mp (h.apart k ▸ hle)

theorem placed_request (h : Placed s index stays) (now : Nat) (r : Request) :
    Placed (s.perform (.request r)) index (staysAfter s index now stays r) := by
  obtain ⟨f, hf⟩ := h.fanOut
  have hw : Wanes s (s.perform (.request r)) (· == .fanOut index) :=
    wanes_perform (known_of_beq h.known_fanOut)
  refine ⟨sound_perform h.sound _, fun t ht => ?_, Nat.le_trans hw.registered h.once,
    hf.request now r, fun st hst => ?_, fun st hst => ?_⟩
  · exact absent_perform h.sound (h.absent t fun hk => ht (known_perform hk _)) ht
  · rcases mem_staysAfter hst hf.found with ⟨old, hold, hn⟩ | ⟨hn, -⟩
    · exact known_perform (hn ▸ h.known old hold) _
    · rw [hn]
      exact Nat.lt_succ_self _
  · rcases mem_staysAfter hst hf.found with ⟨old, hold, hn⟩ | ⟨hn, name, rfl⟩
    · rw [← hn]
      exact aloof_perform (h.known old hold) _ (h.aloof old hold)
    · rw [hn]
      exact aloof_join (h.absent _ (Nat.lt_irrefl _)) hf.found name

/-- To what is delivered, a request of another thread does nothing. -/
theorem placed_aside (h : Placed s index stays) (now : Nat) (r : Request) :
    Placed (requestAside s r) index (staysAfter s index now stays r) := by
  obtain ⟨hsound, habsent, honce, hfan, hknown, haloof⟩ := placed_request h now r
  refine ⟨hsound, fun t ht => ?_, honce, hfan, hknown, haloof⟩
  have hbefore := h.absent t fun hk => ht (known_perform hk (.request r))
  exact ⟨(habsent t ht).unregistered, (habsent t ht).apart, hbefore.untold⟩

/-- What was said before somebody came is not for him. -/
theorem Plain.request {c : Call α Nat} (hplain : Plain stays c) (h : Placed s index stays)
    (hc : s.Known c.target) (now : Nat) (r : Request) : Plain (staysAfter s index now stays r) c := by
  obtain ⟨f, hf⟩ := h.fanOut
  intro st hst ht
  rcases mem_staysAfter hst hf.found with ⟨old, hold, hn⟩ | ⟨hn, -⟩
  · exact hplain old hold (hn ▸ ht)
  · rw [ht, hn] at hc
    exact absurd hc (Nat.lt_irrefl _)

end Placed

/-! ## The record -/

/-- What is written down is right. -/
structure Kept [Object α] (s : Broadcast α) : Prop where
  placed : Placed s.session s.index s.stays
  heard : s.session.heard (.fanOut s.index) = s.dispatches.map Dispatch.event
  told : s.session.told (.fanOut s.index) (· == .fanOut s.index) = s.emitted
  attended : Attended s.stays s.dispatches
  /-- The calls that were made are those of the dispatches, but for what the one under way has left;
  the other deliveries tell nobody behind the fan-out what a dispatch does. -/
  serial : ∃ rest others, Holds s.index s.under s.session.informer.deliveries rest others ∧
    s.made ++ rest.map (fun c => (s.dispatches.length - 1, c)) = numbered s.dispatches ∧
      ∀ d ∈ others, ∀ c ∈ d.pending, Plain s.stays c
  logged : ∀ x ∈ s.log, s.session.Known x.2.target ∧ (x.1 = none → Plain s.stays x.2)
  replays : ∀ cs ∈ s.beside, ∀ c ∈ cs, s.session.Known c.target ∧ ∃ a, c.event = .add a true

section Kept

variable [Object α] {s : Broadcast α}

/-- A request, of this thread or another one. -/
theorem kept_request (h : s.Kept) (r : Request) {x : Session α} {beside : List (List (Call α Nat))}
    (hplaced : Placed x s.index (staysAfter s.session s.index s.dispatches.length s.stays r))
    (hknown : ∀ t, s.session.Known t → x.Known t) (hcalls : x.calls = s.session.calls)
    (pushed : List (Delivery α Nat))
    (hdeliveries : x.informer.deliveries = pushed ++ s.session.informer.deliveries)
    (hpushed : ∀ d ∈ pushed, Apart s.index d ∧ ∀ c ∈ d.pending, ∃ a, c.event = .add a true)
    (hbeside : ∀ cs ∈ beside, ∀ c ∈ cs, x.Known c.target ∧ ∃ a, c.event = .add a true) :
    Kept { s.note (.request r) with session := x, beside } := by
  obtain ⟨f, hf⟩ := h.placed.fanOut
  obtain ⟨rest, others, hholds, hmade, hothers⟩ := h.serial
  have hheard : x.heard (.fanOut s.index) = s.session.heard (.fanOut s.index) := by
    unfold heard
    rw [hcalls]
  have hahead : x.informer.ahead (· == .fanOut s.index) =
      s.session.informer.ahead (· == .fanOut s.index) := by
    unfold ahead
    rw [hdeliveries, List.flatMap_append, eventsFor_append]
    have hnone : eventsFor (· == .fanOut s.index) (pushed.flatMap Delivery.pending) = [] := by
      refine List.map_eq_nil_iff.mpr (List.filter_eq_nil_iff.mpr fun c hc hbeq => ?_)
      obtain ⟨d, hd, hc⟩ := List.mem_flatMap.mp hc
      exact (hpushed d hd).1 c hc (eq_of_beq hbeq)
    rw [hnone, List.nil_append]
  refine ⟨hplaced, hheard.trans h.heard, ?_, attended_request hf h.placed.known h.attended r,
    ⟨rest, pushed ++ others, ?_, hmade, fun d hd c hc => ?_⟩, fun y hy => ?_, hbeside⟩
  · show x.heard (.fanOut s.index) ++ x.informer.ahead (· == .fanOut s.index) = s.emitted
    rw [hheard, hahead]
    exact h.told
  · show Holds s.index s.under x.informer.deliveries rest _
    rw [hdeliveries]
    exact hholds.push pushed fun d hd => (hpushed d hd).1
  · rcases List.mem_append.mp hd with hd | hd
    · exact fun _ _ _ => (hpushed d hd).2 c hc
    · exact (hothers d hd c hc).request h.placed
        (h.placed.known_of_pending (hholds.mem_of_others hd) hc) _ r
  · obtain ⟨hy, hplain⟩ := h.logged y hy
    exact ⟨hknown _ hy, fun hnone => (hplain hnone).request h.placed hy _ r⟩

theorem kept_onSession_request (h : s.Kept) (r : Request) :
    (s.perform (.onSession (.request r))).Kept := by
  obtain ⟨pushed, hd, hp⟩ := deliveries_carryOut h.placed.known_fanOut s.session.arrivals r
  exact kept_request h r (placed_request h.placed _ r) (fun _ ht => known_perform ht _) rfl
    pushed hd hp fun cs hcs c hc => (h.replays cs hcs c hc).imp_left fun hk => known_perform hk _

/-- What the other thread has to deliver are replays. -/
theorem replay_of_mem_replaysAside (h : s.Kept) {r : Request} {cs : List (Call α Nat)}
    (hcs : cs ∈ replaysAside s.session r) {c : Call α Nat} (hc : c ∈ cs) :
    (s.session.perform (.request r)).Known c.target ∧ ∃ a, c.event = .add a true := by
  obtain ⟨pushed, hd, hp⟩ := deliveries_carryOut h.placed.known_fanOut s.session.arrivals r
  have hafter : (s.session.perform (.request r)).informer.deliveries =
      pushed ++ s.session.informer.deliveries := hd
  have htake : replaysAside s.session r = pushed.map Delivery.pending := by
    unfold replaysAside
    dsimp only
    rw [hafter, List.length_append, Nat.add_sub_cancel, List.take_left]
  rw [htake] at hcs
  obtain ⟨d, hd, rfl⟩ := List.mem_map.mp hcs
  refine ⟨(placed_request h.placed 0 r).known_of_pending ?_ hc, (hp d hd).2 c hc⟩
  rw [hafter]
  exact List.mem_append_left _ hd

theorem kept_aside (h : s.Kept) (k : Nat) (name : String) : (s.perform (.aside k name)).Kept := by
  have hknown : ∀ t, (s.session.perform (.request (.join k name))).Known t →
      (requestAside s.session (.join k name)).Known t := by
    intro t ht
    cases t <;> exact ht
  refine kept_request h (.join k name) (placed_aside h.placed _ _)
    (fun t ht => hknown t (known_perform ht _)) rfl [] rfl (fun _ hd => absurd hd List.not_mem_nil)
    fun cs hcs c hc => ?_
  rcases List.mem_append.mp hcs with hcs | hcs
  · exact (h.replays cs hcs c hc).imp_left fun hk => hknown _ (known_perform hk _)
  · exact (replay_of_mem_replaysAside h hcs hc).imp_left (hknown _)

theorem kept_proceedAside (h : s.Kept) (i : Nat) : (s.perform (.proceedAside i)).Kept := by
  unfold perform
  dsimp only
  split
  next c cs hcs =>
    obtain ⟨rest, others, hholds, hmade, hothers⟩ := h.serial
    have hmem := List.mem_of_getElem? hcs
    have hc := h.replays _ hmem c List.mem_cons_self
    refine ⟨h.placed, h.heard, h.told, h.attended, ⟨rest, others, hholds, ?_, hothers⟩,
      fun x hx => ?_, fun cs' hcs' c' hc' => ?_⟩
    · refine (congrArg (· ++ _) ?_).trans hmade
      exact (made_concat s.log none c).trans (List.append_nil _)
    · rcases List.mem_append.mp hx with hx | hx
      · exact h.logged x hx
      · rw [List.mem_singleton.mp hx]
        exact ⟨hc.1, fun _ _ _ _ => hc.2⟩
    · rcases List.mem_or_eq_of_mem_set hcs' with hcs' | rfl
      · exact h.replays cs' hcs' c' hc'
      · exact h.replays _ hmem c' (List.mem_cons_of_mem c hc')
  next => exact h

/-! ## Batches and calls -/

/-- What the fan-out is told grows by what the source tells. -/
theorem told_perform (h : s.Kept) (a : Session.Act α) :
    (s.session.perform a).told (.fanOut s.index) (· == .fanOut s.index) =
      s.emitted ++ if .fanOut s.index ∈ s.session.informer.targets then a.events s.session
        else [] := by
  have hroute : s.session.Routed (.fanOut s.index) (· == .fanOut s.index) :=
    routed_self (count_fanOut_joined _)
  have ht := (tells_perform (a := a) h.placed.sound h.placed.once hroute
    (known_of_beq h.placed.known_fanOut)).told
  rw [ht, h.told]
  refine congrArg _ (if_congr ?_ rfl rfl)
  rw [List.any_eq_true]
  exact ⟨fun ⟨u, hu, hbeq⟩ => eq_of_beq hbeq ▸ hu, fun hm => ⟨_, hm, beq_self_eq_true _⟩⟩

theorem kept_batch (h : s.Kept) (b : Batch α) : (s.perform (.onSession (.batch b))).Kept := by
  obtain ⟨rest, others, hholds, hmade, hothers⟩ := h.serial
  refine ⟨placed_perform h.placed (steady_batch _ b), ?_, told_perform h _, h.attended, ?_,
    fun x hx => (h.logged x hx).imp_left fun hk => known_perform hk _,
    fun cs hcs c hc => (h.replays cs hcs c hc).imp_left fun hk => known_perform hk _⟩
  · show eventsFor _ (s.session.perform (.batch b)).calls = _
    rw [calls_batch]
    exact h.heard
  · rcases deliveries_batch s.session b with hd | ⟨hr, es, completes, hd⟩
    · exact ⟨rest, others, hd.symm ▸ hholds, hmade, hothers⟩
    · have hnil : s.session.informer.deliveries = [] := hr
      rw [hnil] at hholds
      obtain ⟨hu, rfl, rfl⟩ := hholds.of_nil
      refine ⟨[], _, Or.inl ⟨hu, rfl, rfl⟩, hmade, fun d hmem c hc st hst ht => ?_⟩
      -- nobody behind the fan-out is registered as well
      rw [show (s.perform (.onSession (.batch b))).session.informer.deliveries = _ from hd] at hmem
      rw [List.mem_singleton.mp hmem] at hc
      exact absurd (ht ▸ (of_mem_callsOf hc).2) (h.placed.aloof st hst).1

/-- A call is made, whatever delivery it belongs to. -/
theorem kept_call (h : s.Kept) {c : Call α Nat} {cs : List (Call α Nat)} {completes : Bool}
    {ds : List (Delivery α Nat)} (hd : s.session.informer.deliveries = ⟨c :: cs, completes⟩ :: ds)
    (hplain : s.number = none → Plain s.stays c)
    (hserial : ∃ rest others, Holds s.index (s.noteCall c).under
      (s.session.perform .proceed).informer.deliveries rest others ∧
        (s.noteCall c).made ++ rest.map (fun c' => ((s.noteCall c).dispatches.length - 1, c')) =
          numbered (s.noteCall c).dispatches ∧ ∀ d ∈ others, ∀ c ∈ d.pending, Plain s.stays c) :
    (s.perform (.onSession .proceed)).Kept := by
  obtain ⟨f, hf⟩ := h.placed.fanOut
  obtain ⟨made, hstep⟩ := proceeds_proceed s.session
  have hnext : s.session.informer.next? =
      some (c, { s.session.informer with deliveries := ⟨cs, completes⟩ :: ds }) := by
    unfold next?
    rw [hd]
  have hnote : s.note .proceed = s.noteCall c := by
    unfold note
    dsimp only
    rw [hnext]
  have hcalls : (s.session.perform .proceed).calls = s.session.calls ++ [c] := by
    unfold Session.perform
    dsimp only
    rw [hnext]
  have hc : s.session.Known c.target :=
    h.placed.known_of_pending (hd ▸ List.mem_cons_self) List.mem_cons_self
  have htold := told_perform h .proceed
  show Kept { s.note .proceed with session := s.session.perform .proceed }
  rw [hnote]
  refine ⟨placed_perform h.placed hstep.steady, ?_, ?_, ?_, hserial, fun x hx => ?_,
    fun cs hcs c hc => (h.replays cs hcs c hc).imp_left fun hk => known_perform hk _⟩
  · show eventsFor (· == .fanOut s.index) (s.session.perform .proceed).calls =
      (if c.target = .fanOut s.index then _ else _ : List (Dispatch α)).map Dispatch.event
    have hheard : eventsFor (· == .fanOut s.index) s.session.calls = _ := h.heard
    rw [hcalls, eventsFor_append, hheard, eventsFor_singleton]
    by_cases ht : c.target = .fanOut s.index
    · rw [if_pos (beq_iff_eq.mpr ht), if_pos ht, List.map_append]
      rfl
    · rw [if_neg fun hbeq => ht (eq_of_beq hbeq), if_neg ht, List.append_nil]
  · exact htold.trans (by rw [Act.events, ite_self, List.append_nil]; rfl)
  · show Attended s.stays (if c.target = .fanOut s.index then _ else _)
    split
    next =>
      unfold audience
      rw [hf.found]
      exact h.attended.dispatch c.event hf.seated
    next => exact h.attended
  · rcases List.mem_append.mp hx with hx | hx
    · exact (h.logged x hx).imp_left fun hk => known_perform hk _
    · rw [List.mem_singleton.mp hx]
      exact ⟨known_perform hc _, hplain⟩

omit [Object α] in
theorem noteCall_of_ne {c : Call α Nat} (h : c.target ≠ .fanOut s.index) :
    s.noteCall c = { s with log := s.log ++ [(s.number, c)] } := by
  unfold noteCall
  rw [if_neg h, if_neg h]

omit [Object α] in
theorem noteCall_of_eq {c : Call α Nat} (h : c.target = .fanOut s.index) :
    s.noteCall c = { s with
      log := s.log ++ [(s.number, c)]
      dispatches := s.dispatches ++ [⟨c.event, s.audience⟩]
      under := some (s.depth + 1) } := by
  unfold noteCall
  rw [if_pos h, if_pos h]

section Call

variable {c : Call α Nat} {cs rest : List (Call α Nat)} {completes : Bool}
  {ds others : List (Delivery α Nat)}

/-- The dispatch under way makes a call. -/
theorem kept_call_own (h : s.Kept) (hd : s.session.informer.deliveries = ⟨c :: cs, completes⟩ :: ds)
    (hholds : Holds s.index s.under (⟨cs, completes⟩ :: ds) cs ds)
    (hown : s.under = some (ds.length + 1))
    (hmade : s.made ++ (c :: cs).map (fun c => (s.dispatches.length - 1, c)) =
      numbered s.dispatches)
    (hothers : ∀ d ∈ ds, ∀ c ∈ d.pending, Plain s.stays c) :
    (s.perform (.onSession .proceed)).Kept := by
  have hmem : (s.dispatches.length - 1, c) ∈ numbered s.dispatches := by
    rw [← hmade]
    exact List.mem_append_right _ (List.mem_map_of_mem List.mem_cons_self)
  obtain ⟨n, hn⟩ := handler_of_mem_numbered hmem
  have hnumber : s.number = some (s.dispatches.length - 1) :=
    if_pos (hown.trans (congrArg (fun ds => some (List.length ds)) hd).symm)
  have hnot : c.target ≠ .fanOut s.index := fun he => absurd (hn.symm.trans he) (by simp)
  refine kept_call h hd (fun hnone => absurd (hnumber.symm.trans hnone) (by simp)) ?_
  rw [noteCall_of_ne hnot, deliveries_call hd, hn, hnumber]
  refine ⟨cs, ds, hholds, ?_, hothers⟩
  rw [← hmade]
  show (s.log ++ [_]).filterMap _ ++ _ = _
  rw [made_concat, List.append_assoc]
  rfl

/-- A call for the fan-out begins a dispatch. -/
theorem kept_call_fanOut (h : s.Kept)
    (hd : s.session.informer.deliveries = ⟨c :: cs, completes⟩ :: ds)
    (ht : c.target = .fanOut s.index) (hnumber : s.number = none)
    (hmade : s.made = numbered s.dispatches)
    (hothers : ∀ d ∈ ⟨c :: cs, completes⟩ :: ds, ∀ c ∈ d.pending, Plain s.stays c) :
    (s.perform (.onSession .proceed)).Kept := by
  obtain ⟨f, hf⟩ := h.placed.fanOut
  have haudience : s.audience = f.handlers.entries := by
    unfold audience
    rw [hf.found]
  have hdepth : s.depth = ds.length + 1 := congrArg List.length hd
  refine kept_call h hd (fun _ => hothers _ List.mem_cons_self c List.mem_cons_self) ?_
  rw [noteCall_of_eq ht, deliveries_call hd, ht, hnumber, haudience, hdepth]
  refine ⟨_, _, Or.inr ⟨[], false, ⟨cs, completes⟩ :: ds, rfl, rfl, rfl,
    fun _ hd => absurd hd List.not_mem_nil⟩, ?_, fun d hd c' hc' => ?_⟩
  · show (s.log ++ [_]).filterMap _ ++ _ = numbered (s.dispatches ++ [_])
    rw [made_concat, numbered_concat, calls_dispatch hf.found, ← hmade, List.length_append,
      List.length_singleton, Nat.add_sub_cancel]
    exact congrArg (· ++ _) (List.append_nil _)
  · rcases List.mem_cons.mp hd with rfl | hd
    · exact hothers _ List.mem_cons_self c' (List.mem_cons_of_mem c hc')
    · exact hothers d (List.mem_cons_of_mem _ hd) c' hc'

/-- Any other call is for somebody who is not behind the fan-out, or comes from a replay. -/
theorem kept_call_other (h : s.Kept)
    (hd : s.session.informer.deliveries = ⟨c :: cs, completes⟩ :: ds)
    (ht : c.target ≠ .fanOut s.index) (hnumber : s.number = none)
    (hholds : Holds s.index s.under (⟨cs, completes⟩ :: ds) rest (⟨cs, completes⟩ :: others))
    (hmade : s.made ++ rest.map (fun c => (s.dispatches.length - 1, c)) = numbered s.dispatches)
    (hothers : ∀ d ∈ ⟨c :: cs, completes⟩ :: others, ∀ c ∈ d.pending, Plain s.stays c) :
    (s.perform (.onSession .proceed)).Kept := by
  have hmade' : (s.log ++ [(s.number, c)]).filterMap (fun x => x.1.map fun i => (i, x.2)) ++
      rest.map (fun c => (s.dispatches.length - 1, c)) = numbered s.dispatches := by
    rw [made_concat, hnumber, ← hmade]
    exact congrArg (· ++ _) (List.append_nil _)
  have hrest : ∀ d ∈ ⟨cs, completes⟩ :: others, ∀ c ∈ d.pending, Plain s.stays c := by
    intro d hd c' hc'
    rcases List.mem_cons.mp hd with rfl | hd
    · exact hothers _ List.mem_cons_self c' (List.mem_cons_of_mem c hc')
    · exact hothers d (List.mem_cons_of_mem _ hd) c' hc'
  refine kept_call h hd (fun _ => hothers _ List.mem_cons_self c List.mem_cons_self) ?_
  rw [noteCall_of_ne ht, deliveries_call hd]
  cases hc : c.target with
  | handler n => exact ⟨rest, _, hholds, hmade', hrest⟩
  | fanOut k =>
    -- what another fan-out passes on goes to the handlers behind that one
    refine ⟨rest, _, hholds.push [_] fun d hd c' hc' hfan => ?_, hmade',
      fun d hd c' hc' st hst hn => ?_⟩
    · rw [List.mem_singleton.mp hd] at hc'
      obtain ⟨n, -, hn⟩ := List.mem_map.mp (of_mem_callsOf hc').2
      exact absurd (hn.trans hfan) (by simp)
    · rcases List.mem_cons.mp hd with rfl | hd
      · have hk : k ≠ s.index := fun he => ht (hc.trans (congrArg _ he))
        exact absurd (hn ▸ (of_mem_callsOf hc').2) ((h.placed.aloof st hst).2 k hk)
      · exact hrest d hd c' hc' st hst hn

end Call

/-- No call is next, so a delivery ends, if there is one. -/
theorem kept_end (h : s.Kept) (hnext : s.session.informer.next? = none)
    (hserial : ∃ rest others, Holds s.index (if s.under = some s.depth then none else s.under)
      s.session.informer.close.deliveries rest others ∧
        s.made ++ rest.map (fun c => (s.dispatches.length - 1, c)) = numbered s.dispatches ∧
          ∀ d ∈ others, ∀ c ∈ d.pending, Plain s.stays c) :
    (s.perform (.onSession .proceed)).Kept := by
  obtain ⟨made, hstep⟩ := proceeds_proceed s.session
  have hnote : s.note .proceed = s.noteEnd := by
    unfold note
    dsimp only
    rw [hnext]
  have hsession : s.session.perform .proceed =
      { s.session with informer := s.session.informer.close } := by
    unfold Session.perform
    dsimp only
    rw [hnext]
  have htold := told_perform h .proceed
  show Kept { s.note .proceed with session := s.session.perform .proceed }
  rw [hnote]
  refine ⟨placed_perform h.placed hstep.steady, ?_, ?_, h.attended, ?_,
    fun x hx => (h.logged x hx).imp_left fun hk => known_perform hk _,
    fun cs hcs c hc => (h.replays cs hcs c hc).imp_left fun hk => known_perform hk _⟩
  · rw [hsession]
    exact h.heard
  · exact htold.trans (by rw [Act.events, ite_self, List.append_nil]; rfl)
  · rw [hsession]
    exact hserial

theorem kept_proceed (h : s.Kept) : (s.perform (.onSession .proceed)).Kept := by
  obtain ⟨rest, others, hholds, hmade, hothers⟩ := h.serial
  cases hd : s.session.informer.deliveries with
  | nil =>
    rw [hd] at hholds
    obtain ⟨hu, rfl, rfl⟩ := hholds.of_nil
    have hclose : s.session.informer.close = s.session.informer := by
      unfold close
      rw [hd]
    refine kept_end h (by unfold next?; rw [hd]) ⟨[], [], Or.inl ⟨?_, rfl, ?_⟩, hmade, hothers⟩
    · rw [hu, ite_self]
    · rw [hclose, hd]
  | cons d ds =>
    obtain ⟨pending, completes⟩ := d
    rw [hd] at hholds
    have hdepth : s.depth = ds.length + 1 := congrArg List.length hd
    cases pending with
    | nil =>
      obtain ⟨others', hsub, hholds'⟩ := hholds.close
      have hclose : s.session.informer.close.deliveries = ds := by
        unfold close
        rw [hd]
      refine kept_end h (by unfold next?; rw [hd]) ⟨rest, others', ?_, hmade,
        fun d hd => hothers d (hsub d hd)⟩
      rw [hdepth, hclose]
      exact hholds'
    | cons c cs =>
      by_cases hown : s.under = some (ds.length + 1)
      · obtain ⟨rfl, rfl, hholds'⟩ := hholds.next_own hown
        exact kept_call_own h hd hholds' hown hmade hothers
      · have hnumber : s.number = none := if_neg (hdepth ▸ hown)
        obtain ⟨others', rfl, hholds', hidle⟩ := hholds.next_other hown
        by_cases ht : c.target = .fanOut s.index
        · -- no dispatch is under way, so this one is not inside another one
          rcases hholds with ⟨-, rfl, ho⟩ | ⟨_, _, _, hu, -⟩
          · rw [ho] at hothers
            rw [List.map_nil, List.append_nil] at hmade
            exact kept_call_fanOut h hd ht hnumber hmade hothers
          · exact absurd ((hidle ht).symm.trans hu) (by simp)
        · exact kept_call_other h hd ht hnumber hholds' hmade hothers

theorem kept_perform (h : s.Kept) (a : Act α) : (s.perform a).Kept := by
  cases a with
  | onSession a =>
    cases a with
    | batch b => exact kept_batch h b
    | request r => exact kept_onSession_request h r
    | proceed => exact kept_proceed h
  | aside k name => exact kept_aside h k name
  | proceedAside i => exact kept_proceedAside h i

theorem kept_run (acts : List (Act α)) : ∀ {s : Broadcast α}, s.Kept → (s.run acts).Kept := by
  induction acts with
  | nil => exact fun h => h
  | cons a acts ih => exact fun h => ih (kept_perform h a)

/-- A fan-out that has just been added is to be told what is stored, and nobody is behind it. -/
theorem kept_begin (before : List (Session.Act α)) : (begin before).Kept := by
  have hadded := fanOut_added before
  have hfollows := follows_fanOut _ _ (List.getElem?_eq_some_iff.mp hadded).1
  obtain ⟨hheard, hahead⟩ := List.append_eq_nil_iff.mp
    (absent_run before (.fanOut (Session.run before).informer.fanOuts.length)
      (Nat.lt_irrefl _)).untold
  have hnobody : ∀ {P : Stay → Prop}, ∀ st ∈ ([] : List Stay), P st :=
    fun _ hst => absurd hst List.not_mem_nil
  refine ⟨⟨sound_run _, absent_run _, hfollows.once, ⟨_, hadded, fun key n => ?_, hnobody⟩,
    hnobody, hnobody⟩, ?_, ?_, .nil, ⟨[], _, Or.inl ⟨rfl, rfl, rfl⟩, rfl, fun _ _ _ _ => hnobody⟩,
    fun _ hx => absurd hx List.not_mem_nil, fun _ hcs => absurd hcs List.not_mem_nil⟩
  · exact ⟨fun hn => absurd hn (by simp [FanOut.new]), fun ⟨_, hst, _⟩ => absurd hst List.not_mem_nil⟩
  · show (Session.run (before ++ _)).heard _ = []
    rw [run_concat]
    exact hheard
  · show (Session.run (before ++ _)).told _ _ = _
    rw [run_concat]
    have htold : ∀ t, (Session.run before).heard t = [] →
        (Session.run before).informer.ahead (· == t) = [] →
          (Session.run before).heard t ++
            ((Session.run before).informer.register t).1.ahead (· == t) =
              Event.replay (Session.run before).informer.store.list := by
      intro t hheard hahead
      rw [hheard, ahead_register, hahead, beq_self_eq_true, List.append_nil]
      rfl
    exact htold _ hheard hahead

end Kept

/-! ## What follows -/

/-- Everything is passed on as it ought to be. -/
structure Faithful (s : Broadcast α) : Prop where
  /-- The events that are dispatched are those that the source tells, each once and in their order;
  some may still be ahead. -/
  source : s.dispatches.map Dispatch.event ++ s.session.informer.ahead (· == .fanOut s.index) =
    s.emitted
  /-- The handlers of a dispatch stand in the order of their keys: by name, then by epoch. -/
  ordered : ∀ d ∈ s.dispatches, (d.audience.map Prod.fst).Pairwise fun a b => compare a b = .lt
  /-- The calls that were made are all calls of one dispatch after the other, but for what the last
  one has left, which is nothing at rest. -/
  serial : ∃ rest, s.made ++ rest = numbered s.dispatches ∧
    (∀ x ∈ rest, x.1 + 1 = s.dispatches.length) ∧ (s.session.AtRest → rest = [])
  /-- A dispatch is for those during whose stay it begins: neither for those that come later, be it
  in one of its own callbacks, nor for those that have left. -/
  audience : ∀ st ∈ s.stays, ∀ i d, s.dispatches[i]? = some d →
    ((st.key, st.handler) ∈ d.audience ↔ st.covers i = true)
  /-- What dispatches have told a handler are the events of its stay, each once and in their order,
  but for the one that is being dispatched. -/
  received : ∀ st ∈ s.stays, ∃ rest,
    forHandler st.handler s.made ++ rest = st.events s.dispatches ∧
      (∀ x ∈ rest, x.1 + 1 = s.dispatches.length) ∧ (s.session.AtRest → rest = [])
  /-- All else that a handler is told is what was there when it came. -/
  replayed : ∀ st ∈ s.stays, ∀ c, (none, c) ∈ s.log → c.target = .handler st.handler →
    ∃ a, c.event = .add a true
  /-- Handlers that stay over the same stretch have been told the same of it. -/
  alike : ∀ st ∈ s.stays, ∀ st' ∈ s.stays, ∀ a b,
    (∀ i, a ≤ i → i < b → st.covers i = true ∧ st'.covers i = true) →
      b < s.dispatches.length ∨ s.session.AtRest →
        (forHandler st.handler s.made).filter (fun x => decide (a ≤ x.1) && decide (x.1 < b)) =
          (forHandler st'.handler s.made).filter fun x => decide (a ≤ x.1) && decide (x.1 < b)

/-- Whoever comes, in this thread or in another one, stays from now on, under a key of his own.
Whoever leaves has stayed until now.  And deliveries end. -/
structure Responds [Object α] (s : Broadcast α) : Prop where
  comes : ∀ name, ∃ key : HandlerKey, key.name = name ∧ key ∉ s.stays.map Stay.key ∧
    s.session.arrivals ∉ s.stays.map Stay.handler ∧
      ∀ a ∈ [Act.onSession (.request (.join s.index name)), .aside s.index name],
        (s.perform a).stays = s.stays ++ [⟨key, s.session.arrivals, s.dispatches.length, none⟩]
  leaves : ∀ key, (s.perform (.onSession (.request (.leave s.index key)))).stays =
    s.stays.map (Stay.leave key s.dispatches.length)
  settles : ∃ n, (s.run (List.replicate n (.onSession .proceed))).session.AtRest

section Faithful

variable [Object α] {s : Broadcast α}

theorem Kept.calls_made (h : s.Kept) : ∃ rest, s.made ++ rest = numbered s.dispatches ∧
    (∀ x ∈ rest, x.1 + 1 = s.dispatches.length) ∧ (s.session.AtRest → rest = []) := by
  obtain ⟨rest, others, hholds, hmade, -⟩ := h.serial
  refine ⟨_, hmade, fun x hx => ?_, fun hr => ?_⟩
  · have hlt : x.1 < s.dispatches.length := by
      refine lt_of_mem_numbered ?_
      rw [← hmade]
      exact List.mem_append_right _ hx
    obtain ⟨c, -, rfl⟩ := List.mem_map.mp hx
    dsimp only at hlt ⊢
    omega
  · rw [show s.session.informer.deliveries = [] from hr] at hholds
    rw [hholds.of_nil.2.1]
    rfl

theorem Kept.events_received (h : s.Kept) {st : Stay} (hst : st ∈ s.stays) : ∃ rest,
    forHandler st.handler s.made ++ rest = st.events s.dispatches ∧
      (∀ x ∈ rest, x.1 + 1 = s.dispatches.length) ∧ (s.session.AtRest → rest = []) := by
  obtain ⟨rest, hmade, hlast, hrest⟩ := h.calls_made
  refine ⟨forHandler st.handler rest, ?_, fun x hx => ?_, fun hr => ?_⟩
  · rw [← forHandler_append, hmade]
    exact h.attended.forHandler_numbered hst
  · obtain ⟨y, hy, rfl⟩ := List.mem_map.mp hx
    exact hlast y (List.mem_filter.mp hy).1
  · rw [hrest hr]
    rfl

/-- Of a stretch that is over, a handler has been told all. -/
theorem Kept.received_between (h : s.Kept) {st : Stay} (hst : st ∈ s.stays) {a b : Nat}
    (hover : b < s.dispatches.length ∨ s.session.AtRest) :
    (forHandler st.handler s.made).filter (fun x => decide (a ≤ x.1) && decide (x.1 < b)) =
      (st.events s.dispatches).filter fun x => decide (a ≤ x.1) && decide (x.1 < b) := by
  obtain ⟨rest, hevents, hlast, hrest⟩ := h.events_received hst
  rw [← hevents, List.filter_append]
  have hnone : rest.filter (fun x => decide (a ≤ x.1) && decide (x.1 < b)) = [] := by
    rcases hover with hb | hr
    · refine List.filter_eq_nil_iff.mpr fun x hx hbetween => ?_
      have hlt := of_decide_eq_true (Bool.and_eq_true_iff.mp hbetween).2
      have := hlast x hx
      omega
    · rw [hrest hr]
      rfl
  rw [hnone, List.append_nil]

theorem Kept.faithful (h : s.Kept) : s.Faithful where
  source := by
    rw [← h.heard]
    exact h.told
  ordered := h.attended.ordered
  serial := h.calls_made
  audience := h.attended.covered
  received _ hst := h.events_received hst
  replayed st hst c hc ht := (h.logged _ hc).2 rfl st hst ht
  alike st hst st' hst' a b hboth hover := by
    rw [h.received_between hst hover, h.received_between hst' hover]
    exact Stay.events_between hboth _

theorem session_proceed (n : Nat) : ∀ s : Broadcast α,
    (s.run (List.replicate n (.onSession .proceed))).session =
      (List.replicate n Session.Act.proceed).foldl Session.perform s.session := by
  induction n with
  | zero => exact fun _ => rfl
  | succ n ih => exact fun s => ih (s.perform (.onSession .proceed))

theorem Kept.responds (h : s.Kept) : s.Responds where
  comes name := by
    obtain ⟨f, hf⟩ := h.placed.fanOut
    refine ⟨⟨name, f.nextEpoch⟩, rfl, hf.new_key name, new_handler h.placed.known, fun a ha => ?_⟩
    rcases List.mem_cons.mp ha with rfl | ha
    · exact staysAfter_join hf.found name
    · rw [List.mem_singleton.mp ha]
      exact staysAfter_join hf.found name
  leaves key := staysAfter_leave s.session s.index s.dispatches.length s.stays key
  settles := by
    obtain ⟨n, hn⟩ := comes_to_rest s.session
    refine ⟨n, ?_⟩
    rw [session_proceed]
    exact hn

/-- **A fan-out delivers exactly once and in order.**  Take any acts of an informer, a fan-out that
is added to it, and any acts after that, in which handlers come and leave, in callbacks and in other
threads.  A callback that panics cuts a run short, and what has been told until then is as it is
said here. -/
theorem faithful_run (before : List (Session.Act α)) (acts : List (Act α)) :
    ((begin before).run acts).Faithful ∧ ((begin before).run acts).Responds :=
  ⟨(kept_run acts (kept_begin before)).faithful, (kept_run acts (kept_begin before)).responds⟩

/-- A second handler comes while the first one is told of an item.  It hears of the next item, and
before the other, as its key is the lesser one. -/
example :
    let s := (begin []).run ([.onSession .proceed, .onSession (.request (.join 0 "b")),
      .onSession .proceed, .onSession (.batch (.change (.added (item "x" 1)))),
      .onSession .proceed, .aside 0 "a"] ++ List.replicate 5 (.onSession .proceed) ++
      .onSession (.batch (.change (.added (item "y" 1)))) ::
        List.replicate 5 (.onSession .proceed))
    s.dispatches.map Dispatch.audience = [[(⟨"b", 0⟩, 1)], [(⟨"a", 1⟩, 2), (⟨"b", 0⟩, 1)]] ∧
      s.made.map (fun x => (x.1, x.2.target)) =
        [(0, .handler 1), (1, .handler 2), (1, .handler 1)] := by
  decide +kernel

end Faithful

end Broadcast

end InformerHub
