import Mathlib.Data.List.Induction
import InformerHub.Proofs.Tenure
import InformerHub.Scenario.Object

/-!
# Batches are delivered whole and in order

`Transcript` is a session with the ledger of its deliveries and the tenures of all who have been
registered.  Handlers are registered and removed at any time, from inside callbacks too, and a
callback may panic, which ends the deliveries that it is in.

> Every batch tells all its events, one after the other, each of them to those who were registered
> when it began, in the order of registration.  Whoever comes is told all that is stored, and then
> every batch that begins before his removal (`orderly_run`).

`Enters` lists what an act can do to the registrations; with `Delivers` it is all that the proof
needs of the informer.
-/

namespace InformerHub

open Informer Session

variable {α : Type}

namespace Session

/-! ## Who comes and goes -/

/-- The id that an act removes. -/
def removed? (s : Session α) : Act α → Option Nat
  | .request (.removeHandler .direct id) => some id
  | .request (.dropFanOut index) => s.informer.fanOuts[index]?.map FanOut.registration
  | _ => none

/-- The innermost `n` deliveries end where they are. -/
def abandon (s : Session α) (n : Nat) : Session α :=
  { s with informer := { s.informer with deliveries := s.informer.deliveries.drop n } }

/-- Somebody runs the informer. -/
def start (s : Session α) : Session α := { s with informer := s.informer.start.1 }

theorem filter_none (regs : List (Registration Nat)) :
    regs.filter (fun g => decide (some g.id ≠ none)) = regs :=
  List.filter_eq_self.mpr fun _ _ => rfl

theorem filter_unregister (inf : Informer α Nat) (id : Nat) :
    (inf.unregister id).1.registrations =
      inf.registrations.filter fun g => decide (some g.id ≠ some id) :=
  List.filter_congr fun g _ => by rw [Bool.eq_iff_iff]; simp

variable [Object α]

/-- All that can happen to the registrations while `s` becomes `s'`: an id is removed, somebody is
registered, or nothing happens.  The last argument is what begins to be delivered. -/
inductive Enters (s s' : Session α) :
    Option Nat → Option (Target Nat) → Option (Occasion α) → Prop
  | goes (id : Option Nat) (hregs : s'.informer.registrations =
      s.informer.registrations.filter fun g => decide (some g.id ≠ id))
    (hnext : s'.informer.nextId = s.informer.nextId) : Enters s s' id none none
  | comes (u : Target Nat)
    (hregs : s'.informer.registrations = s.informer.registrations ++ [⟨s.informer.nextId, u⟩])
    (hnext : s'.informer.nextId = s.informer.nextId + 1) (hnew : ¬s.Known u) (hu : s'.Known u)
    (hstore : s'.informer.store = s.informer.store)
    (hjoined : ∀ k, s'.informer.joined k = s.informer.joined k) :
    Enters s s' none (some u) (some (.replay ⟨s.informer.nextId, u⟩ s.informer.store.list))
  | batch (b : Batch α) (hregs : s'.informer.registrations = s.informer.registrations)
    (hnext : s'.informer.nextId = s.informer.nextId) : Enters s s' none none
      (some (.batch b (b.events s.informer) s.informer.registrations))
  /-- Handlers behind a fan-out are told something, or one of them comes. -/
  | aside {calls : List (Call α Nat)}
    (hregs : s'.informer.registrations = s.informer.registrations)
    (hnext : s'.informer.nextId = s.informer.nextId)
    (hcalls : ∀ c ∈ calls, (∃ k, c.target ∈ s.informer.joined k) ∨
      ¬s.Known c.target ∧ s'.Known c.target) : Enters s s' none none (some (.aside calls))

/-- Nobody comes or goes. -/
theorem Enters.steady {s s' : Session α} (h : Steady s.informer s'.informer) :
    Enters s s' none none none :=
  .goes none (h.registrations.trans (filter_none _).symm) h.nextId

/-- What is replayed is what is stored. -/
theorem Enters.stock {s s' : Session α} {id : Option Nat} {u : Option (Target Nat)}
    {o : Option (Occasion α)} (h : Enters s s' id u o) {r : Registration Nat} {stock : List α}
    (ho : .replay r stock ∈ o.toList) : stock = s.informer.store.list := by
  cases h with
  | goes => exact absurd ho List.not_mem_nil
  | comes u => exact (Occasion.replay.inj (List.mem_singleton.mp ho)).2
  | batch => exact absurd (List.mem_singleton.mp ho) (by simp)
  | aside => exact absurd (List.mem_singleton.mp ho) (by simp)

theorem enters_request (s : Session α) (r : Request) :
    Enters s (s.perform (.request r)) (s.removed? (.request r)) (s.newcomer? (.request r))
      (s.occasion? (.request r)) := by
  have hsame : ∀ {inf : Informer α Nat}, Steady s.informer inf →
      r.carryOut s.informer s.arrivals = inf →
        Enters s (s.perform (.request r)) none none none :=
    fun h he => .steady (show Steady s.informer (r.carryOut s.informer s.arrivals) from he ▸ h)
  cases r with
  | addHandler a =>
    cases a with
    | direct =>
      exact .comes _ rfl rfl (Nat.lt_irrefl _) (Nat.lt_succ_self _) rfl fun _ => rfl
    | dynamic => exact hsame (steady_refl _) rfl
  | removeHandler a id =>
    cases a with
    | direct => exact .goes (some id) (filter_unregister s.informer id) rfl
    | dynamic => exact hsame (steady_refl _) rfl
  | addFanOut a =>
    cases a with
    | direct =>
      refine .comes _ rfl rfl (Nat.lt_irrefl _) ?_ rfl fun k => joined_append_new _ _ k
      show s.informer.fanOuts.length < (s.informer.fanOuts ++ [_]).length
      rw [List.length_append]
      exact Nat.lt_succ_self _
    | dynamic => exact hsame (steady_refl _) rfl
  | dropFanOut index =>
    show Enters s ⟨s.informer.dropFanOut index, _, _⟩ (s.informer.fanOuts[index]?.map _) none none
    unfold dropFanOut
    cases s.informer.fanOuts[index]? with
    | none => exact .goes none (filter_none _).symm rfl
    | some f => exact .goes _ (filter_unregister s.informer f.registration) rfl
  | join index name =>
    show Enters s ⟨Request.carryOut s.informer s.arrivals (.join index name), _, _⟩ none none _
    simp only [Request.carryOut, join?, occasion?]
    cases s.informer.fanOuts[index]? with
    | none => exact .goes none (filter_none _).symm rfl
    | some f =>
      refine .aside rfl rfl fun c hc => Or.inr ?_
      rw [List.mem_singleton.mp (of_mem_callsOf hc).2]
      exact ⟨Nat.lt_irrefl _, Nat.lt_succ_self _⟩
  | leave index key =>
    show Enters s ⟨(s.informer.leave index key).1, _, _⟩ none none none
    unfold leave
    cases s.informer.fanOuts[index]? with
    | none => exact .goes none (filter_none _).symm rfl
    | some f => exact .goes none (filter_none _).symm rfl

/-- An act does one of the things that are listed. -/
theorem enters_perform (s : Session α) (a : Act α) :
    Enters s (s.perform a) (s.removed? a) (s.newcomer? a) (s.occasion? a) := by
  cases a with
  | batch b =>
    have hs : Steady s.informer (s.perform (.batch b)).informer :=
      (steady_perform s (.batch b)).resolve_left (by simp)
    show Enters s (s.perform (.batch b)) none none (s.occasion? (.batch b))
    unfold occasion?
    dsimp only
    split
    next => exact .batch b hs.registrations hs.nextId
    next => exact .steady hs
  | request r => exact enters_request s r
  | proceed =>
    have hs : Steady s.informer (s.perform .proceed).informer :=
      (steady_perform s .proceed).resolve_left (by simp)
    show Enters s (s.perform .proceed) none none (s.occasion? .proceed)
    unfold occasion?
    dsimp only
    split
    next index e _ =>
      refine .aside hs.registrations hs.nextId fun c hc => Or.inl ⟨index, (of_mem_callsOf hc).2⟩
    next => exact .steady hs

end Session

/-! ## Transcripts -/

/-- A session, the ledger of its deliveries, and the tenures of all who were ever registered. -/
structure Transcript (α : Type) where
  session : Session α
  ledger : Ledger α
  tenures : List Tenure

namespace Transcript

inductive Act (α : Type) where
  | onSession (a : Session.Act α)
  | start
  /-- A callback panics.  What it is called from ends, up to where the panic is caught. -/
  | panic (n : Nat)

/-- The tenures after an act, before which some deliveries had begun. -/
def tenuresAfter (s : Session α) (begun : Nat) (ts : List Tenure) (a : Session.Act α) :
    List Tenure :=
  ts.map (Tenure.leave (s.removed? a) begun) ++
    (s.newcomer? a).toList.map fun u => ⟨⟨s.informer.nextId, u⟩, begun, none⟩

def new : Transcript α := ⟨.new, .new, []⟩

section Run

variable [Object α]

def perform (t : Transcript α) : Act α → Transcript α
  | .onSession a =>
    { session := t.session.perform a
      ledger := t.ledger.note (t.session.deed? a) (t.session.occasion? a)
      tenures := tenuresAfter t.session t.ledger.occasions.length t.tenures a }
  | .start => { t with session := t.session.start }
  | .panic n => { t with session := t.session.abandon n, ledger := t.ledger.abandon n }

def run (t : Transcript α) (acts : List (Act α)) : Transcript α := acts.foldl perform t

/-- What an act does to the session. -/
def Act.onto (s : Session α) : Act α → Session α
  | .onSession a => s.perform a
  | .start => s.start
  | .panic n => s.abandon n

theorem session_run (acts : List (Act α)) (t : Transcript α) :
    (t.run acts).session = acts.foldl Act.onto t.session := by
  induction acts generalizing t with
  | nil => rfl
  | cons a acts ih =>
    refine (ih (t.perform a)).trans (congrArg (acts.foldl Act.onto) ?_)
    cases a <;> rfl

end Run

/-- What a target has been told, with the numbers of the deliveries. -/
def heard (t : Transcript α) (u : Target Nat) : List (Nat × Event α) :=
  (t.ledger.log.filter fun x => x.2.target == u).map fun x => (x.1, x.2.event)

/-! ## What is kept -/

/-- A target is that of one tenure, and is told nothing but what it is told as such. -/
structure Named (s : Session α) (os : List (Occasion α)) (ts : List Tenure) : Prop where
  targets : (ts.map Tenure.target).Nodup
  known : ∀ tn ∈ ts, s.Known tn.target
  apart : ∀ tn ∈ ts, ∀ k, tn.target ∉ s.informer.joined k
  behind : ∀ k, ∀ u ∈ s.informer.joined k, s.Known u
  called : ∀ o ∈ os, ∀ c ∈ o.calls, s.Known c.target
  asides : ∀ calls, .aside calls ∈ os → ∀ c ∈ calls, ∀ tn ∈ ts, c.target ≠ tn.target

section Named

variable {s : Session α} {os : List (Occasion α)} {ts : List Tenure}

theorem Named.leave (h : Named s os ts) (id : Option Nat) (now : Nat) :
    Named s os (ts.map (Tenure.leave id now)) := by
  have htarget : Tenure.target ∘ Tenure.leave id now = Tenure.target :=
    funext fun tn => congrArg Registration.target (tn.leave_registration id now)
  have hold : ∀ {tn : Tenure}, tn ∈ ts.map (Tenure.leave id now) →
      ∃ old ∈ ts, tn.target = old.target := by
    intro tn htn
    obtain ⟨old, hmem, rfl⟩ := List.mem_map.mp htn
    exact ⟨old, hmem, congrFun htarget old⟩
  refine ⟨?_, fun tn htn => ?_, fun tn htn k => ?_, h.behind, h.called,
    fun calls ho c hc tn htn => ?_⟩
  · rw [List.map_map, htarget]
    exact h.targets
  · obtain ⟨old, hmem, ht⟩ := hold htn
    rw [ht]
    exact h.known old hmem
  · obtain ⟨old, hmem, ht⟩ := hold htn
    rw [ht]
    exact h.apart old hmem k
  · obtain ⟨old, hmem, ht⟩ := hold htn
    rw [ht]
    exact h.asides calls ho c hc old hmem

/-- Who has just come has been nowhere. -/
theorem Named.come (h : Named s os ts) {s' : Session α} (tn : Tenure)
    (hnew : ¬s.Known tn.target) (hknown : s'.Known tn.target) (hmono : ∀ u, s.Known u → s'.Known u)
    (hjoined : ∀ k, s'.informer.joined k = s.informer.joined k) (stock : List α) :
    Named s' (os ++ [.replay tn.registration stock]) (ts ++ [tn]) := by
  refine ⟨?_, fun tn' htn => ?_, fun tn' htn k => ?_, fun k u hu => ?_, fun o ho c hc => ?_,
    fun calls ho c hc tn' htn => ?_⟩
  · rw [List.map_append]
    refine h.targets.append (List.nodup_singleton _) fun u hu hu' => hnew ?_
    obtain ⟨old, hmem, rfl⟩ := List.mem_map.mp hu
    rw [← List.mem_singleton.mp hu']
    exact h.known old hmem
  · rcases List.mem_append.mp htn with htn | htn
    · exact hmono _ (h.known tn' htn)
    · rw [List.mem_singleton.mp htn]
      exact hknown
  · rw [hjoined]
    rcases List.mem_append.mp htn with htn | htn
    · exact h.apart tn' htn k
    · rw [List.mem_singleton.mp htn]
      exact fun hmem => hnew (h.behind k _ hmem)
  · rw [hjoined] at hu
    exact hmono u (h.behind k u hu)
  · rcases List.mem_append.mp ho with ho | ho
    · exact hmono _ (h.called o ho c hc)
    · rw [List.mem_singleton.mp ho] at hc
      rw [List.mem_singleton.mp (of_mem_callsOf hc).2]
      exact hknown
  · rcases List.mem_append.mp ho with ho | ho
    · rcases List.mem_append.mp htn with htn | htn
      · exact h.asides calls ho c hc tn' htn
      · rw [List.mem_singleton.mp htn]
        exact fun ht => hnew (ht ▸ h.called _ ho c hc)
    · exact absurd (List.mem_singleton.mp ho) (by simp)

variable [Object α]

/-- No act puts behind a fan-out who has been elsewhere, or who has not come. -/
theorem mem_joined_perform {a : Session.Act α} {u : Target Nat} {k : Nat}
    (hu : s.Known u ∨ ¬(s.perform a).Known u) (hmem : u ∈ (s.perform a).informer.joined k) :
    u ∈ s.informer.joined k := by
  have hw : Wanes s (s.perform a) (· == u) := by
    rcases hu with hu | hu
    · exact wanes_perform (known_of_beq hu)
    · refine wanes_perform fun v hv hk => absurd hk ?_
      rw [eq_of_beq hv]
      exact hu
  exact List.count_pos_iff.mp (Nat.lt_of_lt_of_le (List.count_pos_iff.mpr hmem) (hw.joined k))

/-- With the same tenures, all that is needed of what begins is that it calls nobody unknown, and
none of the tenures unless it is a batch or a replay. -/
theorem Named.step (h : Named s os ts) (a : Session.Act α) {os' : List (Occasion α)}
    (hcalled : ∀ o ∈ os', ∀ c ∈ o.calls, (s.perform a).Known c.target)
    (hasides : ∀ calls, .aside calls ∈ os' → ∀ c ∈ calls, ∀ tn ∈ ts, c.target ≠ tn.target) :
    Named (s.perform a) (os ++ os') ts where
  targets := h.targets
  known tn htn := known_perform (h.known tn htn) a
  apart tn htn k hmem := h.apart tn htn k (mem_joined_perform (Or.inl (h.known tn htn)) hmem)
  behind k u hmem := by
    by_contra hu
    exact hu (known_perform (h.behind k u (mem_joined_perform (Or.inr hu) hmem)) a)
  called o ho c hc := by
    rcases List.mem_append.mp ho with ho | ho
    · exact known_perform (h.called o ho c hc) a
    · exact hcalled o ho c hc
  asides calls ho c hc tn htn := by
    rcases List.mem_append.mp ho with ho | ho
    · exact h.asides calls ho c hc tn htn
    · exact hasides calls ho c hc tn htn

end Named

/-- The ledger and the tenures are right about the session. -/
structure Kept [Object α] (t : Transcript α) : Prop where
  sound : t.session.informer.store.Sound
  ledger : t.ledger.Kept t.session.informer.deliveries
  calls : t.session.calls = t.ledger.log.map Prod.snd
  enrolled : Enrolled t.session.informer.registrations t.ledger.occasions t.tenures
  named : Named t.session t.ledger.occasions t.tenures
  issued : ∀ tn ∈ t.tenures, tn.registration.id < t.session.informer.nextId
  /-- A replay goes through the store in the order of the keys. -/
  stocks : ∀ r stock, .replay r stock ∈ t.ledger.occasions →
    (stock.map keyOf).Pairwise fun a b => compare a b = .lt

section Kept

variable [Object α] {t : Transcript α}

theorem kept_new : (new : Transcript α).Kept where
  sound := Store.sound_empty
  ledger := Ledger.kept_new
  calls := rfl
  enrolled := .nil
  named := by
    refine ⟨.nil, ?_, ?_, fun k u hu => absurd hu List.not_mem_nil, ?_, ?_⟩ <;>
      exact fun _ h => absurd h List.not_mem_nil
  issued tn htn := absurd htn List.not_mem_nil
  stocks r stock ho := absurd ho List.not_mem_nil

theorem enrolled_enter {s s' : Session α} {os : List (Occasion α)} {ts : List Tenure}
    (h : Enrolled s.informer.registrations os ts) {id : Option Nat} {u : Option (Target Nat)}
    {o : Option (Occasion α)} (he : Enters s s' id u o) :
    Enrolled s'.informer.registrations (os ++ o.toList)
      (ts.map (Tenure.leave id os.length) ++
        u.toList.map fun u => ⟨⟨s.informer.nextId, u⟩, os.length, none⟩) := by
  have hstay : ts.map (Tenure.leave none os.length) = ts :=
    List.map_id'' (Tenure.leave_none os.length) ts
  cases he with
  | goes id hregs =>
    rw [hregs]
    simp only [Option.toList_none, List.map_nil, List.append_nil]
    exact h.leave id
  | comes u hregs =>
    rw [hregs, hstay]
    exact h.come _ _
  | batch b hregs =>
    rw [hregs, hstay]
    simp only [Option.toList_none, List.map_nil, List.append_nil]
    exact h.concat (by simp) fun _ _ _ ho => (Occasion.batch.inj ho).2.2.symm
  | aside hregs =>
    rw [hregs, hstay]
    simp only [Option.toList_none, List.map_nil, List.append_nil]
    exact h.concat (by simp) (by simp)

theorem named_enter {s : Session α} {a : Session.Act α} {os : List (Occasion α)}
    {ts : List Tenure} (h : Named s os ts)
    (hregs : ∀ g ∈ s.informer.registrations, s.Known g.target) {id : Option Nat}
    {u : Option (Target Nat)} {o : Option (Occasion α)} (he : Enters s (s.perform a) id u o) :
    Named (s.perform a) (os ++ o.toList)
      (ts.map (Tenure.leave id os.length) ++
        u.toList.map fun u => ⟨⟨s.informer.nextId, u⟩, os.length, none⟩) := by
  have hstay : ts.map (Tenure.leave none os.length) = ts :=
    List.map_id'' (Tenure.leave_none os.length) ts
  cases he with
  | goes id =>
    simp only [Option.toList_none, List.map_nil, List.append_nil]
    have hs : Named (s.perform a) (os ++ []) ts := h.step a (by simp) (by simp)
    rw [List.append_nil] at hs
    exact hs.leave id os.length
  | comes u _ _ hnew hu _ hjoined =>
    rw [hstay]
    exact h.come ⟨⟨_, u⟩, _, none⟩ hnew hu (fun _ hk => known_perform hk a) hjoined _
  | batch b =>
    rw [hstay]
    simp only [Option.toList_none, List.map_nil, List.append_nil]
    refine h.step a (fun o ho c hc => ?_) (by simp)
    obtain rfl := List.mem_singleton.mp ho
    obtain ⟨g, hg, hgt⟩ := List.mem_map.mp (of_mem_callsOf hc).2
    exact known_perform (hgt ▸ hregs g hg) a
  | aside _ _ hcalls =>
    rw [hstay]
    simp only [Option.toList_none, List.map_nil, List.append_nil]
    refine h.step a (fun o ho c hc => ?_) (fun calls ho c hc tn htn ht => ?_)
    · obtain rfl := List.mem_singleton.mp ho
      rcases hcalls c hc with ⟨k, hk⟩ | ⟨-, hnew⟩
      · exact known_perform (h.behind k _ hk) a
      · exact hnew
    · obtain rfl := Occasion.aside.inj (List.mem_singleton.mp ho)
      rcases hcalls c hc with ⟨k, hk⟩ | ⟨hnew, -⟩
      · exact h.apart tn htn k (ht ▸ hk)
      · exact hnew (ht ▸ h.known tn htn)

/-- The ids of all tenures have been given out. -/
theorem issued_enter {s s' : Session α} {ts : List Tenure} {begun : Nat}
    (h : ∀ tn ∈ ts, tn.registration.id < s.informer.nextId) {id : Option Nat}
    {u : Option (Target Nat)} {o : Option (Occasion α)} (he : Enters s s' id u o) :
    ∀ tn ∈ ts.map (Tenure.leave id begun) ++
      u.toList.map (fun u => ⟨⟨s.informer.nextId, u⟩, begun, none⟩),
        tn.registration.id < s'.informer.nextId := by
  have hold : ∀ tn ∈ ts.map (Tenure.leave id begun), tn.registration.id < s.informer.nextId := by
    intro tn htn
    obtain ⟨old, hmem, rfl⟩ := List.mem_map.mp htn
    rw [Tenure.leave_registration]
    exact h old hmem
  intro tn htn
  cases he with
  | goes id hregs hnext | batch b hregs hnext | aside hregs hnext =>
    rw [hnext]
    rw [Option.toList_none, List.map_nil, List.append_nil] at htn
    exact hold tn htn
  | comes u _ hnext =>
    rw [hnext]
    rcases List.mem_append.mp htn with htn | htn
    · exact Nat.lt_succ_of_lt (hold tn htn)
    · rw [List.mem_singleton.mp htn]
      exact Nat.lt_succ_self _

theorem Kept.known_of_registered (h : t.Kept) :
    ∀ g ∈ t.session.informer.registrations, t.session.Known g.target := by
  intro g hg
  rw [h.enrolled.present] at hg
  obtain ⟨tn, htn, rfl⟩ := List.mem_map.mp hg
  exact h.named.known tn (List.mem_filter.mp htn).1

theorem kept_onSession (h : t.Kept) (a : Session.Act α) : (t.perform (.onSession a)).Kept := by
  have hd := delivers_perform t.session a
  have he := enters_perform t.session a
  have hoccasions : (t.perform (.onSession a)).ledger.occasions =
      t.ledger.occasions ++ (t.session.occasion? a).toList := Ledger.occasions_note ..
  refine ⟨sound_perform h.sound a, h.ledger.note hd, ?_, ?_, ?_, issued_enter h.issued he,
    fun r stock ho => ?_⟩
  · show (t.session.perform a).calls = _
    rw [calls_perform, h.calls]
    exact (h.ledger.calls_note hd).symm
  · rw [hoccasions]
    exact enrolled_enter h.enrolled he
  · rw [hoccasions]
    exact named_enter h.named h.known_of_registered he
  · rw [hoccasions] at ho
    rcases List.mem_append.mp ho with ho | ho
    · exact h.stocks r stock ho
    · rw [he.stock ho, Store.map_keyOf_list h.sound]
      exact SortedMap.keys_increasing _

theorem kept_perform (h : t.Kept) (a : Act α) : (t.perform a).Kept := by
  cases a with
  | onSession a => exact kept_onSession h a
  | start =>
    exact ⟨h.sound, h.ledger, h.calls, h.enrolled,
      ⟨h.named.targets, h.named.known, h.named.apart, h.named.behind, h.named.called,
        h.named.asides⟩, h.issued, h.stocks⟩
  | panic n =>
    exact ⟨h.sound, h.ledger.abandon n, h.calls, h.enrolled,
      ⟨h.named.targets, h.named.known, h.named.apart, h.named.behind, h.named.called,
        h.named.asides⟩, h.issued, h.stocks⟩

theorem kept_run (acts : List (Act α)) : (new.run acts : Transcript α).Kept := by
  unfold run
  induction acts using List.reverseRecOn with
  | nil => exact kept_new
  | append_singleton acts a ih =>
    rw [List.foldl_append]
    exact kept_perform ih a

end Kept

/-! ## What everybody is told -/

section Heard

/-- What a target has been told by one delivery. -/
theorem heard_filter (t : Transcript α) (u : Target Nat) (n : Nat) :
    (t.heard u).filter (·.1 == n) =
      (eventsFor (· == u) (t.ledger.made n)).map fun e => (n, e) := by
  unfold heard eventsFor Ledger.made
  rw [List.filter_map, List.filter_map, List.map_map, List.map_map, List.filter_comm]
  refine List.map_congr_left fun x hx => ?_
  have hn : x.1 = n := eq_of_beq (List.mem_filter.mp (List.mem_filter.mp hx).1).2
  exact congrArg (·, x.2.event) hn

variable [Object α] {t : Transcript α} {tn : Tenure}

/-- The calls for a target are those of its replay, and of the batches that its tenure covers. -/
theorem Kept.cases_of_mem_log (h : t.Kept) (htn : tn ∈ t.tenures) {x : Nat × Call α Nat}
    (hx : x ∈ t.ledger.log) (ht : x.2.target = tn.target) : x.1 = tn.own ∨
      tn.covers x.1 = true ∧ ∃ o, t.ledger.occasions[x.1]? = some o ∧ o.isBatch = true := by
  obtain ⟨o, ho, hc⟩ := h.ledger.mem_calls (n := x.1) (c := x.2) hx
  have hdue := h.enrolled.eventsFor_calls h.named.targets htn ho fun calls hcalls c' hc' =>
    h.named.asides calls (hcalls ▸ List.mem_of_getElem? ho) c' hc' tn htn
  have hmem : x.2.event ∈ tn.due x.1 o := by
    rw [← hdue]
    exact List.mem_map_of_mem (List.mem_filter.mpr ⟨hc, beq_iff_eq.mpr ht⟩)
  unfold Tenure.due at hmem
  cases o with
  | batch b events audience =>
    by_cases hcovers : tn.covers x.1 = true
    · exact Or.inr ⟨hcovers, _, ho, rfl⟩
    · exact absurd hmem (by simp [hcovers])
  | replay r stock =>
    by_cases hown : x.1 = tn.own
    · exact Or.inl hown
    · exact absurd hmem (by simp [hown])
  | aside calls => exact absurd hmem List.not_mem_nil

/-- A target is told of one delivery after the other. -/
theorem Kept.heard_sorted (h : t.Kept) (htn : tn ∈ t.tenures) :
    (t.heard tn.target).Pairwise (·.1 ≤ ·.1) := by
  refine List.pairwise_map.mpr (List.pairwise_filter.mpr ?_)
  refine h.ledger.serial.imp_of_mem fun {x y} hx hy hserial htx hty => ?_
  rcases h.cases_of_mem_log htn hx (eq_of_beq htx) with hown | ⟨-, o, ho, hbatch⟩
  · rw [hown]
    rcases h.cases_of_mem_log htn hy (eq_of_beq hty) with hown' | ⟨hcovers, -⟩
    · exact Nat.le_of_eq hown'.symm
    · exact Nat.le_of_lt (of_decide_eq_true (Bool.and_eq_true_iff.mp hcovers).1)
  · exact hserial o ho hbatch

/-- Of what is over, a target has been told all that is due, and nothing else. -/
theorem Kept.received (h : t.Kept) (htn : tn ∈ t.tenures) :
    (t.heard tn.target).filter (fun x => decide (t.ledger.Over x.1)) =
      (tn.dues t.ledger.occasions).filter fun x => decide (t.ledger.Over x.1) := by
  obtain ⟨hsorted, hparts⟩ := tn.dues_spec t.ledger.occasions
  refine eq_of_filter_eq Prod.fst ((h.heard_sorted htn).filter _) (hsorted.filter _) fun n => ?_
  rw [List.filter_comm, List.filter_comm (l := tn.dues _), heard_filter, hparts]
  by_cases hover : t.ledger.Over n
  · refine congrArg _ (congrArg _ ?_)
    cases ho : t.ledger.occasions[n]? with
    | some o =>
      rw [h.ledger.full n o ho hover]
      exact h.enrolled.eventsFor_calls h.named.targets htn ho fun calls hcalls c hc =>
        h.named.asides calls (hcalls ▸ List.mem_of_getElem? ho) c hc tn htn
    | none =>
      have hnone : t.ledger.made n = [] := by
        unfold Ledger.made
        rw [List.map_eq_nil_iff, List.filter_eq_nil_iff]
        intro x hx hn
        have hlt := h.ledger.begun x hx
        rw [eq_of_beq hn] at hlt
        exact absurd (List.getElem?_eq_none_iff.mp ho) (Nat.not_le_of_lt hlt)
      rw [hnone]
      rfl
  · have hnone : ∀ es : List (Event α), (es.map fun e => (n, e)).filter
        (fun x => decide (t.ledger.Over x.1)) = [] := by
      intro es
      refine List.filter_eq_nil_iff.mpr fun x hx hb => hover ?_
      obtain ⟨e, -, rfl⟩ := List.mem_map.mp hx
      exact of_decide_eq_true hb
    rw [hnone, hnone]

end Heard

/-! ## The theorem -/

/-- What is said of a session in which batches are delivered whole and in order. -/
structure Orderly [Object α] (t : Transcript α) : Prop where
  /-- The log is about all calls that were made, and what is under way has the others. -/
  calls : t.session.calls = t.ledger.log.map Prod.snd
  depth : t.ledger.underWay.length = t.session.informer.deliveries.length
  pending : ∀ x ∈ t.ledger.underWay.zip t.session.informer.deliveries,
    ∃ o, t.ledger.occasions[x.1]? = some o ∧ t.ledger.made x.1 ++ x.2.pending = o.calls
  /-- Those who are registered are those who came and have not been removed, in the order in which
  they came. -/
  present : t.session.informer.registrations =
    (t.tenures.filter (·.left.isNone)).map Tenure.registration
  distinct : (t.tenures.map Tenure.target).Nodup
  /-- A batch is for those who were registered when it began. -/
  audience : ∀ n b events audience,
    t.ledger.occasions[n]? = some (.batch b events audience) →
      audience = (t.tenures.filter (·.covers n)).map Tenure.registration
  /-- They are told each event before the next one, all of them unless a callback panics. -/
  whole : ∀ n b events audience, t.ledger.occasions[n]? = some (.batch b events audience) →
    t.ledger.made n <+: callsOf events (audience.map Registration.target) ∧
      (t.ledger.Over n → t.ledger.made n = callsOf events (audience.map Registration.target))
  /-- After a batch has made a call, nothing that began before it makes another one. -/
  serial : t.ledger.log.Pairwise fun x y => ∀ b events audience,
    t.ledger.occasions[x.1]? = some (.batch b events audience) → x.1 ≤ y.1
  /-- Whoever comes is told what is stored, each item once, in the order of the keys. -/
  replayed : ∀ tn ∈ t.tenures, ∃ stock,
    t.ledger.occasions[tn.own]? = some (.replay tn.registration stock) ∧
      (stock.map keyOf).Pairwise (fun a b => compare a b = .lt) ∧
        t.ledger.made tn.own <+: callsOf (Event.replay stock) [tn.target] ∧
          (t.ledger.Over tn.own → t.ledger.made tn.own = callsOf (Event.replay stock) [tn.target])
  /-- Of all that is over, he has been told that and the batches that began while he was there. -/
  received : ∀ tn ∈ t.tenures,
    (t.heard tn.target).filter (fun x => decide (t.ledger.Over x.1)) =
      (tn.dues t.ledger.occasions).filter fun x => decide (t.ledger.Over x.1)
  /-- Two who were there when the same batches began have been told the same of them. -/
  alike : ∀ tn ∈ t.tenures, ∀ tn' ∈ t.tenures,
    ((t.heard tn.target).filter fun x => decide (t.ledger.Over x.1)).filter
        (fun x => tn.covers x.1 && tn'.covers x.1) =
      ((t.heard tn'.target).filter fun x => decide (t.ledger.Over x.1)).filter
        fun x => tn.covers x.1 && tn'.covers x.1

/-- What comes next. -/
structure Responds [Object α] (t : Transcript α) : Prop where
  /-- A batch begins as soon as nothing is being delivered, unless it has nothing to tell. -/
  begins : ∀ b, (t.session.AtRest →
      (t.perform (.onSession (.batch b))).ledger.occasions = t.ledger.occasions ++
          [.batch b (b.events t.session.informer) t.session.informer.registrations] ∨
        b.events t.session.informer = [] ∧ (t.perform (.onSession (.batch b))).ledger = t.ledger) ∧
    (¬t.session.AtRest → (t.perform (.onSession (.batch b))).ledger = t.ledger)
  /-- Whoever is registered is somebody new, and his replay begins at once. -/
  comes : ∀ r ∈ [Request.addHandler .direct, .addFanOut .direct], ∃ u,
    let g : Registration Nat := ⟨t.session.informer.nextId, u⟩
    let t' := t.perform (.onSession (.request r))
    u ∉ t.tenures.map Tenure.target ∧ g.id ∉ t.tenures.map (·.registration.id) ∧
      t'.tenures = t.tenures ++ [⟨g, t.ledger.occasions.length, none⟩] ∧
        t'.ledger.occasions = t.ledger.occasions ++ [.replay g t.session.informer.store.list] ∧
          t'.ledger.underWay = t.ledger.occasions.length :: t.ledger.underWay
  /-- Whoever is removed leaves at once; what is being delivered is not touched. -/
  leaves : ∀ id, let t' := t.perform (.onSession (.request (.removeHandler .direct id)))
    t'.tenures = t.tenures.map (Tenure.leave (some id) t.ledger.occasions.length) ∧
      t'.ledger = t.ledger ∧
        t'.session.informer.deliveries = t.session.informer.deliveries
  /-- Deliveries end. -/
  settles : ∃ n, (t.run (List.replicate n (.onSession .proceed))).session.AtRest ∧
    (t.run (List.replicate n (.onSession .proceed))).ledger.underWay = []

section Orderly

variable [Object α] {t : Transcript α}

theorem Kept.orderly (h : t.Kept) : t.Orderly where
  calls := h.calls
  depth := h.ledger.length
  pending := h.ledger.aligned
  present := h.enrolled.present
  distinct := h.named.targets
  audience := h.enrolled.audience
  whole n b events audience ho :=
    ⟨h.ledger.made_prefix n _ ho, fun hover => h.ledger.full n _ ho hover⟩
  serial := h.ledger.serial.imp fun hxy b events audience ho => hxy _ ho rfl
  replayed tn htn := by
    obtain ⟨stock, ho⟩ := h.enrolled.own tn htn
    exact ⟨stock, ho, h.stocks _ _ (List.mem_of_getElem? ho), h.ledger.made_prefix _ _ ho,
      fun hover => h.ledger.full _ _ ho hover⟩
  received tn htn := h.received htn
  alike tn htn tn' htn' := by
    rw [h.received htn, h.received htn', List.filter_comm, tn.dues_alike tn', List.filter_comm]

theorem kept_foldl (h : t.Kept) (acts : List (Act α)) : (t.run acts).Kept := by
  unfold run
  induction acts generalizing t with
  | nil => exact h
  | cons a acts ih => exact ih (kept_perform h a)

/-- A batch that does not begin has nothing to tell. -/
theorem events_of_isVoid {inf : Informer α Nat} {b : Batch α} (h : b.isVoid inf = true) :
    b.events inf = [] := by
  cases b with
  | relist | resync => exact absurd h Bool.false_ne_true
  | change c =>
    show (relate inf.store c).2.toList = []
    rw [Option.isNone_iff_eq_none.mp h]
    rfl

/-- Who has not come yet is given a tenure of his own. -/
theorem Kept.fresh (h : t.Kept) {u : Target Nat} (hu : ¬t.session.Known u) :
    u ∉ t.tenures.map Tenure.target ∧
      t.session.informer.nextId ∉ t.tenures.map (·.registration.id) := by
  refine ⟨fun hmem => ?_, fun hmem => ?_⟩
  · obtain ⟨tn, htn, rfl⟩ := List.mem_map.mp hmem
    exact hu (h.named.known tn htn)
  · obtain ⟨tn, htn, hid⟩ := List.mem_map.mp hmem
    exact Nat.lt_irrefl _ (hid ▸ h.issued tn htn)

theorem Kept.responds (h : t.Kept) : t.Responds where
  begins b := by
    have hledger : (t.perform (.onSession (.batch b))).ledger =
        t.ledger.note none (t.session.occasion? (.batch b)) := rfl
    rw [hledger]
    unfold occasion?
    refine ⟨fun hr => ?_, fun hr => ?_⟩
    · have hd : t.session.informer.deliveries = [] := hr
      simp only [hd, List.isEmpty_nil, Bool.true_and]
      cases hvoid : b.isVoid t.session.informer with
      | true => exact Or.inr ⟨events_of_isVoid hvoid, rfl⟩
      | false => exact Or.inl rfl
    · have hd : t.session.informer.deliveries.isEmpty = false :=
        Bool.eq_false_iff.mpr fun he => hr (List.isEmpty_iff.mp he)
      simp only [hd]
      rfl
  comes r hr := by
    have hstay : t.tenures.map (Tenure.leave none t.ledger.occasions.length) = t.tenures :=
      List.map_id'' (Tenure.leave_none _) _
    rcases List.mem_cons.mp hr with rfl | hr
    · obtain ⟨hu, hid⟩ := h.fresh (u := .handler t.session.arrivals) (Nat.lt_irrefl _)
      exact ⟨_, hu, hid, congrArg (· ++ _) hstay, rfl, rfl⟩
    · obtain rfl := List.mem_singleton.mp hr
      obtain ⟨hu, hid⟩ := h.fresh (u := .fanOut t.session.informer.fanOuts.length)
        (Nat.lt_irrefl _)
      exact ⟨_, hu, hid, congrArg (· ++ _) hstay, rfl, rfl⟩
  leaves id := ⟨List.append_nil _, rfl, rfl⟩
  settles := by
    obtain ⟨n, hn⟩ := comes_to_rest t.session
    have hrest : (t.run (List.replicate n (.onSession .proceed))).session.AtRest := by
      rw [session_run, ← List.map_replicate, List.foldl_map]
      exact hn
    refine ⟨n, hrest, List.length_eq_zero_iff.mp ?_⟩
    rw [(kept_foldl h _).ledger.length, show _ = [] from hrest]
    rfl

/-- Only a panic cuts anything short. -/
theorem cut_run (acts : List (Act α)) (hcalm : ∀ n, .panic n ∉ acts) :
    (new.run acts).ledger.cut = [] := by
  unfold run
  induction acts using List.reverseRecOn with
  | nil => rfl
  | append_singleton acts a ih =>
    have hbefore := ih fun n hn => hcalm n (List.mem_append_left _ hn)
    rw [List.foldl_append]
    cases a with
    | onSession a => exact (Ledger.cut_note ..).trans hbefore
    | start => exact hbefore
    | panic n => exact absurd (List.mem_append_right _ (List.mem_singleton_self _)) (hcalm n)

/-- **Batches are delivered whole and in order.**  Take any acts: batches, calls, registrations and
removals, which come at any time, and panics.  What has happened by then is orderly, and so is what
comes next.  Nothing is cut short but by a panic. -/
theorem orderly_run (acts : List (Act α)) :
    (new.run acts).Orderly ∧ (new.run acts).Responds ∧
      ((∀ n, .panic n ∉ acts) → (new.run acts).ledger.cut = []) :=
  ⟨(kept_run acts).orderly, (kept_run acts).responds, cut_run acts⟩

/-- While the first of two handlers is told of an item, the second one is removed, and a third one
comes.  The second one still hears of the item, and the third one only as of something stored. -/
example :
    let x : Scenario.Obj := .item ⟨none, "x", 1, []⟩
    let acts : List (Session.Act Scenario.Obj) :=
      [.request (.addHandler .direct), .proceed, .request (.addHandler .direct), .proceed,
        .batch (.change (.added x)), .proceed, .request (.removeHandler .direct 1),
        .request (.addHandler .direct)] ++ List.replicate 4 .proceed ++
          .batch (.change (.deleted x)) :: List.replicate 3 .proceed
    let t := new.run (acts.map .onSession)
    t.heard (.handler 0) = [(2, .add x false), (4, .delete x)] ∧
      t.heard (.handler 1) = [(2, .add x false)] ∧
      t.heard (.handler 3) = [(3, .add x true), (4, .delete x)] := by
  decide +kernel

end Orderly

end Transcript

end InformerHub
