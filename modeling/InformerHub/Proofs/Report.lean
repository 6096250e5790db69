import InformerHub.Binding.Report
import InformerHub.Proofs.StoreContent

/-!
# What a report writes

A condition that is written is the condition of its kind from then on (`get?_set`), whatever stood
in its place.  So a binding that a ready report writes has the condition `InformersSynced`
(`marked_updated`), and so has one that it leaves alone, as nothing is left alone but what would be
written as it is (`marked_of_not_changes`).

A report takes the bindings of its snapshot one after the other.  `advance_spec` says how it comes
to the next one: it leaves some alone, and then it writes one or is over.  From that follows what a
ready report does to the store that its snapshot is from: each binding of the snapshot is marked in
the store or still to come, unless a write was given up (`begins`, `proceeds_step`).
-/

namespace InformerHub

namespace Condition

variable {τ : Type}

theorem status_carryOver (old c : Condition τ) : (carryOver old c).status = c.status := by
  unfold carryOver
  split <;> rfl

theorem kind_carryOver (old c : Condition τ) : (carryOver old c).kind = c.kind := by
  unfold carryOver
  split <;> rfl

theorem get?_overwrite {c old : Condition τ} {cs : List (Condition τ)}
    (h : get? cs c.kind = some old) : get? (overwrite c cs) c.kind = some (carryOver old c) := by
  unfold get? at h ⊢
  induction cs with
  | nil => exact absurd h (by simp)
  | cons d ds ih =>
    by_cases hd : d.kind = c.kind
    · simp only [List.find?_cons, hd, decide_true] at h
      obtain rfl := Option.some.inj h
      simp [overwrite, hd, kind_carryOver]
    · simp only [List.find?_cons, hd, decide_false] at h
      simp [overwrite, hd, ih h]

/-- A condition that is new among others of different kinds is found, in whatever order they are. -/
theorem get?_sortByKind {c : Condition τ} {cs : List (Condition τ)} (h : get? cs c.kind = none) :
    get? (sortByKind (cs ++ [c])) c.kind = some c := by
  have hmem : ∀ d, d ∈ sortByKind (cs ++ [c]) ↔ d ∈ cs ∨ d = c := by
    intro d
    unfold sortByKind
    rw [List.mem_mergeSort, List.mem_append, List.mem_singleton]
  cases hf : get? (sortByKind (cs ++ [c])) c.kind with
  | none =>
    have hno := List.find?_eq_none.mp hf c ((hmem c).mpr (Or.inr rfl))
    exact absurd (decide_eq_true rfl) hno
  | some d =>
    have hkind : d.kind = c.kind := by simpa using List.find?_some hf
    rcases (hmem d).mp (List.mem_of_find?_eq_some hf) with hd | rfl
    · exact absurd (decide_eq_true hkind) (List.find?_eq_none.mp h d hd)
    · rfl

/-- What is written is found. -/
theorem get?_set (cs : List (Condition τ)) (c : Condition τ) :
    ∃ d, get? (set cs c) c.kind = some d ∧ d.status = c.status := by
  unfold set
  split
  next old h => exact ⟨_, get?_overwrite h, status_carryOver old c⟩
  next h => exact ⟨c, get?_sortByKind h, rfl⟩

theorem isTrue_set {cs : List (Condition τ)} {c : Condition τ} (h : c.status = .holds) :
    isTrue (set cs c) c.kind = true := by
  obtain ⟨d, hd, hs⟩ := get?_set cs c
  unfold isTrue
  rw [hd]
  exact beq_iff_eq.mpr (hs.trans h)

end Condition

/-- Writing conditions replaces them, and does not rename the record. -/
class LawfulConditioned (β : Type) (τ : outParam Type) [Object β] [Conditioned β τ] : Prop where
  keyOf_withConditions : ∀ (b : β) (cs : List (Condition τ)),
    keyOf (Conditioned.withConditions b cs) = keyOf b
  conditions_withConditions : ∀ (b : β) (cs : List (Condition τ)),
    Conditioned.conditions (Conditioned.withConditions b cs) = cs

namespace Report

variable {β τ : Type} [Conditioned β τ]

/-- A binding says that the informers have synced. -/
def Marked (b : β) : Prop := Condition.isTrue (Conditioned.conditions b) informersSynced = true

/-- A binding that a ready report leaves alone says so already. -/
theorem marked_of_not_changes [DecidableEq τ] {now : τ} {b : β}
    (h : changes .ready now b = false) : Marked b := by
  unfold changes at h
  rw [bne_eq_false_iff_eq] at h
  unfold Marked
  rw [← h]
  exact Condition.isTrue_set (c := Readiness.ready.condition now) rfl

variable [Object β]

theorem keyOf_updated [LawfulConditioned β τ] (r : Readiness) (now : τ) (b : β) :
    keyOf (updated r now b) = keyOf b :=
  LawfulConditioned.keyOf_withConditions b _

theorem marked_updated [LawfulConditioned β τ] (now : τ) (b : β) :
    Marked (updated .ready now b) := by
  unfold Marked updated
  rw [LawfulConditioned.conditions_withConditions]
  exact Condition.isTrue_set rfl

section Advance

variable [DecidableEq τ]

/-- How a report comes to the next binding. -/
theorem advance_spec (r : Report β) (now : τ) (bs : List β) :
    ∃ skipped rest, bs = skipped ++ rest ∧
      (∀ b ∈ skipped, changes r.readiness now b = false) ∧
      (r.advance now bs).1.readiness = r.readiness ∧
      (r.advance now bs).1.remaining = rest.tail ∧
      (r.advance now bs).1.writing =
        rest.head?.map fun b => ⟨b, updated r.readiness now b, .begin r.policy⟩ := by
  induction bs with
  | nil => exact ⟨[], [], rfl, fun b hb => absurd hb List.not_mem_nil, rfl, rfl, rfl⟩
  | cons b bs ih =>
    by_cases hb : changes r.readiness now b = true
    · refine ⟨[], b :: bs, rfl, fun b hb => absurd hb List.not_mem_nil, ?_⟩
      simp [advance, hb]
    · obtain ⟨skipped, rest, rfl, hskipped, hrest⟩ := ih
      refine ⟨b :: skipped, rest, rfl, fun c hc => ?_, ?_⟩
      · rcases List.mem_cons.mp hc with rfl | hc
        · exact Bool.eq_false_iff.mpr hb
        · exact hskipped c hc
      · simpa [advance, hb] using hrest

end Advance

/-! ## A ready report and the store -/

/-- The bindings that a report has not done with. -/
def todo (r : Report β) : List β := (r.writing.map Write.read).toList ++ r.remaining

/-- A binding is stored under a key, and it is marked. -/
def MarkedIn (store : Store β) (key : String) : Prop :=
  ∃ b, store.get? key = some b ∧ Marked b

/-- A key that a ready report has taken care of or will. -/
def Covers (r : Report β) (store : Store β) (key : String) : Prop :=
  MarkedIn store key ∨ key ∈ r.todo.map keyOf

/-- A ready report on its way through a store. -/
structure Proceeds (r : Report β) (store : Store β) : Prop where
  readiness : r.readiness = .ready
  finished : r.writing = none → r.remaining = []
  distinct : (r.todo.map keyOf).Nodup
  /-- What is to come is as it was read. -/
  stored : ∀ b ∈ r.remaining, store.get? (keyOf b) = some b
  marks : ∀ w, r.writing = some w → Marked w.updated ∧ keyOf w.updated = keyOf w.read

/-- The store once an attempt to write was answered: a binding is there as soon as it is written. -/
def landed (store : Store β) (w : Write β) (signal : Retry.Signal) : Store β :=
  match (w.attempts.step signal).1.phase with
  | .ended .finished => (store.upsert w.updated).1
  | _ => store

/-- Whether a write is given up with this answer. -/
def givenUp (w : Write β) (signal : Retry.Signal) : Bool :=
  match (w.attempts.step signal).1.phase with
  | .ended (.failed _) => true
  | _ => false

theorem sound_landed {store : Store β} (h : store.Sound) (w : Write β) (signal : Retry.Signal) :
    (landed store w signal).Sound := by
  unfold landed
  split
  next => exact Store.sound_upsert h w.updated
  next => exact h

/-- A binding that is put into a store, itself marked if it is in another's place, unmarks none. -/
theorem markedIn_upsert {store : Store β} {b : β} {key : String} (h : MarkedIn store key)
    (hb : key = keyOf b → Marked b) : MarkedIn (store.upsert b).1 key := by
  by_cases hk : key = keyOf b
  · refine ⟨b, ?_, hb hk⟩
    rw [hk]
    exact Store.get?_upsert_self store b
  · obtain ⟨a, ha, hm⟩ := h
    refine ⟨a, ?_, hm⟩
    rw [Store.get?_upsert_of_ne hk]
    exact ha

theorem markedIn_upsert_new {store : Store β} {b : β} {key : String} (h : MarkedIn store key)
    (hb : store.get? (keyOf b) = none) : MarkedIn (store.upsert b).1 key := by
  refine markedIn_upsert h ?_
  rintro rfl
  obtain ⟨a, ha, -⟩ := h
  exact absurd (ha.symm.trans hb) (Option.some_ne_none a)

/-- Whoever puts a binding under a new key into the store does not disturb a report. -/
theorem Proceeds.upsert {r : Report β} {store : Store β} (h : r.Proceeds store) {b : β}
    (hb : store.get? (keyOf b) = none) : r.Proceeds (store.upsert b).1 where
  readiness := h.readiness
  finished := h.finished
  distinct := h.distinct
  marks := h.marks
  stored c hc := by
    have hne : keyOf c ≠ keyOf b := by
      intro he
      have hstored := h.stored c hc
      rw [he, hb] at hstored
      exact Option.some_ne_none c hstored.symm
    rw [Store.get?_upsert_of_ne hne]
    exact h.stored c hc

variable [DecidableEq τ]

/-- What an answer to an attempt to write can lead to: the binding is written, or given up, or it
is to be attempted again. -/
theorem step_cases {r : Report β} {w : Write β} (hw : r.writing = some w) (store : Store β)
    (signal : Retry.Signal) (now : τ) :
    ((r.step signal now).1 = ({ r with written := r.written + 1 }.advance now r.remaining).1 ∧
      landed store w signal = (store.upsert w.updated).1) ∨
    ((r.step signal now).1 = (r.advance now r.remaining).1 ∧
      landed store w signal = store ∧ givenUp w signal = true) ∨
    ∃ attempts, (r.step signal now).1 = { r with writing := some { w with attempts } } ∧
      landed store w signal = store := by
  unfold step landed givenUp
  simp only [hw]
  cases (w.attempts.step signal).1.phase with
  | attempting => exact Or.inr (Or.inr ⟨_, rfl, rfl⟩)
  | pausing delay => exact Or.inr (Or.inr ⟨_, rfl, rfl⟩)
  | ended outcome =>
    cases outcome with
    | finished => exact Or.inl ⟨rfl, rfl⟩
    | failed e => exact Or.inr (Or.inl ⟨rfl, rfl, rfl⟩)
    | panicked t => exact Or.inr (Or.inr ⟨_, rfl, rfl⟩)

variable [LawfulConditioned β τ]

/-- A ready report turns to bindings that are stored as it has read them. -/
theorem proceeds_advance {r : Report β} {store : Store β} (hr : r.readiness = .ready) (now : τ)
    {bs : List β} (hd : (bs.map keyOf).Nodup)
    (hs : ∀ b ∈ bs, store.get? (keyOf b) = some b) :
    (r.advance now bs).1.Proceeds store ∧
      ∀ key ∈ bs.map keyOf, (r.advance now bs).1.Covers store key := by
  obtain ⟨skipped, rest, rfl, hskipped, hreadiness, hremaining, hwriting⟩ := advance_spec r now bs
  rw [hr] at hskipped hreadiness hwriting
  have htodo : (r.advance now (skipped ++ rest)).1.todo = rest := by
    unfold todo
    rw [hremaining, hwriting]
    cases rest <;> rfl
  rw [List.map_append] at hd
  refine ⟨⟨hreadiness, fun hover => ?_, ?_, fun b hb => ?_, fun w hw => ?_⟩, fun key hkey => ?_⟩
  · rw [hwriting] at hover
    rw [hremaining, List.head?_eq_none_iff.mp (Option.map_eq_none_iff.mp hover)]
    rfl
  · rw [htodo]
    exact (List.nodup_append.mp hd).2.1
  · rw [hremaining] at hb
    exact hs b (List.mem_append_right skipped (List.mem_of_mem_tail hb))
  · rw [hwriting] at hw
    obtain ⟨b, -, rfl⟩ := Option.map_eq_some_iff.mp hw
    exact ⟨marked_updated now b, keyOf_updated .ready now b⟩
  · obtain ⟨b, hb, rfl⟩ := List.mem_map.mp hkey
    rcases List.mem_append.mp hb with hleft | hright
    · -- left alone, so it says so already
      exact Or.inl ⟨b, hs b hb, marked_of_not_changes (hskipped b hleft)⟩
    · right
      rw [htodo]
      exact List.mem_map_of_mem hright

/-- A ready report that begins takes care of its whole snapshot. -/
theorem begins {store : Store β} {bs : List β} (hd : (bs.map keyOf).Nodup)
    (hs : ∀ b ∈ bs, store.get? (keyOf b) = some b) (secretKey : String) (policy : BackoffPolicy)
    (now : τ) :
    (Report.begin secretKey policy .ready bs now).1.Proceeds store ∧
      ∀ key ∈ bs.map keyOf, (Report.begin secretKey policy .ready bs now).1.Covers store key :=
  proceeds_advance rfl now hd hs

/-- An answer to an attempt to write.  Nothing that was taken care of is lost, unless the write is
given up. -/
theorem proceeds_step {r : Report β} {store : Store β} (h : r.Proceeds store) {w : Write β}
    (hw : r.writing = some w) (signal : Retry.Signal) (now : τ) :
    (r.step signal now).1.Proceeds (landed store w signal) ∧
      (givenUp w signal = false → ∀ key, r.Covers store key →
        (r.step signal now).1.Covers (landed store w signal) key) := by
  have htodo : r.todo = w.read :: r.remaining := by
    unfold todo
    rw [hw]
    rfl
  have hdistinct := h.distinct
  rw [htodo, List.map_cons, List.nodup_cons] at hdistinct
  obtain ⟨hfresh, hrest⟩ := hdistinct
  obtain ⟨hmarked, hkey⟩ := h.marks w hw
  rcases step_cases hw store signal now with ⟨hr, hs⟩ | ⟨hr, hs, hg⟩ | ⟨attempts, hr, hs⟩
  · -- written, and what is to come has other keys
    rw [hr, hs]
    have hstored : ∀ b ∈ r.remaining, (store.upsert w.updated).1.get? (keyOf b) = some b := by
      intro b hb
      have hne : keyOf b ≠ keyOf w.updated := by
        rw [hkey]
        exact fun he => hfresh (he ▸ List.mem_map_of_mem hb)
      rw [Store.get?_upsert_of_ne hne]
      exact h.stored b hb
    obtain ⟨hproceeds, hnext⟩ := proceeds_advance (r := { r with written := r.written + 1 })
      h.readiness now hrest hstored
    refine ⟨hproceeds, fun _ key hc => ?_⟩
    unfold Covers at hc
    rw [htodo, List.map_cons, List.mem_cons] at hc
    rcases hc with hm | rfl | hcome
    · exact Or.inl (markedIn_upsert hm fun _ => hmarked)
    · rw [← hkey]
      exact Or.inl ⟨w.updated, Store.get?_upsert_self store w.updated, hmarked⟩
    · exact hnext key hcome
  · rw [hr, hs]
    refine ⟨(proceeds_advance h.readiness now hrest h.stored).1, fun hno => ?_⟩
    exact absurd (hg.symm.trans hno) (by simp)
  · -- the same write once more
    rw [hr, hs]
    have hsame : ({ r with writing := some { w with attempts } } : Report β).todo = r.todo := by
      rw [htodo]
      rfl
    refine ⟨⟨h.readiness, fun hover => absurd hover (by simp), ?_, h.stored, ?_⟩,
      fun _ key hc => ?_⟩
    · rw [hsame]
      exact h.distinct
    · rintro w' hw'
      obtain rfl := Option.some.inj hw'
      exact ⟨hmarked, hkey⟩
    · unfold Covers
      rw [hsame]
      exact hc

end Report

end InformerHub
