import InformerHub.Proofs.Attempts
import InformerHub.Proofs.Conditions
import InformerHub.Proofs.Schedule

/-!
# One report, to its end

A report goes through the bindings of its snapshot.  `Setting` is all that decides how: the store
that the snapshot is of, the readiness, the policy, the readings of the clock, and a client that is
open to do anything, to each binding something else.

> Each binding that does not show it already is attempted until an attempt returns in time or the
> policy allows no further one, always with the same value; all others are left alone
> (`reports_each_binding`).

So what the client does to one binding is no matter to the others.  A report stops early for one
reason only: the policy allows more attempts than failures can be counted, and for one binding that
many are in vain (`broken_iff`).  The bindings after that one are left out (`second_unwritten`).

`Visit` is what is left of a binding's turn, and `Stands` what holds at every time of a report:
`stands_next` says that one step keeps it, and `stepsLeft_next` that the report comes nearer to its
end.
-/

namespace InformerHub

/-! ## What a binding shows -/

namespace Condition

variable {τ : Type} {c old : Condition τ} {cs : List (Condition τ)}

/-- Two conditions tell the same, the time apart. -/
def Alike (c d : Condition τ) : Prop :=
  c.status = d.status ∧ c.severity = d.severity ∧ c.reason = d.reason ∧ c.message = d.message

theorem carryOver_eq_iff (h : old.kind = c.kind) : carryOver old c = old ↔ Alike old c := by
  obtain ⟨kind, status, severity, reason, message, transition⟩ := old
  obtain ⟨kind', status', severity', reason', message', transition'⟩ := c
  obtain rfl : kind = kind' := h
  unfold carryOver Alike
  by_cases hs : status = status'
  · rw [if_pos hs]
    simp [eq_comm]
  · rw [if_neg hs]
    simp [hs, Ne.symm hs]

/-- A write is what it leaves in place of the first condition of its kind. -/
theorem overwrite_congr {d : Condition τ} (h : get? cs c.kind = some old) (hkind : d.kind = c.kind)
    (hleft : carryOver old d = carryOver old c) : overwrite d cs = overwrite c cs := by
  obtain ⟨before, after, -, -, -, hover⟩ := overwrite_of_get? h
  rw [hover d hkind, hover c rfl, hleft]

/-- A list stays as it is under a write if its first condition of that kind tells the same. -/
theorem set_eq_iff : set cs c = cs ↔ ∃ old, get? cs c.kind = some old ∧ Alike old c := by
  unfold set
  split
  next old h =>
    obtain ⟨before, after, rfl, hkind, -, hover⟩ := overwrite_of_get? h
    rw [hover c rfl, List.append_cancel_left_eq, List.cons.injEq, carryOver_eq_iff hkind, h]
    simp
  next h =>
    have hlonger : (sortByKind (cs ++ [c])).length = cs.length + 1 := by
      unfold sortByKind
      rw [List.length_mergeSort, List.length_append]
      rfl
    constructor
    · intro he
      rw [he] at hlonger
      exact absurd hlonger (by omega)
    · rintro ⟨old, hold, -⟩
      exact absurd (h.symm.trans hold) (Option.some_ne_none old).symm

end Condition

namespace Report

variable {β τ : Type} [Conditioned β τ]

/-- A binding shows the outcome: the first condition on the informers tells so. -/
def Shows (readiness : Readiness) (b : β) : Prop :=
  ∃ c, Condition.get? (Conditioned.conditions b) informersSynced = some c ∧
    Condition.Alike c (readiness.condition c.transition)

theorem kind_condition (readiness : Readiness) (now : τ) :
    (readiness.condition now).kind = informersSynced := by
  cases readiness <;> rfl

/-- Whether a write changes anything does not depend on the clock. -/
theorem changes_eq_false_iff [DecidableEq τ] (readiness : Readiness) (now : τ) (b : β) :
    changes readiness now b = false ↔ Shows readiness b := by
  unfold changes Shows
  rw [bne_eq_false_iff_eq, Condition.set_eq_iff, kind_condition]
  refine exists_congr fun c => and_congr_right fun _ => ?_
  cases readiness <;> exact Iff.rfl

/-- The condition that a write leaves. -/
theorem get?_updated [Object β] [LawfulConditioned β τ] (readiness : Readiness) (now : τ) (b : β) :
    Condition.get? (Conditioned.conditions (updated readiness now b)) informersSynced =
      some ((Condition.get? (Conditioned.conditions b) informersSynced).elim
        (readiness.condition now) fun old =>
          Condition.carryOver old (readiness.condition now)) := by
  unfold updated
  rw [LawfulConditioned.conditions_withConditions]
  have hself := Condition.get?_set_self (Conditioned.conditions b) (readiness.condition now)
  rw [kind_condition] at hself
  exact hself

/-- While the status is kept, the time is carried over. -/
theorem carryOver_condition (readiness : Readiness) (now : τ) {old : Condition τ}
    (h : old.status = (readiness.condition now).status) :
    Condition.carryOver old (readiness.condition now) =
      { readiness.condition now with transition := old.transition } :=
  if_pos h

/-- What is written depends on the clock only if the status changes. -/
theorem updated_congr (readiness : Readiness) (now now' : τ) {b : β} {old : Condition τ}
    (hold : Condition.get? (Conditioned.conditions b) informersSynced = some old)
    (h : old.status = (readiness.condition now).status) :
    updated readiness now' b = updated readiness now b := by
  have h' : old.status = (readiness.condition now').status := by
    rw [h]
    cases readiness <;> rfl
  have hleft : Condition.carryOver old (readiness.condition now') =
      Condition.carryOver old (readiness.condition now) := by
    rw [carryOver_condition readiness now h, carryOver_condition readiness now' h']
    cases readiness <;> rfl
  unfold updated Condition.set
  rw [kind_condition, kind_condition, hold]
  dsimp only
  rw [Condition.overwrite_congr (c := readiness.condition now)
    (by rw [kind_condition]; exact hold) (by rw [kind_condition, kind_condition]) hleft]

section Advance

variable [Object β] [DecidableEq τ]

theorem policy_advance (r : Report β) (now : τ) (bs : List β) :
    (r.advance now bs).1.policy = r.policy := by
  induction bs with
  | nil => rfl
  | cons b bs ih =>
    unfold advance
    split
    · rfl
    · exact ih

/-- What a report turns to is changed by the outcome. -/
theorem changes_of_advance {r : Report β} {now : τ} {bs : List β} {w : Write β}
    (hw : (r.advance now bs).1.writing = some w) : changes r.readiness now w.read = true := by
  induction bs with
  | nil => exact absurd hw (Option.some_ne_none w).symm
  | cons b bs ih =>
    unfold advance at hw
    split at hw
    next h =>
      obtain rfl := Option.some.inj hw
      exact h
    next => exact ih hw

/-! ### What an answer to an attempt leads to -/

section Step

variable {r : Report β} {w : Write β} (hw : r.writing = some w) {signal : Retry.Signal} (now : τ)

include hw

theorem step_of_finished (h : (w.attempts.step signal).1.phase = .ended .finished) :
    (r.step signal now).1 = ({ r with written := r.written + 1 }.advance now r.remaining).1 := by
  unfold step
  simp only [hw, h]

theorem step_of_failed {e : Error} (h : (w.attempts.step signal).1.phase = .ended (.failed e)) :
    (r.step signal now).1 = (r.advance now r.remaining).1 := by
  unfold step
  simp only [hw, h]

theorem step_of_goesOn (hfinished : (w.attempts.step signal).1.phase ≠ .ended .finished)
    (hfailed : ∀ e, (w.attempts.step signal).1.phase ≠ .ended (.failed e)) :
    (r.step signal now).1 =
      { r with writing := some { w with attempts := (w.attempts.step signal).1 } } := by
  unfold step
  simp only [hw]

end Step

end Advance

end Report

namespace Retry

variable {ρ : Type}

/-- So many attempts are made: all but the last are in vain, and the last one returns or is the last
that the policy allows. -/
structure Makes (policy : BackoffPolicy) (conduct : Nat → Conduct ρ) (made : Nat) : Prop where
  pos : 0 < made
  vain : VainUntil policy conduct (made - 1)
  allowed : policy.maxRetries.toNat = 0 ∨ made ≤ policy.maxRetries.toNat
  last : (∃ v, (conduct (made - 1)).close policy = .returned v) ∨
    made = policy.maxRetries.toNat

theorem not_inVain_of_returned {c : Close ρ} {v : ρ} (h : c = .returned v) : ¬c.InVain := by
  rw [h]
  exact id

theorem Makes.le {policy : BackoffPolicy} {conduct : Nat → Conduct ρ} {m n : Nat}
    (hm : Makes policy conduct m) (hn : Makes policy conduct n) : n ≤ m := by
  refine Nat.le_of_not_lt fun hlt => ?_
  rcases hm.last with ⟨v, hv⟩ | hlimit
  · have hpos := hm.pos
    exact not_inVain_of_returned hv (hn.vain (m - 1) (by omega))
  · have hpos := hm.pos
    have hallowed := hn.allowed
    omega

/-- How many attempts are made is up to what they do. -/
theorem Makes.unique {policy : BackoffPolicy} {conduct : Nat → Conduct ρ} {m n : Nat}
    (hm : Makes policy conduct m) (hn : Makes policy conduct n) : m = n :=
  Nat.le_antisymm (hn.le hm) (hm.le hn)

end Retry

namespace Rollout

variable {β τ : Type} [Object β] [Conditioned β τ]

/-- All bindings of a report have had their turns. -/
def Over (s : Rollout β) : Prop := ∃ r, s.report = some r ∧ r.writing = none

/-- A report has ended by a panic. -/
def Broken (s : Rollout β) : Prop := ∃ r t, s.report = some r ∧ r.panic? = some t

/-- What was attempted under one key. -/
def tried (s : Rollout β) (key : String) : List β :=
  (s.attempts.map Attempt.value).filter fun value => keyOf value = key

/-! ## A client that answers -/

/-- The other side of a report. -/
structure Client (β : Type) where
  /-- What each attempt for the binding of a key would do; the first one counts as zero. -/
  conduct : String → Nat → Retry.Conduct Unit
  /-- What becomes of the store when a binding is written. -/
  lands : β → List (Store.Mutation β)

/-- All that a report depends on. -/
structure Setting (β τ : Type) where
  /-- How the store of the bindings was filled before. -/
  calls : List (Store.Mutation β)
  secretKey : String
  policy : BackoffPolicy
  readiness : Readiness
  client : Client β
  /-- The reading of the clock at the beginning, and at each step. -/
  clock : Nat → τ

namespace Setting

variable (c : Setting β τ)

/-- The store when the report begins. -/
def store : Store β := .after c.calls

/-- How attempt `k` for a binding is over. -/
def close (b : β) (k : Nat) : Retry.Close Unit :=
  (c.client.conduct (keyOf b) k).close c.policy

/-- What an attempt does to the store. -/
def landing (close : Retry.Close Unit) (value : β) : List (Store.Mutation β) :=
  match close with
  | .returned _ => c.client.lands value
  | _ => []

omit [Object β] [Conditioned β τ] in
theorem landing_of_inVain {close : Retry.Close Unit} (h : close.InVain) (value : β) :
    c.landing close value = [] := by
  cases close with
  | returned => exact h.elim
  | failed => rfl
  | cutOff => rfl

/-- What comes next: the end of the attempt, with what it does to the store, or of the pause. -/
def acts (s : Rollout β) (reading : τ) : List (Act β τ) :=
  match s.report.bind Report.writing with
  | none => []
  | some w =>
    match w.attempts.phase with
    | .attempting =>
      let close := c.close w.read w.attempts.failures
      (c.landing close w.updated).map .change ++ [.answer close.signal reading]
    | .pausing _ => [.answer .pauseOver reading]
    | .ended _ => []

section Run

variable [DecidableEq τ]

/-- One step of a report. -/
def next (s : Rollout β) (reading : τ) : Rollout β := s.run (c.acts s reading)

/-- A report after some steps. -/
def run : Nat → Rollout β
  | 0 => begin c.store c.secretKey c.policy c.readiness (c.clock 0)
  | n + 1 => c.next (run n) (c.clock (n + 1))

end Run

end Setting

/-! ## One step -/

section Step

variable {s : Rollout β} {r : Report β} {w : Report.Write β}

omit [Conditioned β τ] in
theorem attempt_of_over (hreport : s.report = some r) (hwriting : r.writing = none) :
    s.attempt = s := by
  unfold attempt
  rw [hreport, Option.bind_some, hwriting]

section Writing

variable (hreport : s.report = some r) (hwriting : r.writing = some w)

include hreport hwriting

omit [Conditioned β τ] in
theorem attempt_of_attempting (hphase : w.attempts.phase = .attempting) :
    s.attempt = { s with
      attempts := s.attempts ++ [⟨w.updated, s.store.get? (keyOf w.updated), s.changes⟩] } := by
  unfold attempt
  rw [hreport, Option.bind_some, hwriting]
  exact if_pos hphase

omit [Conditioned β τ] in
theorem attempt_of_waiting (hphase : w.attempts.phase ≠ .attempting) : s.attempt = s := by
  unfold attempt
  rw [hreport, Option.bind_some, hwriting]
  exact if_neg hphase

variable [DecidableEq τ]

theorem answer_of_awaits {signal : Retry.Signal} (h : w.attempts.phase.awaits signal = true)
    (reading : τ) : s.answer signal reading =
      attempt { s with report := some (r.step signal reading).1 } := by
  unfold answer
  simp only [hreport, hwriting]
  exact if_pos h

end Writing

variable [DecidableEq τ]

theorem run_changes (ms : List (Store.Mutation β)) : ∀ s : Rollout β,
    s.run (ms.map Act.change) = { s with
      store := ms.foldl Store.Mutation.apply s.store, changes := s.changes ++ ms } := by
  induction ms with
  | nil =>
    intro s
    rw [List.append_nil]
    rfl
  | cons m ms ih =>
    intro s
    refine (ih (s.perform (.change m))).trans ?_
    simp [perform]

namespace Setting

variable {c : Setting β τ} {k : Nat}

omit [Conditioned β τ] [DecidableEq τ] in
theorem acts_attempting (hreport : s.report = some r) (hwriting : r.writing = some w)
    (hattempts : w.attempts = ⟨c.policy, k, .attempting⟩) (reading : τ) :
    c.acts s reading = (c.landing (c.close w.read k) w.updated).map Act.change ++
      [.answer (c.close w.read k).signal reading] := by
  unfold acts
  rw [hreport, Option.bind_some, hwriting]
  simp only [hattempts]

omit [Conditioned β τ] [DecidableEq τ] in
theorem acts_pausing {delay : Nat} (hreport : s.report = some r) (hwriting : r.writing = some w)
    (hphase : w.attempts.phase = .pausing delay) (reading : τ) :
    c.acts s reading = [.answer .pauseOver reading] := by
  unfold acts
  rw [hreport, Option.bind_some, hwriting]
  simp only [hphase]

theorem next_attempting (hreport : s.report = some r) (hwriting : r.writing = some w)
    (hattempts : w.attempts = ⟨c.policy, k, .attempting⟩) (reading : τ) :
    let landing := c.landing (c.close w.read k) w.updated
    c.next s reading = attempt ⟨landing.foldl Store.Mutation.apply s.store,
      some (r.step (c.close w.read k).signal reading).1, s.changes ++ landing, s.attempts⟩ := by
  intro landing
  have hawaits : w.attempts.phase.awaits (c.close w.read k).signal = true := by
    rw [hattempts]
    cases c.close w.read k <;> rfl
  unfold next
  rw [acts_attempting hreport hwriting hattempts]
  -- what the write does to the store comes first, and leaves the report as it is
  unfold Rollout.run
  rw [List.foldl_append]
  show answer (s.run _) _ _ = _
  rw [run_changes]
  exact answer_of_awaits
    (s := ⟨landing.foldl Store.Mutation.apply s.store, s.report, s.changes ++ landing, s.attempts⟩)
    hreport hwriting hawaits reading

theorem next_pausing {delay : Nat} (hreport : s.report = some r) (hwriting : r.writing = some w)
    (hattempts : w.attempts = ⟨c.policy, k, .pausing delay⟩) (reading : τ) :
    c.next s reading = attempt { s with
      report := some { r with
        writing := some { w with attempts := ⟨c.policy, k, .attempting⟩ } } } := by
  have hphase : w.attempts.phase = .pausing delay := by rw [hattempts]
  have hawaits : w.attempts.phase.awaits .pauseOver = true := by rw [hphase]; rfl
  have hstep : (w.attempts.step .pauseOver).1 = ⟨c.policy, k, .attempting⟩ := by
    rw [hattempts]
    rfl
  unfold next
  rw [acts_pausing hreport hwriting hphase]
  refine (answer_of_awaits hreport hwriting hawaits reading).trans ?_
  rw [Report.step_of_goesOn hwriting reading (by simp [hstep]) (by simp [hstep]), hstep]

/-- Nothing comes any more. -/
def Settled (c : Setting β τ) (s : Rollout β) : Prop := ∀ reading, c.acts s reading = []

omit [Conditioned β τ] [DecidableEq τ] in
theorem settled_of_over (hreport : s.report = some r) (hwriting : r.writing = none) :
    c.Settled s := by
  intro reading
  unfold acts
  rw [hreport, Option.bind_some, hwriting]

omit [Conditioned β τ] [DecidableEq τ] in
theorem settled_of_ended {o : Outcome}
    (hreport : s.report = some r) (hwriting : r.writing = some w)
    (hphase : w.attempts.phase = .ended o) : c.Settled s := by
  intro reading
  unfold acts
  rw [hreport, Option.bind_some, hwriting]
  simp only [hphase]

theorem next_of_settled {s : Rollout β} (h : c.Settled s) (reading : τ) :
    c.next s reading = s := by
  unfold next
  rw [h reading]
  rfl

end Setting

end Step

/-! ## The bindings' turns -/

/-- What is left of a binding's turn. -/
structure Visit (β τ : Type) where
  binding : β
  /-- When it began. -/
  reading : τ
  /-- The number of attempts. -/
  tries : Nat

/-- What was attempted. -/
def Visit.values (readiness : Readiness) (v : Visit β τ) : List β :=
  List.replicate v.tries (Report.updated readiness v.reading v.binding)

namespace Setting

variable (c : Setting β τ)

/-- What a binding's turn does to the store. -/
def landed (v : Visit β τ) : List (Store.Mutation β) :=
  match v.tries with
  | 0 => []
  | k + 1 => c.landing (c.close v.binding k) (Report.updated c.readiness v.reading v.binding)

/-- A turn that went as it should. -/
structure Visited (v : Visit β τ) : Prop where
  reading : ∃ n, v.reading = c.clock n
  left : Report.Shows c.readiness v.binding → v.tries = 0
  tried : ¬Report.Shows c.readiness v.binding →
    Retry.Makes c.policy (c.client.conduct (keyOf v.binding)) v.tries

/-- The turns that are over, and what was attempted since. -/
structure Past (visits : List (Visit β τ)) (since : List β) (s : Rollout β) : Prop where
  visited : ∀ v ∈ visits, c.Visited v
  counted : ∀ v ∈ visits, v.tries ≤ UInt32.size
  attempts : s.attempts.map Attempt.value = visits.flatMap (Visit.values c.readiness) ++ since
  changes : s.changes = visits.flatMap c.landed

/-- Where the attempts for one binding stand after some in vain, and how many were started. -/
inductive Standing (policy : BackoffPolicy) (k : Nat) : Retry.Phase → Nat → Prop
  | attempting (hfits : k < UInt32.size) (hallows : Retry.Allows policy k) :
    Standing policy k .attempting (k + 1)
  | pausing (delay : Nat) (hfits : k < UInt32.size) (hallows : Retry.Allows policy k) :
    Standing policy k (.pausing delay) k
  | broken (hfull : k = UInt32.size) (hallows : Retry.Allows policy k) :
    Standing policy k (.ended .subtractOverflow) k

/-- The write for a binding whose turn began at step `n`, after `k` attempts in vain. -/
def write (b : β) (n k : Nat) (phase : Retry.Phase) : Report.Write β :=
  ⟨b, Report.updated c.readiness (c.clock n) b, ⟨c.policy, k, phase⟩⟩

/-- What holds at every time of a report on the bindings `bs`. -/
inductive Stands (bs : List β) (s : Rollout β) : Prop
  | done (visits : List (Visit β τ)) (r : Report β) (hpast : c.Past visits [] s)
      (hall : visits.map Visit.binding = bs) (hreport : s.report = some r)
      (hwriting : r.writing = none)
  | writing (visits : List (Visit β τ)) (r : Report β) (b : β) (n k made : Nat)
      (phase : Retry.Phase)
      (hpast : c.Past visits
        (List.replicate made (Report.updated c.readiness (c.clock n) b)) s)
      (hsplit : bs = visits.map Visit.binding ++ b :: r.remaining)
      (hnew : ¬Report.Shows c.readiness b) (hreport : s.report = some r)
      (hreadiness : r.readiness = c.readiness) (hpolicy : r.policy = c.policy)
      (hwriting : r.writing = some (c.write b n k phase))
      (hvain : Retry.VainUntil c.policy (c.client.conduct (keyOf b)) k)
      (hstanding : Standing c.policy k phase made)

variable {c} {bs : List β} {s : Rollout β}

/-- Bindings that show the outcome already are passed over. -/
theorem past_skip {visits : List (Visit β τ)} (h : c.Past visits [] s) {skipped : List β}
    (hskipped : ∀ b ∈ skipped, Report.Shows c.readiness b) (n : Nat) :
    c.Past (visits ++ skipped.map fun b => ⟨b, c.clock n, 0⟩) [] s := by
  have hvalues : (skipped.map fun b => (⟨b, c.clock n, 0⟩ : Visit β τ)).flatMap
      (Visit.values c.readiness) = [] := by
    rw [List.flatMap_map]
    exact List.flatMap_eq_nil_iff.mpr fun b _ => rfl
  have hlanded : (skipped.map fun b => (⟨b, c.clock n, 0⟩ : Visit β τ)).flatMap c.landed = [] := by
    rw [List.flatMap_map]
    exact List.flatMap_eq_nil_iff.mpr fun b _ => rfl
  refine ⟨fun v hv => ?_, fun v hv => ?_, ?_, ?_⟩
  · rcases List.mem_append.mp hv with hold | hnew
    · exact h.visited v hold
    · obtain ⟨b, hb, rfl⟩ := List.mem_map.mp hnew
      exact ⟨⟨n, rfl⟩, fun _ => rfl, fun hno => absurd (hskipped b hb) hno⟩
  · rcases List.mem_append.mp hv with hold | hnew
    · exact h.counted v hold
    · obtain ⟨b, -, rfl⟩ := List.mem_map.mp hnew
      exact Nat.zero_le _
  · rw [h.attempts, List.flatMap_append, hvalues, List.append_nil, List.append_nil]
  · rw [h.changes, List.flatMap_append, hlanded, List.append_nil]

/-- The attempts for a binding are over. -/
theorem past_visit {visits : List (Visit β τ)} {v : Visit β τ}
    (h : c.Past visits (v.values c.readiness) s) (hv : c.Visited v)
    (hcounted : v.tries ≤ UInt32.size) (store : Store β) (report : Option (Report β)) :
    c.Past (visits ++ [v]) [] ⟨store, report, s.changes ++ c.landed v, s.attempts⟩ := by
  refine ⟨fun v' hv' => ?_, fun v' hv' => ?_, ?_, ?_⟩
  · rcases List.mem_append.mp hv' with hold | hnew
    · exact h.visited v' hold
    · obtain rfl := List.mem_singleton.mp hnew
      exact hv
  · rcases List.mem_append.mp hv' with hold | hnew
    · exact h.counted v' hold
    · obtain rfl := List.mem_singleton.mp hnew
      exact hcounted
  · rw [List.flatMap_append, List.flatMap_singleton, List.append_nil]
    exact h.attempts
  · rw [List.flatMap_append, List.flatMap_singleton, ← h.changes]

omit [Conditioned β τ] in
/-- The attempts for one binding are over when one has returned, or no other may follow. -/
theorem makes_of_over {b : β} {k : Nat}
    (hvain : Retry.VainUntil c.policy (c.client.conduct (keyOf b)) k)
    (hallows : Retry.Allows c.policy k)
    (hover : (∃ v, c.close b k = .returned v) ∨
      (c.close b k).InVain ∧ ¬Retry.Allows c.policy (k + 1)) :
    Retry.Makes c.policy (c.client.conduct (keyOf b)) (k + 1) := by
  refine ⟨Nat.succ_pos k, hvain, ?_, ?_⟩
  · exact hallows.imp id Nat.succ_le_of_lt
  · refine hover.imp id fun ⟨_, hno⟩ => ?_
    unfold Retry.Allows at hallows hno
    omega

section Steps

variable [DecidableEq τ]

/-- A report turns to the next binding, if there is one. -/
theorem stands_advance {visits : List (Visit β τ)} {r : Report β} {rest : List β}
    (hpast : c.Past visits [] s) (hsplit : bs = visits.map Visit.binding ++ rest)
    (hreadiness : r.readiness = c.readiness) (hpolicy : r.policy = c.policy) (n : Nat)
    (hreport : s.report = some (r.advance (c.clock n) rest).1) : c.Stands bs s.attempt := by
  obtain ⟨skipped, rest, rfl, hskipped, hread, hremaining, hwriting⟩ :=
    Report.advance_spec r (c.clock n) rest
  have hpolicy' := (Report.policy_advance r (c.clock n) (skipped ++ rest)).trans hpolicy
  have hpast' := past_skip hpast (fun b hb => by
    rw [← hreadiness]
    exact (Report.changes_eq_false_iff ..).mp (hskipped b hb)) n
  have hbindings : (visits ++ skipped.map fun b => (⟨b, c.clock n, 0⟩ : Visit β τ)).map
      Visit.binding = visits.map Visit.binding ++ skipped := by
    rw [List.map_append, List.map_map]
    exact congrArg _ (List.map_id skipped)
  rw [← List.append_assoc, ← hbindings] at hsplit
  cases rest with
  | nil =>
    rw [attempt_of_over hreport hwriting]
    rw [List.append_nil] at hsplit
    exact .done _ _ hpast' hsplit.symm hreport hwriting
  | cons b rest =>
    -- the next one is attempted at once, so one attempt is noted and none has failed
    have hnew : ¬Report.Shows c.readiness b := by
      rw [← hreadiness, ← Report.changes_eq_false_iff _ (c.clock n) b,
        Report.changes_of_advance hwriting]
      exact Bool.noConfusion
    rw [hreadiness, hpolicy] at hwriting
    rw [attempt_of_attempting hreport hwriting rfl]
    refine .writing _ _ b n 0 1 .attempting
      ⟨hpast'.visited, hpast'.counted, ?_, hpast'.changes⟩ ?_ hnew hreport
      (hread.trans hreadiness) hpolicy' hwriting (fun i hi => absurd hi (Nat.not_lt_zero i))
      (.attempting (by decide) (Nat.eq_zero_or_pos _))
    · rw [List.map_append, hpast'.attempts, List.append_nil]
      rfl
    · rw [hremaining]
      exact hsplit

theorem stands_zero (hlist : c.store.byIndex bySecret c.secretKey = .ok bs) :
    c.Stands bs (c.run 0) := by
  refine stands_advance (r := ⟨c.secretKey, c.readiness, c.policy, [], none, bs.length, 0⟩)
    (show c.Past [] [] _ from ⟨fun v hv => absurd hv List.not_mem_nil,
      fun v hv => absurd hv List.not_mem_nil, rfl, rfl⟩) rfl rfl rfl 0 ?_
  unfold Report.onStore
  rw [hlist]
  rfl

/-- What an attempt can lead to: the end of the binding's turn, or the same binding once more, at
least until the failures cannot be counted any more. -/
theorem next_cases {r : Report β} {w : Report.Write β} {k : Nat} (hreport : s.report = some r)
    (hwriting : r.writing = some w) (hattempts : w.attempts = ⟨c.policy, k, .attempting⟩)
    (hfits : k < UInt32.size) (reading : τ) :
    let landing := c.landing (c.close w.read k) w.updated
    ((∃ v, c.close w.read k = .returned v) ∨
        (c.close w.read k).InVain ∧ ¬Retry.Allows c.policy (k + 1)) ∧
      (∃ r' : Report β, r'.readiness = r.readiness ∧ r'.policy = r.policy ∧
        c.next s reading = attempt ⟨landing.foldl Store.Mutation.apply s.store,
          some (r'.advance reading r.remaining).1, s.changes ++ landing, s.attempts⟩) ∨
    (c.close w.read k).InVain ∧ ∃ phase, Standing c.policy (k + 1) phase (k + 1) ∧
      c.next s reading = { s with
        report := some { r with
          writing := some { w with attempts := ⟨c.policy, k + 1, phase⟩ } } } := by
  intro landing
  have hnext := next_attempting hreport hwriting hattempts reading
  have hfollows := Retry.follows_step c.policy hfits (c.close w.read k)
  rw [← hattempts] at hfollows
  generalize hstep : (w.attempts.step (c.close w.read k).signal).1 = a at hfollows
  generalize hclose : c.close w.read k = close at hfollows
  -- the write goes on, and the store is as it was
  have hgoesOn (hvain : (c.close w.read k).InVain) (hwaits : a.phase ≠ .attempting)
      (hfinished : a.phase ≠ .ended .finished) (hfailed : ∀ e, a.phase ≠ .ended (.failed e)) :
      c.next s reading =
        { s with report := some { r with writing := some { w with attempts := a } } } := by
    rw [← hstep] at hfinished hfailed
    rw [hnext, Report.step_of_goesOn hwriting reading hfinished hfailed, hstep,
      landing_of_inVain c hvain, List.append_nil]
    exact attempt_of_waiting rfl rfl hwaits
  cases hfollows with
  | returned v =>
    refine Or.inl ⟨Or.inl ⟨v, rfl⟩, { r with written := r.written + 1 }, rfl, rfl, ?_⟩
    rw [hnext, Report.step_of_finished hwriting reading (by rw [hstep])]
  | exhausted hvain _ hno =>
    refine Or.inl ⟨Or.inr ⟨hvain, hno⟩, r, rfl, rfl, ?_⟩
    rw [hnext, Report.step_of_failed hwriting reading (by rw [hstep])]
  | broken hvain hallows hfull =>
    refine Or.inr ⟨hvain, _, .broken hfull hallows, ?_⟩
    rw [hclose] at hgoesOn
    exact hgoesOn hvain (by simp) (by simp [Outcome.subtractOverflow])
      (by simp [Outcome.subtractOverflow])
  | again hvain hallows hfits' =>
    refine Or.inr ⟨hvain, _, .pausing (c.policy.delayFor k) hfits' hallows, ?_⟩
    rw [hclose] at hgoesOn
    exact hgoesOn hvain (by simp) (by simp) (by simp)

/-- One step keeps what holds of a report. -/
theorem stands_next (h : c.Stands bs s) (n : Nat) : c.Stands bs (c.next s (c.clock n)) := by
  cases h with
  | done visits r hpast hall hreport hwriting =>
    rw [next_of_settled (settled_of_over hreport hwriting)]
    exact .done visits r hpast hall hreport hwriting
  | writing visits r b start k made phase hpast hsplit hnew hreport hreadiness hpolicy hwriting
      hvain hstanding =>
    cases hstanding with
    | attempting hfits hallows =>
      rcases next_cases hreport hwriting rfl hfits (c.clock n) with
        ⟨hover, r', hreadiness', hpolicy', hnext⟩ | ⟨hk, phase, hstanding, hnext⟩
      · -- the binding's turn is over
        have hvisited : c.Visited ⟨b, c.clock start, k + 1⟩ :=
          ⟨⟨start, rfl⟩, fun hshows => absurd hshows hnew,
            fun _ => makes_of_over hvain hallows hover⟩
        rw [hnext]
        refine stands_advance (past_visit hpast hvisited (Nat.succ_le_of_lt hfits) _ _) ?_
          (hreadiness'.trans hreadiness) (hpolicy'.trans hpolicy) n rfl
        rw [hsplit, List.map_append, List.append_assoc]
        rfl
      · -- the same write, with one more failure
        rw [hnext]
        exact .writing visits { r with writing := some (c.write b start (k + 1) phase) } b start
          (k + 1) (k + 1) phase ⟨hpast.visited, hpast.counted, hpast.attempts, hpast.changes⟩ hsplit
          hnew rfl hreadiness hpolicy rfl (Retry.vainUntil_succ hvain hk) hstanding
    | pausing delay hfits hallows =>
      -- the pause is over, and one more attempt is noted
      rw [next_pausing hreport hwriting rfl, attempt_of_attempting rfl rfl rfl]
      refine .writing visits { r with writing := some (c.write b start k .attempting) } b start k
        (k + 1) .attempting ⟨hpast.visited, hpast.counted, ?_, hpast.changes⟩ hsplit hnew rfl
        hreadiness hpolicy rfl hvain (.attempting hfits hallows)
      rw [List.map_append, hpast.attempts, List.append_assoc, List.replicate_succ']
      rfl
    | broken hfull hallows =>
      rw [next_of_settled (settled_of_ended hreport hwriting rfl)]
      exact .writing visits r b start k k _ hpast hsplit hnew hreport hreadiness hpolicy hwriting
        hvain (.broken hfull hallows)

theorem stands_run (hlist : c.store.byIndex bySecret c.secretKey = .ok bs) (n : Nat) :
    c.Stands bs (c.run n) := by
  induction n with
  | zero => exact stands_zero hlist
  | succ n ih => exact stands_next ih (n + 1)

end Steps

end Setting

end Rollout

/-! ## The end of a report -/

/-- A bound on the steps to the end of the attempts, if there is a limit: an attempt takes one step,
and so does the pause before each but the first. -/
def Retry.stepsLeft (limit : Nat) (a : Retry) : Nat :=
  match a.phase with
  | .attempting => 2 * (limit - a.failures)
  | .pausing _ => 2 * (limit - a.failures) + 1
  | .ended _ => 0

namespace Report

variable {β τ : Type} {r : Report β} {limit : Nat}

/-- A bound on the steps to the end of a report, with all attempts for each binding to come. -/
def stepsLeft (limit : Nat) (r : Report β) : Nat :=
  match r.writing with
  | none => 0
  | some w => r.remaining.length * (2 * limit + 2) + w.attempts.stepsLeft limit

theorem stepsLeft_of_writing {w : Write β} (h : r.writing = some w) :
    r.stepsLeft limit = r.remaining.length * (2 * limit + 2) + w.attempts.stepsLeft limit := by
  unfold stepsLeft
  rw [h]

theorem stepsLeft_advance [Object β] [Conditioned β τ] [DecidableEq τ] (r : Report β) (now : τ)
    (bs : List β) (limit : Nat) :
    (r.advance now bs).1.stepsLeft limit ≤ bs.length * (2 * limit + 2) := by
  obtain ⟨skipped, rest, hbs, -, -, hremaining, hwriting⟩ := advance_spec r now bs
  cases rest with
  | nil =>
    unfold stepsLeft
    rw [hwriting]
    exact Nat.zero_le _
  | cons b rest =>
    rw [stepsLeft_of_writing hwriting, hremaining, hbs, List.length_append, List.length_cons,
      List.tail_cons, Nat.add_mul, Nat.add_mul]
    show _ + 2 * (limit - 0) ≤ _
    omega

end Report

namespace Rollout

variable {β τ : Type} [Object β] [Conditioned β τ]

omit [Conditioned β τ] in
theorem report_attempt (s : Rollout β) : s.attempt.report = s.report := by
  unfold attempt
  split
  · split <;> rfl
  · rfl

namespace Setting

variable {c : Setting β τ} {bs : List β} {s : Rollout β}

section Steps

variable [DecidableEq τ]

/-- One step brings a report nearer to its end. -/
theorem stepsLeft_next (h : c.Stands bs s) (hlimit : 0 < c.policy.maxRetries.toNat) (n : Nat) :
    let limit := c.policy.maxRetries.toNat
    c.Settled s ∨ ∃ r r', s.report = some r ∧ (c.next s (c.clock n)).report = some r' ∧
      r'.stepsLeft limit < r.stepsLeft limit := by
  intro limit
  cases h with
  | done visits r hpast hall hreport hwriting => exact Or.inl (settled_of_over hreport hwriting)
  | writing visits r b start k made phase hpast hsplit hnew hreport hreadiness hpolicy hwriting
      hvain hstanding =>
    cases hstanding with
    | attempting hfits hallows =>
      have hk : k < limit := hallows.resolve_left (Nat.ne_of_gt hlimit)
      have hsteps : r.stepsLeft limit = r.remaining.length * (2 * limit + 2) + 2 * (limit - k) :=
        Report.stepsLeft_of_writing hwriting
      rcases next_cases hreport hwriting rfl hfits (c.clock n) with
        ⟨-, r', -, -, hnext⟩ | ⟨-, phase, hstanding, hnext⟩
      · have hrest := Report.stepsLeft_advance r' (c.clock n) r.remaining limit
        refine Or.inr ⟨r, _, hreport, by rw [hnext, report_attempt], ?_⟩
        omega
      · have hphase : (c.write b start (k + 1) phase).attempts.stepsLeft limit <
            2 * (limit - k) := by
          cases hstanding <;> simp only [write, Retry.stepsLeft] <;> omega
        refine Or.inr ⟨r, _, hreport, by rw [hnext], ?_⟩
        rw [hsteps, Report.stepsLeft_of_writing rfl]
        exact Nat.add_lt_add_left hphase _
    | pausing delay hfits hallows =>
      refine Or.inr ⟨r, _, hreport, by rw [next_pausing hreport hwriting rfl, report_attempt], ?_⟩
      rw [Report.stepsLeft_of_writing hwriting, Report.stepsLeft_of_writing rfl]
      exact Nat.lt_succ_self _
    | broken hfull hallows => exact Or.inl (settled_of_ended hreport hwriting rfl)

theorem run_of_settled {n : Nat} (h : c.Settled (c.run n)) {m : Nat} (hm : n ≤ m) :
    c.run m = c.run n := by
  obtain ⟨d, rfl⟩ := Nat.exists_eq_add_of_le hm
  induction d with
  | zero => rfl
  | succ d ih =>
    show c.next (c.run (n + d)) _ = _
    rw [ih (Nat.le_add_right n d)]
    exact next_of_settled h _

/-- With a limit a report comes to an end. -/
theorem exists_settled (hlist : c.store.byIndex bySecret c.secretKey = .ok bs)
    (hlimit : 0 < c.policy.maxRetries.toNat) : ∃ n, c.Settled (c.run n) := by
  have hbound : ∀ k n r, (c.run n).report = some r →
      r.stepsLeft c.policy.maxRetries.toNat < k → ∃ m, c.Settled (c.run m) := by
    intro k
    induction k with
    | zero => exact fun n r _ hk => absurd hk (Nat.not_lt_zero _)
    | succ k ih =>
      intro n r hreport hk
      rcases stepsLeft_next (stands_run hlist n) hlimit (n + 1) with hs | ⟨r₁, r', hr₁, hr', hlt⟩
      · exact ⟨n, hs⟩
      · obtain rfl := Option.some.inj (hreport.symm.trans hr₁)
        exact ih (n + 1) r' hr' (by omega)
  obtain ⟨r, hr⟩ : ∃ r, (c.run 0).report = some r := by
    cases stands_run hlist 0 with
    | done visits r hpast hall hreport hwriting => exact ⟨r, hreport⟩
    | writing visits r b start k made phase hpast hsplit hnew hreport => exact ⟨r, hreport⟩
  exact hbound _ 0 r hr (Nat.lt_succ_self _)

/-- How a report on the bindings `bs` stands that has come to its end: all of them have had their
turns, or the write for one of them has broken down. -/
inductive Ends (c : Setting β τ) (bs : List β) (s : Rollout β) : Prop
  | complete (visits : List (Visit β τ)) (hpast : c.Past visits [] s)
      (hall : visits.map Visit.binding = bs) (hover : s.Over)
  | broken (visits : List (Visit β τ)) (b : β) (rest : List β) (n : Nat)
      (hpast : c.Past visits
        (List.replicate UInt32.size (Report.updated c.readiness (c.clock n) b)) s)
      (hsplit : bs = visits.map Visit.binding ++ b :: rest) (hnew : ¬Report.Shows c.readiness b)
      (hvain : Retry.VainUntil c.policy (c.client.conduct (keyOf b)) UInt32.size)
      (hallows : Retry.Allows c.policy UInt32.size) (hbroken : s.Broken)

omit [DecidableEq τ] in
theorem ends_of_settled (h : c.Stands bs s) (hs : c.Settled s) : c.Ends bs s := by
  cases h with
  | done visits r hpast hall hreport hwriting =>
    exact .complete visits hpast hall ⟨r, hreport, hwriting⟩
  | writing visits r b start k made phase hpast hsplit hnew hreport hreadiness hpolicy hwriting
      hvain hstanding =>
    -- an attempt or a pause under way has a next step, so the write has broken down
    have hnone := hs (c.clock 0)
    cases hstanding with
    | attempting hfits hallows =>
      rw [acts_attempting hreport hwriting rfl] at hnone
      exact absurd hnone (by simp)
    | pausing delay hfits hallows =>
      rw [acts_pausing hreport hwriting rfl] at hnone
      exact absurd hnone (List.cons_ne_nil _ _)
    | broken hfull hallows =>
      subst hfull
      refine .broken visits b r.remaining start hpast hsplit hnew hvain hallows ⟨r, ?_⟩
      refine ⟨"attempt to subtract with overflow", hreport, ?_⟩
      unfold Report.panic?
      rw [hwriting]
      rfl

/-- With a limit a report comes to an end, and stays as it is from then on. -/
theorem exists_end (hlist : c.store.byIndex bySecret c.secretKey = .ok bs)
    (hlimit : 0 < c.policy.maxRetries.toNat) :
    ∃ n, (∀ m, n ≤ m → c.run m = c.run n) ∧ c.Ends bs (c.run n) := by
  obtain ⟨n, hs⟩ := exists_settled hlist hlimit
  exact ⟨n, fun m hm => run_of_settled hs hm, ends_of_settled (stands_run hlist n) hs⟩

/-- If all failures can be counted, a report goes through all its bindings. -/
theorem exists_complete (hlist : c.store.byIndex bySecret c.secretKey = .ok bs)
    (hlimit : 0 < c.policy.maxRetries.toNat) (hfits : c.policy.maxRetries.toNat ≤ UInt32.size) :
    ∃ n visits, c.Past visits [] (c.run n) ∧ visits.map Visit.binding = bs ∧
      ∀ m, n ≤ m → c.run m = c.run n := by
  obtain ⟨n, hstays, hends⟩ := exists_end hlist hlimit
  cases hends with
  | complete visits hpast hall hover => exact ⟨n, visits, hpast, hall, hstays⟩
  | broken visits b rest start hpast hsplit hnew hvain hallows hbroken =>
    unfold Retry.Allows at hallows
    omega

omit [DecidableEq τ] in
/-- If the policy allows more attempts than failures can be counted, no turn is over in which that
many were in vain. -/
theorem not_vain_of_past {visits : List (Visit β τ)} {since : List β}
    (hpast : c.Past visits since s) (hbeyond : UInt32.size < c.policy.maxRetries.toNat)
    {v : Visit β τ} (hv : v ∈ visits) (hnew : ¬Report.Shows c.readiness v.binding) :
    ¬Retry.VainUntil c.policy (c.client.conduct (keyOf v.binding)) UInt32.size := by
  intro hvain
  have hmakes := (hpast.visited v hv).tried hnew
  have hcounted := hpast.counted v hv
  rcases hmakes.last with ⟨u, hu⟩ | hlimit
  · have hpos := hmakes.pos
    exact Retry.not_inVain_of_returned hu (hvain (v.tries - 1) (by omega))
  · omega

omit [Conditioned β τ] [DecidableEq τ] in
theorem settled_of_broken (h : s.Broken) : c.Settled s := by
  obtain ⟨r, t, hreport, hpanic⟩ := h
  unfold Report.panic? at hpanic
  split at hpanic
  next w hwriting =>
    split at hpanic
    next hphase => exact settled_of_ended hreport hwriting hphase
    next => exact absurd hpanic (Option.some_ne_none t).symm
  next => exact absurd hpanic (Option.some_ne_none t).symm

omit [Object β] [Conditioned β τ] [DecidableEq τ] in
theorem not_broken_of_over (h : s.Over) : ¬s.Broken := by
  rintro ⟨r, t, hreport, hpanic⟩
  obtain ⟨r', hreport', hwriting⟩ := h
  obtain rfl := Option.some.inj (hreport'.symm.trans hreport)
  unfold Report.panic? at hpanic
  rw [hwriting] at hpanic
  exact absurd hpanic (Option.some_ne_none t).symm

/-- A report breaks down exactly if the policy allows more attempts than failures can be counted,
and for one of the bindings to be written that many would be in vain. -/
theorem broken_iff (hlist : c.store.byIndex bySecret c.secretKey = .ok bs)
    (hlimit : 0 < c.policy.maxRetries.toNat) :
    (∃ n, (c.run n).Broken) ↔ UInt32.size < c.policy.maxRetries.toNat ∧
      ∃ b ∈ bs, ¬Report.Shows c.readiness b ∧
        Retry.VainUntil c.policy (c.client.conduct (keyOf b)) UInt32.size := by
  obtain ⟨n, hstays, hends⟩ := exists_end hlist hlimit
  constructor
  · rintro ⟨m, hm⟩
    have hbroken : (c.run n).Broken := by
      rw [← hstays (max n m) (Nat.le_max_left n m),
        run_of_settled (settled_of_broken hm) (Nat.le_max_right n m)]
      exact hm
    cases hends with
    | complete visits hpast hall hover => exact absurd hbroken (not_broken_of_over hover)
    | broken visits b rest start hpast hsplit hnew hvain hallows =>
      refine ⟨hallows.resolve_left (Nat.ne_of_gt hlimit), b, ?_, hnew, hvain⟩
      rw [hsplit]
      exact List.mem_append_right _ List.mem_cons_self
  · rintro ⟨hbeyond, b, hb, hnew, hvain⟩
    cases hends with
    | complete visits hpast hall hover =>
      rw [← hall] at hb
      obtain ⟨v, hv, rfl⟩ := List.mem_map.mp hb
      exact absurd hvain (not_vain_of_past hpast hbeyond hv hnew)
    | broken visits b' rest start hpast hsplit hnew' hvain' hallows hbroken => exact ⟨n, hbroken⟩

/-- Without the index there is nothing to write. -/
theorem run_unlisted {e : Error} (hlist : c.store.byIndex bySecret c.secretKey = .error e)
    (n : Nat) : c.run n = ⟨c.store, none, [], []⟩ := by
  induction n with
  | zero =>
    unfold run begin Report.onStore
    rw [hlist]
    rfl
  | succ n ih =>
    show c.next (c.run n) _ = _
    rw [ih]
    rfl

end Steps

/-! ## The bindings apart -/

theorem keyOf_of_mem_values [LawfulConditioned β τ] {readiness : Readiness} {v : Visit β τ}
    {value : β} (h : value ∈ v.values readiness) : keyOf value = keyOf v.binding := by
  rw [List.eq_of_mem_replicate h]
  exact Report.keyOf_updated readiness v.reading v.binding

/-- What is attempted for one binding among others of different keys. -/
theorem filter_values [LawfulConditioned β τ] {visits : List (Visit β τ)} (readiness : Readiness)
    (hd : (visits.map fun v => keyOf v.binding).Nodup) {v : Visit β τ} (hv : v ∈ visits) :
    (visits.flatMap (Visit.values readiness)).filter (fun value => keyOf value = keyOf v.binding) =
      v.values readiness := by
  have hnone : ∀ vs : List (Visit β τ), (∀ v' ∈ vs, keyOf v'.binding ≠ keyOf v.binding) →
      (vs.flatMap (Visit.values readiness)).filter
        (fun value => keyOf value = keyOf v.binding) = [] := by
    intro vs hvs
    rw [List.filter_eq_nil_iff]
    intro value hvalue
    obtain ⟨v', hv', hin⟩ := List.mem_flatMap.mp hvalue
    rw [decide_eq_true_eq, keyOf_of_mem_values hin]
    exact hvs v' hv'
  obtain ⟨before, after, rfl⟩ := List.append_of_mem hv
  rw [List.map_append, List.map_cons, List.nodup_append, List.nodup_cons] at hd
  obtain ⟨-, ⟨hafter, -⟩, hbefore⟩ := hd
  rw [List.flatMap_append, List.flatMap_cons, List.filter_append, List.filter_append,
    hnone before fun v' hv' => hbefore _ (List.mem_map_of_mem hv') _ List.mem_cons_self,
    hnone after fun v' hv' he => hafter (he ▸ List.mem_map_of_mem hv'),
    List.nil_append, List.append_nil, List.filter_eq_self]
  exact fun value hvalue => decide_eq_true (keyOf_of_mem_values hvalue)

section Lawful

variable [LawfulConditioned β τ]

theorem tried_of_past {visits : List (Visit β τ)} (hpast : c.Past visits [] s)
    (hd : ((visits.map Visit.binding).map keyOf).Nodup) {b : β}
    (hb : b ∈ visits.map Visit.binding) :
    ∃ v, c.Visited v ∧ v.binding = b ∧ s.tried (keyOf b) = v.values c.readiness := by
  obtain ⟨v, hv, rfl⟩ := List.mem_map.mp hb
  rw [List.map_map] at hd
  refine ⟨v, hpast.visited v hv, rfl, ?_⟩
  unfold tried
  rw [hpast.attempts, List.append_nil]
  exact filter_values c.readiness hd hv

/-- Whether and with what a binding is written is the same for two clients that do the same to it,
but for the clock. -/
theorem tried_alike {client : Client β} {clock : Nat → τ} {s' : Rollout β}
    {visits visits' : List (Visit β τ)} (hpast : c.Past visits [] s)
    (hpast' : Setting.Past { c with client, clock } visits' [] s')
    (hall : visits.map Visit.binding = bs) (hall' : visits'.map Visit.binding = bs)
    (hd : (bs.map keyOf).Nodup) {b : β} (hb : b ∈ bs)
    (hconduct : client.conduct (keyOf b) = c.client.conduct (keyOf b)) :
    ∃ tries reading reading',
      s.tried (keyOf b) = List.replicate tries (Report.updated c.readiness reading b) ∧
      s'.tried (keyOf b) = List.replicate tries (Report.updated c.readiness reading' b) := by
  obtain ⟨v, hvisited, hv, htried⟩ := tried_of_past hpast (hall.symm ▸ hd) (hall.symm ▸ hb)
  obtain ⟨v', hvisited', hv', htried'⟩ := tried_of_past hpast' (hall'.symm ▸ hd) (hall'.symm ▸ hb)
  have htries : v'.tries = v.tries := by
    by_cases hshows : Report.Shows c.readiness b
    · exact (hvisited'.left (hv'.symm ▸ hshows)).trans (hvisited.left (hv.symm ▸ hshows)).symm
    · have hmakes := hvisited.tried (hv.symm ▸ hshows)
      have hmakes' := hvisited'.tried (hv'.symm ▸ hshows)
      rw [hv] at hmakes
      rw [hv'] at hmakes'
      exact hmakes'.unique (hconduct.symm ▸ hmakes)
  refine ⟨v.tries, v.reading, v'.reading, ?_, ?_⟩
  · rw [htried, Visit.values, hv]
  · rw [htried', Visit.values, hv', htries]

end Lawful

/-- **A report is exact for each binding, and none is in another's way.**  Take any store, any
policy with a limit, any client and any clock.  Without the index nothing is attempted.  With it the
report goes through the bindings that use the secret, in the order of their keys, and comes to an
end.  A binding that shows the outcome already is not attempted; any other is, until an attempt
returns in time or the limit is reached, always with the binding as it was read and the one
condition written, whose time is kept while its status is.  If the limit is more than the failures
that can be counted, the report may end early, at a binding for which that many were in vain.
Otherwise what is attempted for a binding is the same with any other client that does the same to
it, but for the clock. -/
theorem reports_each_binding [DecidableEq τ] [LawfulConditioned β τ] (c : Setting β τ)
    (hlimit : 0 < c.policy.maxRetries.toNat) :
    (∀ e, c.store.byIndex bySecret c.secretKey = .error e → ∀ n, (c.run n).attempts = []) ∧
    (∀ (b : β) (reading : τ) (old : Condition τ),
      Condition.get? (Conditioned.conditions b) informersSynced = some old →
      old.status = (c.readiness.condition reading).status →
      Condition.get? (Conditioned.conditions (Report.updated c.readiness reading b))
        informersSynced = some { c.readiness.condition reading with transition := old.transition } ∧
      ∀ reading', Report.updated c.readiness reading' b = Report.updated c.readiness reading b) ∧
    ∀ bs, c.store.byIndex bySecret c.secretKey = .ok bs →
      (bs.map keyOf).Pairwise (fun a b => Text.bytes a < Text.bytes b) ∧
      (∃ n, (∀ m, n ≤ m → c.run m = c.run n) ∧ ∃ visits : List (Visit β τ),
        (∀ v ∈ visits, c.Visited v) ∧
        ((visits.map Visit.binding = bs ∧ (c.run n).Over ∧
          (c.run n).attempts.map Attempt.value = visits.flatMap (Visit.values c.readiness)) ∨
        UInt32.size < c.policy.maxRetries.toNat ∧ (c.run n).Broken ∧ ∃ b rest reading,
          bs = visits.map Visit.binding ++ b :: rest ∧ ¬Report.Shows c.readiness b ∧
          Retry.VainUntil c.policy (c.client.conduct (keyOf b)) UInt32.size ∧
          (c.run n).attempts.map Attempt.value = visits.flatMap (Visit.values c.readiness) ++
            List.replicate UInt32.size (Report.updated c.readiness reading b))) ∧
      (c.policy.maxRetries.toNat ≤ UInt32.size → ∀ (client : Client β) (clock : Nat → τ), ∀ b ∈ bs,
        client.conduct (keyOf b) = c.client.conduct (keyOf b) →
        ∃ n tries reading reading', ∀ m, n ≤ m →
          (c.run m).tried (keyOf b) =
            List.replicate tries (Report.updated c.readiness reading b) ∧
          (Setting.run { c with client, clock } m).tried (keyOf b) =
            List.replicate tries (Report.updated c.readiness reading' b)) := by
  refine ⟨fun e hlist n => ?_, fun b reading old hold hstatus => ?_, fun bs hlist => ⟨?_, ?_, ?_⟩⟩
  · rw [run_unlisted hlist]
  · rw [Report.get?_updated, hold, Option.elim_some, Report.carryOver_condition _ _ hstatus]
    exact ⟨rfl, fun reading' => Report.updated_congr c.readiness reading reading' hold hstatus⟩
  · exact Store.byIndex_ordered (Store.sound_after c.calls) hlist
  · obtain ⟨n, hstays, hends⟩ := exists_end hlist hlimit
    refine ⟨n, hstays, ?_⟩
    cases hends with
    | complete visits hpast hall hover =>
      refine ⟨visits, hpast.visited, Or.inl ⟨hall, hover, ?_⟩⟩
      rw [hpast.attempts, List.append_nil]
    | broken visits b rest start hpast hsplit hnew hvain hallows hbroken =>
      have hbeyond := hallows.resolve_left (Nat.ne_of_gt hlimit)
      exact ⟨visits, hpast.visited, Or.inr ⟨hbeyond, hbroken, b, rest, c.clock start, hsplit, hnew,
        hvain, hpast.attempts⟩⟩
  · intro hfits client clock b hb hconduct
    obtain ⟨n, visits, hpast, hall, hstays⟩ := exists_complete hlist hlimit hfits
    obtain ⟨n', visits', hpast', hall', hstays'⟩ :=
      exists_complete (c := { c with client, clock }) hlist hlimit hfits
    have hd : (bs.map keyOf).Nodup := (Store.listed_of_byIndex (Store.sound_after c.calls) hlist).1
    obtain ⟨tries, reading, reading', htried, htried'⟩ :=
      tried_alike hpast hpast' hall hall' hd hb hconduct
    refine ⟨max n n', tries, reading, reading', fun m hm => ?_⟩
    rw [hstays m (by omega), hstays' m (by omega)]
    exact ⟨htried, htried'⟩

section Two

open Scenario

/-- Two bindings that use the secret and show nothing. -/
def twoBindings : List (Store.Mutation Binding) :=
  [.addIndex bySecret Binding.secrets, .upsert (Upkeep.unreported "b1"),
    .upsert (Upkeep.unreported "b2")]

theorem byIndex_twoBindings : (Store.after twoBindings).byIndex bySecret "ns/s" =
    .ok [Upkeep.unreported "b1", Upkeep.unreported "b2"] := by
  decide +kernel

/-- Every attempt for `b1` hangs, and `b2` is written at once. -/
def divided : Setting Binding Moment where
  calls := twoBindings
  secretKey := "ns/s"
  policy := ⟨3, 1000, 10, 100⟩
  readiness := .ready
  client := ⟨fun key _ => if key = "b1" then .hangs else .ends 0 (.ok ()), fun b => [.upsert b]⟩
  clock n := .reading n

theorem reports_each_of_two :
    0 < divided.policy.maxRetries.toNat ∧
    ∃ n, ∃ visits : List (Visit Binding Moment), (∀ v ∈ visits, divided.Visited v) ∧
      visits.map Visit.binding = [Upkeep.unreported "b1", Upkeep.unreported "b2"] ∧
      (divided.run n).Over ∧
      (divided.run n).attempts.map Attempt.value = visits.flatMap (Visit.values .ready) ∧
      (divided.run 6).attempts.map (fun a => keyOf a.value) = ["b1", "b1", "b1", "b2"] := by
  obtain ⟨-, -, hlisted⟩ := reports_each_binding divided (by decide)
  obtain ⟨-, ⟨n, -, visits, hvisited, hend⟩, -⟩ := hlisted _ byIndex_twoBindings
  refine ⟨by decide, n, visits, hvisited, ?_⟩
  rcases hend with ⟨hall, hover, hattempts⟩ | ⟨hbeyond, -⟩
  · exact ⟨hall, hover, hattempts, by decide +kernel⟩
  · exact absurd hbeyond (by decide)

/-- Every attempt for `b1` fails, and `b2` would be written at once.  The policy allows one attempt
more than failures can be counted. -/
def overcounted : Setting Binding Moment where
  calls := twoBindings
  secretKey := "ns/s"
  policy := ⟨4294967297, 1000, 0, 0⟩
  readiness := .ready
  client := ⟨fun key _ => .ends 0 (if key = "b1" then .error (.external "refused") else .ok ()),
    fun b => [.upsert b]⟩
  clock n := .reading n

/-- The first binding ends the report before its attempts are used up, and the second one has no
turn, though it does not show the outcome and its write would succeed. -/
theorem second_unwritten :
    overcounted.policy.maxRetries.toNat = UInt32.size + 1 ∧
    overcounted.store.byIndex bySecret overcounted.secretKey =
      .ok [Upkeep.unreported "b1", Upkeep.unreported "b2"] ∧
    ¬Report.Shows overcounted.readiness (Upkeep.unreported "b2") ∧
    (∃ u, overcounted.close (Upkeep.unreported "b2") 0 = .returned u) ∧
    ∃ n reading, (∀ m, n ≤ m → overcounted.run m = overcounted.run n) ∧
      (overcounted.run n).Broken ∧
      (overcounted.run n).attempts.map Attempt.value = List.replicate UInt32.size
        (Report.updated overcounted.readiness reading (Upkeep.unreported "b1")) ∧
      (overcounted.run n).tried "b2" = [] := by
  have hnew (name : String) :
      ¬Report.Shows overcounted.readiness (Upkeep.unreported name) := by
    rintro ⟨c, hc, -⟩
    exact absurd hc (Option.some_ne_none c).symm
  have hvain : Retry.VainUntil overcounted.policy (overcounted.client.conduct "b1") UInt32.size :=
    fun _ _ => trivial
  obtain ⟨n, hstays, hends⟩ := exists_end (c := overcounted) byIndex_twoBindings (by decide)
  refine ⟨rfl, byIndex_twoBindings, hnew "b2", ⟨(), Retry.Conduct.close_ends_zero _ _⟩, n, ?_⟩
  -- whatever turn is over, it is not that of the first binding
  have hfirst : ∀ {visits : List (Visit Binding Moment)} {since : List Binding},
      overcounted.Past visits since (overcounted.run n) →
      visits.map Visit.binding <+: [Upkeep.unreported "b1", Upkeep.unreported "b2"] →
      visits = [] := by
    intro visits since hpast hprefix
    cases visits with
    | nil => rfl
    | cons v visits =>
      have hv : v.binding = Upkeep.unreported "b1" := (List.cons_prefix_cons.mp hprefix).1
      have hno := not_vain_of_past hpast (by decide) List.mem_cons_self (hv.symm ▸ hnew "b1")
      rw [hv] at hno
      exact absurd hvain hno
  cases hends with
  | complete visits hpast hall hover =>
    rw [hfirst hpast (hall ▸ List.prefix_refl _)] at hall
    exact absurd hall (List.cons_ne_nil _ _).symm
  | broken visits b rest start hpast hsplit _ _ _ hbroken =>
    obtain rfl := hfirst hpast (hsplit ▸ List.prefix_append _ _)
    obtain rfl : Upkeep.unreported "b1" = b := (List.cons.inj hsplit).1
    refine ⟨overcounted.clock start, hstays, hbroken, hpast.attempts, ?_⟩
    unfold tried
    rw [hpast.attempts, List.flatMap_nil, List.nil_append, List.filter_eq_nil_iff]
    intro value hvalue
    rw [List.eq_of_mem_replicate hvalue, Report.keyOf_updated]
    decide

end Two

end Setting

end Rollout

end InformerHub
