import InformerHub.Proofs.Reporting

/-!
# Reports that are repeated

If everything that a report attempts is written and stored, the store shows the outcome on every
binding that the report is about.  So the same report has nothing to do when it is made again,
whenever that is.

> After a report whose writes have all succeeded the same report attempts nothing.  After a series
> of such reports each binding has its other conditions as before, up to their order, and the time
> of the condition on the informers is the reading of the clock in the last report that changed the
> status (`settles_in_one_report`).

`get?_filed` says what one report does to one binding: nothing, or the one write that
`Report.updated` is.  A series adds that up, one binding at a time.
-/

namespace InformerHub

namespace Condition

variable {τ : Type} {c : Condition τ} {cs ds : List (Condition τ)}

/-- Writing a condition leaves the others as they are, up to their order. -/
theorem Rewrites.others (h : Rewrites c cs ds) :
    (ds.filter fun d => d.kind ≠ c.kind).Perm (cs.filter fun d => d.kind ≠ c.kind) := by
  cases h with
  | @instead before after old hkind hfirst =>
    have hnew : (carryOver old c).kind = c.kind := kind_carryOver old c
    refine List.Perm.of_eq ?_
    rw [List.filter_append, List.filter_append, List.filter_cons_of_neg (by simpa using hnew),
      List.filter_cons_of_neg (by simpa using hkind)]
  | new habsent hperm =>
    refine (hperm.filter _).trans (List.Perm.of_eq ?_)
    exact List.filter_cons_of_neg (by simp)

end Condition

namespace Report

variable {β τ : Type} [Object β] [Conditioned β τ] [LawfulConditioned β τ]

/-- The first condition on the informers. -/
def shown (b : β) : Option (Condition τ) :=
  Condition.get? (Conditioned.conditions b) informersSynced

/-- The conditions on anything else. -/
def others (b : β) : List (Condition τ) :=
  (Conditioned.conditions b).filter fun c => c.kind ≠ informersSynced

theorem others_updated (readiness : Readiness) (now : τ) (b : β) :
    (others (updated readiness now b)).Perm (others b) := by
  unfold others updated
  rw [LawfulConditioned.conditions_withConditions]
  have h := (Condition.rewrites_set (Conditioned.conditions b) (readiness.condition now)).others
  rw [kind_condition] at h
  exact h

/-- What is written shows the outcome. -/
theorem shows_updated (readiness : Readiness) (now : τ) (b : β) :
    Shows readiness (updated readiness now b) := by
  refine ⟨_, get?_updated readiness now b, ?_⟩
  cases Condition.get? (Conditioned.conditions b) informersSynced with
  | none => cases readiness <;> exact ⟨rfl, rfl, rfl, rfl⟩
  | some old =>
    show Condition.Alike (Condition.carryOver old (readiness.condition now)) _
    unfold Condition.carryOver
    split
    · cases readiness <;> exact ⟨rfl, rfl, rfl, rfl⟩
    · cases readiness <;> exact ⟨rfl, rfl, rfl, rfl⟩

/-- The time of the condition stays while the status does, and is that of the write otherwise. -/
theorem transition_updated (readiness : Readiness) (now : τ) (b : β) :
    let after := shown (updated readiness now b)
    (after.map Condition.status = (shown b).map Condition.status →
      after.map Condition.transition = (shown b).map Condition.transition) ∧
    (after.map Condition.status ≠ (shown b).map Condition.status →
      after.map Condition.transition = some now) := by
  have htime : (readiness.condition now).transition = now := by cases readiness <;> rfl
  intro after
  have hafter : after = _ := get?_updated readiness now b
  rw [hafter]
  unfold shown
  cases Condition.get? (Conditioned.conditions b) informersSynced with
  | none => exact ⟨fun h => absurd h (by simp), fun _ => congrArg some htime⟩
  | some old =>
    simp only [Option.elim_some, Option.map_some, Option.some.injEq, ne_eq,
      Condition.status_carryOver]
    constructor
    · intro h
      rw [carryOver_condition readiness now h.symm]
    · intro h
      rw [Condition.carryOver, if_neg (Ne.symm h), htime]

end Report

namespace Rollout.Setting

variable {β τ : Type} [Object β] [Conditioned β τ] [DecidableEq τ]

/-- A report that is over, all of whose writes have succeeded and are stored, and during which
nothing else has happened to the store. -/
structure Filed (c : Setting β τ) (n : Nat) : Prop where
  stores : ∀ b, c.client.lands b = [.upsert b]
  done : (c.run n).report.bind Report.writing = none
  /-- An attempt that the policy allows returns in time. -/
  returns : ∀ bs, c.store.byIndex bySecret c.secretKey = .ok bs → ∀ b ∈ bs,
    ¬Report.Shows c.readiness b →
      ∃ k, Retry.Allows c.policy k ∧ ∃ v, c.close b k = .returned v

variable {c : Setting β τ} {bs : List β} {n : Nat}

/-! ## What a report leaves -/

/-- What a turn leaves in the store. -/
def outcome (c : Setting β τ) (v : Visit β τ) : List (Store.Mutation β) :=
  if v.tries = 0 then [] else [.upsert (Report.updated c.readiness v.reading v.binding)]

omit [Conditioned β τ] [DecidableEq τ] in
/-- If some attempt may return, the last one that is made does. -/
theorem returned_of_makes {b : β} {made k : Nat}
    (hmakes : Retry.Makes c.policy (c.client.conduct (keyOf b)) made)
    (hallows : Retry.Allows c.policy k) {v : Unit} (hk : c.close b k = .returned v) :
    ∃ v, c.close b (made - 1) = .returned v := by
  rcases hmakes.last with hlast | hlimit
  · exact hlast
  · -- the attempt that returns is not before the last, as all of those are in vain
    have hpos := hmakes.pos
    have hle : made - 1 ≤ k := by
      refine Nat.le_of_not_lt fun hlt => ?_
      exact Retry.not_inVain_of_returned hk (hmakes.vain k hlt)
    have hlt : k < made := by
      unfold Retry.Allows at hallows
      omega
    obtain rfl : k = made - 1 := by omega
    exact ⟨v, hk⟩

theorem landed_of_filed (h : c.Filed n) (hlist : c.store.byIndex bySecret c.secretKey = .ok bs)
    {v : Visit β τ} (hv : c.Visited v) (hb : v.binding ∈ bs) : c.landed v = c.outcome v := by
  unfold landed outcome
  split
  next hzero => rw [if_pos hzero]
  next k hsome =>
    have hnew : ¬Report.Shows c.readiness v.binding := fun hshows => by
      have hzero := hv.left hshows
      omega
    obtain ⟨k', hallows, r, hr⟩ := h.returns bs hlist v.binding hb hnew
    obtain ⟨r', hr'⟩ := returned_of_makes (hv.tried hnew) hallows hr
    rw [hsome, Nat.succ_sub_one] at hr'
    rw [hr', if_neg (by omega)]
    exact h.stores _

section Turns

variable [LawfulConditioned β τ] {store : Store β} {visits : List (Visit β τ)}

omit [DecidableEq τ] in
/-- Turns of other bindings do nothing to what is stored under a key. -/
theorem get?_outcomes_of_ne {key : String} (c : Setting β τ) :
    ∀ (visits : List (Visit β τ)) (store : Store β),
      (∀ v ∈ visits, v.tries ≠ 0 → keyOf v.binding ≠ key) →
      ((visits.flatMap c.outcome).foldl Store.Mutation.apply store).get? key = store.get? key := by
  intro visits
  induction visits with
  | nil => exact fun _ _ => rfl
  | cons v visits ih =>
    intro store hne
    have hrest := ih ((c.outcome v).foldl Store.Mutation.apply store) fun v' hv' =>
      hne v' (List.mem_cons_of_mem v hv')
    rw [List.flatMap_cons, List.foldl_append, hrest]
    unfold outcome
    split
    next => rfl
    next htries =>
      refine Store.get?_upsert_of_ne ?_ store
      rw [Report.keyOf_updated]
      exact (hne v List.mem_cons_self htries).symm

omit [DecidableEq τ] in
/-- What was attempted for a binding is stored when all have had their turns. -/
theorem get?_outcomes_self (c : Setting β τ) (store : Store β)
    (hd : (visits.map fun v => keyOf v.binding).Nodup) {v : Visit β τ} (hv : v ∈ visits)
    (htries : v.tries ≠ 0) :
    ((visits.flatMap c.outcome).foldl Store.Mutation.apply store).get? (keyOf v.binding) =
      some (Report.updated c.readiness v.reading v.binding) := by
  obtain ⟨before, after, rfl⟩ := List.append_of_mem hv
  rw [List.map_append, List.map_cons, List.nodup_append, List.nodup_cons] at hd
  have hafter : ∀ v' ∈ after, v'.tries ≠ 0 → keyOf v'.binding ≠ keyOf v.binding :=
    fun v' hv' _ he => hd.2.1.1 (he ▸ List.mem_map_of_mem hv')
  rw [List.flatMap_append, List.flatMap_cons, List.foldl_append, List.foldl_append,
    get?_outcomes_of_ne c after _ hafter, outcome, if_neg htries,
    ← Report.keyOf_updated c.readiness v.reading v.binding]
  exact Store.get?_upsert_self _ _

omit [DecidableEq τ] [LawfulConditioned β τ] in
theorem indexer_outcomes (c : Setting β τ) (name : String) :
    ∀ (visits : List (Visit β τ)) (store : Store β),
      ((visits.flatMap c.outcome).foldl Store.Mutation.apply store).indexer name =
        store.indexer name := by
  intro visits
  induction visits with
  | nil => exact fun _ => rfl
  | cons v visits ih =>
    intro store
    rw [List.flatMap_cons, List.foldl_append, ih]
    unfold outcome
    split
    next => rfl
    next => exact Store.indexer_upsert store _ name

theorem kept_setting (c : Setting β τ) (n : Nat) :
    Kept c.store c.secretKey c.readiness (c.run n) := by
  induction n with
  | zero => exact kept_begin (Store.sound_after c.calls) c.policy (c.clock 0)
  | succ n ih => exact kept_run _ ih

/-- The store is one that was filled with further calls. -/
theorem store_run (c : Setting β τ) (n : Nat) :
    (c.run n).store = .after (c.calls ++ (c.run n).changes) := by
  rw [(kept_setting c n).store, store, Store.after, Store.after, List.foldl_append]

/-- What a report leaves, if everything that it attempts is written. -/
theorem store_filed (h : c.Filed n) (hlist : c.store.byIndex bySecret c.secretKey = .ok bs) :
    ∃ visits : List (Visit β τ), (∀ v ∈ visits, c.Visited v) ∧ visits.map Visit.binding = bs ∧
      (c.run n).store = (visits.flatMap c.outcome).foldl Store.Mutation.apply c.store := by
  have hover := h.done
  cases stands_run hlist n with
  | done visits r hpast hall hreport hwriting =>
    refine ⟨visits, hpast.visited, hall, ?_⟩
    have hlanded : visits.flatMap c.landed = visits.flatMap c.outcome :=
      List.flatMap_congr fun v hv =>
        landed_of_filed h hlist (hpast.visited v hv) (hall ▸ List.mem_map_of_mem hv)
    rw [(kept_setting c n).store, hpast.changes, hlanded]
  | writing visits r b start k made phase hpast hsplit hnew hreport hreadiness hpolicy hwriting =>
    rw [hreport, Option.bind_some, hwriting] at hover
    exact absurd hover (Option.some_ne_none _)

/-- What a report does to what is stored under a key: nothing, and then a binding that the report is
about shows the outcome, or the one write. -/
theorem get?_filed (h : c.Filed n) (key : String) :
    ((c.run n).store.get? key = c.store.get? key ∧
      ∀ bs, c.store.byIndex bySecret c.secretKey = .ok bs → ∀ b ∈ bs, keyOf b = key →
        Report.Shows c.readiness b) ∨
    ∃ b m, c.store.get? key = some b ∧
      (c.run n).store.get? key = some (Report.updated c.readiness (c.clock m) b) := by
  cases hlist : c.store.byIndex bySecret c.secretKey with
  | error e =>
    rw [run_unlisted hlist]
    exact Or.inl ⟨rfl, fun bs hbs => absurd hbs (by simp)⟩
  | ok bs =>
    obtain ⟨visits, hvisited, hall, hstore⟩ := store_filed h hlist
    obtain ⟨hd, hstored⟩ := Store.listed_of_byIndex (Store.sound_after c.calls) hlist
    rw [← hall, List.map_map] at hd
    rw [hstore]
    by_cases htried : ∃ v ∈ visits, v.tries ≠ 0 ∧ keyOf v.binding = key
    · obtain ⟨v, hv, htries, rfl⟩ := htried
      obtain ⟨m, hm⟩ := (hvisited v hv).reading
      refine Or.inr ⟨v.binding, m, hstored _ (hall ▸ List.mem_map_of_mem hv), ?_⟩
      rw [← hm]
      exact get?_outcomes_self c c.store hd hv htries
    · refine Or.inl ⟨get?_outcomes_of_ne c visits c.store fun v hv htries hkey =>
        htried ⟨v, hv, htries, hkey⟩, fun bs' hbs' b hb hkey => ?_⟩
      obtain rfl := Except.ok.inj hbs'
      rw [← hall] at hb
      obtain ⟨v, hv, rfl⟩ := List.mem_map.mp hb
      -- it was left alone, so it showed the outcome
      refine Classical.by_contradiction fun hnew => htried ⟨v, hv, ?_, hkey⟩
      exact Nat.ne_of_gt ((hvisited v hv).tried hnew).pos

theorem indexer_filed (h : c.Filed n) (name : String) :
    (c.run n).store.indexer name = c.store.indexer name := by
  cases hlist : c.store.byIndex bySecret c.secretKey with
  | error e => rw [run_unlisted hlist]
  | ok bs =>
    obtain ⟨visits, -, -, hstore⟩ := store_filed h hlist
    rw [hstore]
    exact indexer_outcomes c name visits c.store

/-- After a report every binding that it would be about shows the outcome. -/
theorem shows_of_filed (h : c.Filed n)
    (hlist : (c.run n).store.byIndex bySecret c.secretKey = .ok bs) :
    ∀ b ∈ bs, Report.Shows c.readiness b := by
  intro b hb
  have hsound' : (c.run n).store.Sound := store_run c n ▸ Store.sound_after _
  obtain ⟨hstored, secrets, hsecrets, hin⟩ := uses_of_byIndex hsound' hlist b hb
  rcases get?_filed h (keyOf b) with ⟨hsame, hshows⟩ | ⟨b₀, m, -, hwritten⟩
  · -- nothing was done to it, so the report was about it
    have hsound : c.store.Sound := Store.sound_after c.calls
    rw [indexer_filed h] at hsecrets
    have hbefore := Store.byIndex_of_indexer hsound hsecrets c.secretKey
    refine hshows _ hbefore b (List.mem_filter.mpr ⟨?_, List.contains_iff_mem.mpr hin⟩) rfl
    exact (Store.mem_list_iff hsound).mpr (hsame.symm.trans hstored)
  · obtain rfl := Option.some.inj (hwritten.symm.trans hstored)
    exact Report.shows_updated c.readiness (c.clock m) b₀

end Turns

/-- A report on bindings that show the outcome attempts nothing. -/
theorem attempts_of_shows (hlist : c.store.byIndex bySecret c.secretKey = .ok bs)
    (hshows : ∀ b ∈ bs, Report.Shows c.readiness b) (m : Nat) : (c.run m).attempts = [] := by
  cases stands_run hlist m with
  | done visits r hpast hall hreport hwriting =>
    have hnone : visits.flatMap (Visit.values c.readiness) = [] := by
      rw [List.flatMap_eq_nil_iff]
      intro v hv
      have hleft := (hpast.visited v hv).left (hshows _ (hall ▸ List.mem_map_of_mem hv))
      rw [Visit.values, hleft]
      rfl
    have hattempts := hpast.attempts
    rw [hnone] at hattempts
    exact List.map_eq_nil_iff.mp hattempts
  | writing visits r b start k made phase hpast hsplit hnew =>
    exact absurd (hshows b (by rw [hsplit]; simp)) hnew

end Rollout.Setting

/-! ## A series of reports -/

namespace Rollout

variable {β τ : Type} [Object β] [Conditioned β τ] [DecidableEq τ]

/-- Reports one after the other, each on the store that the one before has left.  They need not be
for the same secret, nor by the same policy. -/
structure Series (settings : Nat → Setting β τ) (ends : Nat → Nat) (stores : Nat → Store β)
    (n : Nat) : Prop where
  filed : ∀ i < n, (settings i).Filed (ends i)
  before : ∀ i < n, (settings i).store = stores i
  after : ∀ i < n, stores (i + 1) = ((settings i).run (ends i)).store

/-- The condition on the informers of the binding under a key. -/
def shownIn (store : Store β) (key : String) : Option (Condition τ) :=
  (store.get? key).bind Report.shown

section Series

variable [LawfulConditioned β τ] {settings : Nat → Setting β τ} {ends : Nat → Nat}
  {stores : Nat → Store β} {n : Nat}

/-- What one report does to the condition on the informers. -/
theorem shownIn_filed {c : Setting β τ} (h : c.Filed n) (key : String) :
    let before := shownIn c.store key
    let after := shownIn (c.run n).store key
    (after.map Condition.status = before.map Condition.status →
      after.map Condition.transition = before.map Condition.transition) ∧
    (after.map Condition.status ≠ before.map Condition.status →
      ∃ m, after.map Condition.transition = some (c.clock m)) := by
  intro before after
  rcases Setting.get?_filed h key with ⟨hsame, -⟩ | ⟨b, m, hb, hwritten⟩
  · have heq : after = before := congrArg (Option.bind · Report.shown) hsame
    rw [heq]
    exact ⟨fun _ => rfl, fun hno => absurd rfl hno⟩
  · have hbefore : before = Report.shown b := congrArg (Option.bind · Report.shown) hb
    have hafter : after = Report.shown (Report.updated c.readiness (c.clock m) b) :=
      congrArg (Option.bind · Report.shown) hwritten
    obtain ⟨hkept, hnew⟩ := Report.transition_updated c.readiness (c.clock m) b
    rw [hbefore, hafter]
    exact ⟨hkept, fun hno => ⟨m, hnew hno⟩⟩

/-- A binding stays in the store, with its other conditions as they were. -/
theorem others_filed {c : Setting β τ} (h : c.Filed n) {key : String} {b : β}
    (hb : c.store.get? key = some b) :
    ∃ b', (c.run n).store.get? key = some b' ∧ (Report.others b').Perm (Report.others b) := by
  rcases Setting.get?_filed h key with ⟨hsame, -⟩ | ⟨b₀, m, hb₀, hwritten⟩
  · exact ⟨b, hsame.trans hb, .refl _⟩
  · obtain rfl := Option.some.inj (hb₀.symm.trans hb)
    exact ⟨_, hwritten, Report.others_updated c.readiness (c.clock m) b₀⟩

theorem Series.others (h : Series settings ends stores n) {key : String} {b : β}
    (hb : (stores 0).get? key = some b) : ∀ i ≤ n,
    ∃ b', (stores i).get? key = some b' ∧ (Report.others b').Perm (Report.others b) := by
  intro i
  induction i with
  | zero => exact fun _ => ⟨b, hb, .refl _⟩
  | succ i ih =>
    intro hi
    obtain ⟨b₁, hb₁, hperm₁⟩ := ih (Nat.le_of_succ_le hi)
    rw [← h.before i hi] at hb₁
    obtain ⟨b₂, hb₂, hperm₂⟩ := others_filed (h.filed i hi) hb₁
    rw [← h.after i hi] at hb₂
    exact ⟨b₂, hb₂, hperm₂.trans hperm₁⟩

/-- The status of the condition on the informers after so many reports. -/
def statusAt (stores : Nat → Store β) (key : String) (i : Nat) : Option ConditionStatus :=
  (shownIn (stores i) key).map Condition.status

/-- The time of the condition on the informers after so many reports. -/
def timeAt (stores : Nat → Store β) (key : String) (i : Nat) : Option τ :=
  (shownIn (stores i) key).map Condition.transition

theorem Series.step (h : Series settings ends stores n) (key : String) {i : Nat} (hi : i < n) :
    (statusAt stores key (i + 1) = statusAt stores key i →
      timeAt stores key (i + 1) = timeAt stores key i) ∧
    (statusAt stores key (i + 1) ≠ statusAt stores key i →
      ∃ m, timeAt stores key (i + 1) = some ((settings i).clock m)) := by
  have hstep := shownIn_filed (h.filed i hi) key
  rw [h.before i hi, ← h.after i hi] at hstep
  exact hstep

/-- As long as the status stays, so does the time. -/
theorem Series.time_of_status (h : Series settings ends stores n) (key : String) {i : Nat} :
    ∀ j, i ≤ j → j ≤ n →
      (∀ k, i ≤ k → k < j → statusAt stores key (k + 1) = statusAt stores key k) →
      timeAt stores key j = timeAt stores key i := by
  intro j hij
  obtain ⟨d, rfl⟩ := Nat.exists_eq_add_of_le hij
  clear hij
  induction d with
  | zero => exact fun _ _ => rfl
  | succ d ih =>
    intro hj hstays
    have hbefore := ih (Nat.le_of_succ_le hj) fun k hk hlt => hstays k hk (by omega)
    have hlast := hstays (i + d) (Nat.le_add_right i d) (Nat.lt_succ_self _)
    exact ((h.step key hj).1 hlast).trans hbefore

/-- **Reporting settles.**  Take any report that is over, all of whose writes have succeeded and are
stored, while nothing else has happened to the store.  The same report made again attempts nothing,
whatever its policy, its client and its clock.

Take a series of such reports, and any binding that was stored at first.  It is stored at last, and
its other conditions are the same up to their order.  If no report has changed the status of the
condition on the informers, the time of that condition is as at first; otherwise it is a reading of
the clock in the last report that has changed the status. -/
theorem settles_in_one_report :
    (∀ (c d : Setting β τ) (n : Nat), c.Filed n → d.store = (c.run n).store →
      d.secretKey = c.secretKey → d.readiness = c.readiness → ∀ m, (d.run m).attempts = []) ∧
    ∀ (settings : Nat → Setting β τ) (ends : Nat → Nat) (stores : Nat → Store β) (n : Nat),
      Series settings ends stores n → ∀ (key : String) (b : β), (stores 0).get? key = some b →
      (∃ b', (stores n).get? key = some b' ∧ (Report.others b').Perm (Report.others b)) ∧
      ((∀ i < n, statusAt stores key (i + 1) = statusAt stores key i) →
        timeAt stores key n = timeAt stores key 0) ∧
      ∀ i < n, statusAt stores key (i + 1) ≠ statusAt stores key i →
        (∀ j, i < j → j < n → statusAt stores key (j + 1) = statusAt stores key j) →
        ∃ m, timeAt stores key n = some ((settings i).clock m) := by
  refine ⟨fun c d n h hstore hsecret hreadiness m => ?_,
    fun settings ends stores n h key b hb => ⟨h.others hb n (Nat.le_refl n), ?_, ?_⟩⟩
  · cases hlist : d.store.byIndex bySecret d.secretKey with
    | error e => rw [Setting.run_unlisted hlist]
    | ok bs =>
      refine Setting.attempts_of_shows hlist ?_ m
      rw [hstore, hsecret] at hlist
      rw [hreadiness]
      exact Setting.shows_of_filed h hlist
  · exact fun hstays => h.time_of_status key n (Nat.zero_le n) (Nat.le_refl n) fun i _ => hstays i
  · intro i hi hchanged hstays
    obtain ⟨m, hm⟩ := (h.step key hi).2 hchanged
    exact ⟨m, (h.time_of_status key n hi (Nat.le_refl n) hstays).trans hm⟩

end Series

section Two

open Scenario Setting

/-- A report whose writes all succeed at once, at readings of the clock from `start` on. -/
def prompt (calls : List (Store.Mutation Binding)) (readiness : Readiness) (start : Nat) :
    Setting Binding Moment where
  calls := calls
  secretKey := "ns/s"
  policy := ⟨3, 1000, 10, 100⟩
  readiness := readiness
  client := ⟨fun _ _ => .ends 0 (.ok ()), fun b => [.upsert b]⟩
  clock n := .reading (start + n)

theorem filed_prompt {calls : List (Store.Mutation Binding)} {readiness : Readiness}
    {start n : Nat}
    (h : (((prompt calls readiness start).run n).report.bind Report.writing).isNone = true) :
    (prompt calls readiness start).Filed n where
  stores _ := rfl
  done := Option.isNone_iff_eq_none.mp h
  returns _ _ _ _ _ := ⟨0, Or.inr (show 0 < (3 : UInt64).toNat by decide), (), rfl⟩

/-- Two bindings are reported ready. -/
def recovered : Setting Binding Moment := prompt twoBindings .ready 0

/-- The next report, on what the first one has left. -/
def reported (readiness : Readiness) : Setting Binding Moment :=
  prompt (twoBindings ++ (recovered.run 2).changes) readiness 50

/-- They are reported ready, and degraded after that. -/
def twoReports : Nat → Setting Binding Moment
  | 0 => recovered
  | _ => reported (.degraded 5)

/-- The store before, between and after the two reports. -/
def theirStores : Nat → Store Binding
  | 0 => recovered.store
  | 1 => (recovered.run 2).store
  | _ => ((reported (.degraded 5)).run 2).store

theorem filed_recovered : recovered.Filed 2 := filed_prompt (by decide +kernel)

theorem series_twoReports : Series twoReports (fun _ => 2) theirStores 2 where
  filed
    | 0, _ => filed_recovered
    | 1, _ => filed_prompt (by decide +kernel)
    | i + 2, hi => absurd hi (by omega)
  before
    | 0, _ => rfl
    | 1, _ => (store_run recovered 2).symm
    | i + 2, hi => absurd hi (by omega)
  after
    | 0, _ => rfl
    | 1, _ => rfl
    | i + 2, hi => absurd hi (by omega)

/-- The same report once more has nothing to do, and the time that another one leaves is its own. -/
theorem settles_in_one_of_two :
    recovered.Filed 2 ∧ (∀ m, ((reported .ready).run m).attempts = []) ∧
      ∃ m, timeAt theirStores "b1" 2 = some (.reading (50 + m)) := by
  obtain ⟨hagain, hseries⟩ := @settles_in_one_report Binding Moment _ _ _ _
  refine ⟨filed_recovered, ?_, ?_⟩
  · exact hagain recovered (reported .ready) 2 filed_recovered (store_run recovered 2).symm rfl rfl
  · obtain ⟨-, -, htime⟩ := hseries twoReports _ theirStores 2 series_twoReports "b1"
      (Upkeep.unreported "b1") (by decide +kernel)
    exact htime 1 (by omega) (by decide +kernel) fun j hj hlt => absurd hlt (by omega)

end Two

end Rollout

end InformerHub
