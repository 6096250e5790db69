import InformerHub.Proofs.FirstList
import InformerHub.Proofs.Replica

/-!
# The sync status is a latch

`Account` is a list and watch loop together with the transcript of its session: a signal that the
loop takes is a batch of the session, or nothing (`session_perform`).  So what is known of the batch
of the first list holds for the first list that the loop takes, whatever has failed before it.

> An informer is synced from the end of the first list's batch on, and remains so, whatever lists
> and watches fail later (`sync_latched`).
-/

namespace InformerHub

open Informer Session

variable {α : Type}

/-! ## The loop -/

namespace Reflector

/-- The batch that an effect begins. -/
def Effect.batch? : Effect α → Option (Batch α)
  | .log _ => none
  | .relist items => some (.relist items)
  | .change c => some (.change c)
  | .resync => some .resync

/-- The batch that a signal leads to. -/
def Signal.batch? : Signal α → Option (Batch α)
  | .listed items _ => some (.relist items)
  | .changed c => some (.change c)
  | .resyncDue _ => some .resync
  | _ => none

/-- The items of a list that has succeeded. -/
def Signal.list? : Signal α → Option (List α)
  | .listed items _ => some items
  | _ => none

/-- A list leads to a batch. -/
theorem Signal.list?_of_batch? {sig : Signal α} (h : sig.batch? = none) : sig.list? = none := by
  cases sig <;> simp_all [Signal.batch?, Signal.list?]

theorem batches_roundFailed (r : Reflector) (record : LogRecord) :
    (roundFailed (α := α) r record).2.filterMap Effect.batch? = [] := by
  unfold roundFailed nextRound
  dsimp only
  split
  next =>
    rw [if_neg (Nat.succ_ne_zero _)]
    split <;> rfl
  next => rfl

/-- A signal that is taken leads to its batch, and another one to nothing. -/
theorem batches_step (r : Reflector) (sig : Signal α) :
    (r.step sig).2.filterMap Effect.batch? =
      if r.phase.awaits sig then sig.batch?.toList else [] := by
  by_cases h : r.phase.awaits sig = true
  · rw [if_pos h]
    unfold step
    split
    case h_1 hp =>
      rw [hp] at h
      exact absurd h (by simp [Phase.awaits])
    case h_11 =>
      dsimp only
      split
      · rfl
      · exact batches_roundFailed r _
    case h_13 =>
      simp_all [Phase.awaits]
    all_goals first | rfl | exact batches_roundFailed r _
  · rw [step_of_not_awaits (Bool.eq_false_iff.mpr h), if_neg h]
    rfl

end Reflector

namespace Loop

open Reflector

/-- What a move is for the session. -/
def acts (l : Loop α) : Move α → List (Transcript.Act α)
  | .start .. => [.start]
  | .signal sig =>
    match l.reflector with
    | some r =>
      if r.phase.awaits sig then sig.batch?.toList.map fun b => .onSession (.batch b) else []
    | none => []
  | .request r => [.onSession (.request r)]
  | .proceed => [.onSession .proceed]

theorem panic_not_mem_acts (l : Loop α) (m : Move α) (n : Nat) : .panic n ∉ l.acts m := by
  unfold acts
  split
  next => simp
  next sig =>
    split
    next r _ =>
      split
      · intro hmem
        obtain ⟨b, -, hb⟩ := List.mem_map.mp hmem
        exact absurd hb (by simp)
      · exact List.not_mem_nil
    next => exact List.not_mem_nil
  next => simp
  next => simp

variable [Object α]

/-- Of the effects, those that are said do nothing to the informer, and the others begin a batch. -/
theorem carryOutAll_eq {H : Type} (resource : String) (effects : List (Effect α)) :
    ∀ inf : Informer α H, carryOutAll inf resource effects =
      (effects.filterMap Effect.batch?).foldl (fun inf b => b.begin inf) inf := by
  induction effects with
  | nil => exact fun _ => rfl
  | cons e effects ih =>
    intro inf
    refine (ih (inf.carryOut resource e).1).trans ?_
    cases e <;> rfl

theorem session_perform (l : Loop α) (m : Move α) :
    (l.perform m).session = (l.acts m).foldl Transcript.Act.onto l.session := by
  cases m with
  | start resource policy period now =>
    unfold perform acts beginRun
    dsimp only
    cases l.session.informer.start.2 <;> rfl
  | request r => rfl
  | proceed => rfl
  | signal sig =>
    unfold perform acts
    dsimp only
    cases hr : l.reflector with
    | none => rfl
    | some r =>
      dsimp only
      by_cases hrest : l.session.AtRest
      · rw [if_pos (List.isEmpty_iff.mpr hrest)]
        show Session.mk (carryOutAll l.session.informer r.resource (r.step sig).2) _ _ = _
        rw [carryOutAll_eq, batches_step]
        split
        next =>
          cases sig.batch? with
          | none => rfl
          | some b => exact (perform_batch_of_atRest hrest b).symm
        next => rfl
      · rw [if_neg fun he => hrest (List.isEmpty_iff.mp he)]
        split
        next =>
          cases sig.batch? with
          | none => rfl
          | some b => exact (perform_batch_of_not_atRest hrest b).symm
        next => rfl

/-- Nothing takes the status back. -/
theorem synced_onto {s : Session α} (h : s.informer.synced = true) (a : Transcript.Act α) :
    (a.onto s).informer.synced = true := by
  cases a with
  | start | panic => exact h
  | onSession a =>
    have hd := delivers_perform s a
    generalize s.deed? a = deed at hd
    generalize s.occasion? a = o at hd
    show (s.perform a).informer.synced = true
    cases hd with
    | rests _ hs | begins _ _ hs | calls _ _ hs | forwards _ _ hs => exact hs.trans h
    | finishes _ _ hs =>
      rw [hs, h]
      rfl

theorem synced_perform {l : Loop α} (h : l.session.informer.synced = true) (m : Move α) :
    (l.perform m).session.informer.synced = true := by
  have hacts : ∀ (acts : List (Transcript.Act α)) {s : Session α}, s.informer.synced = true →
      (acts.foldl Transcript.Act.onto s).informer.synced = true := by
    intro acts
    induction acts with
    | nil => exact id
    | cons a acts ih => exact fun hs => ih (synced_onto hs a)
  rw [session_perform]
  exact hacts _ h

theorem synced_foldl (moves : List (Move α)) : ∀ {l : Loop α}, l.session.informer.synced = true →
    (moves.foldl perform l).session.informer.synced = true := by
  induction moves with
  | nil => exact id
  | cons m moves ih => exact fun h => ih (synced_perform h m)

end Loop

/-! ## Accounts -/

theorem filterMap_concat {β γ : Type} (f : β → Option γ) (xs : List β) (x : β) :
    (xs ++ [x]).filterMap f = xs.filterMap f ++ (f x).toList := by
  rw [List.filterMap_append]
  cases hx : f x <;> simp [hx]

/-- A loop, and the transcript of its session. -/
structure Account (α : Type) where
  loop : Loop α
  transcript : Transcript α

namespace Account

open Reflector

section Run

variable [Object α]

def new : Account α := ⟨.new, .new⟩

def perform (a : Account α) (m : Loop.Move α) : Account α :=
  ⟨a.loop.perform m, a.transcript.run (a.loop.acts m)⟩

def run (moves : List (Loop.Move α)) : Account α := moves.foldl perform new

theorem loop_foldl (moves : List (Loop.Move α)) (a : Account α) :
    (moves.foldl perform a).loop = moves.foldl Loop.perform a.loop := by
  induction moves generalizing a with
  | nil => rfl
  | cons m moves ih => exact ih (a.perform m)

end Run

/-- The transcript is that of the loop, and its lists are those that the loop has taken. -/
structure Kept [Object α] (a : Account α) : Prop where
  session : a.transcript.session = a.loop.session
  calm : a.transcript.Calm
  lists : a.transcript.ledger.occasions.filterMap Occasion.list? =
    a.loop.taken.filterMap Signal.list?

section Kept

variable [Object α] {a : Account α}

theorem kept_new : (new : Account α).Kept := ⟨rfl, Transcript.calm_new, rfl⟩

/-- Only a list that is taken at rest brings a list. -/
theorem list?_occasion? (s : Session α) (act : Session.Act α) :
    (s.occasion? act).bind Occasion.list? = match act with
      | .batch (.relist items) => if s.informer.deliveries.isEmpty then some items else none
      | _ => none := by
  unfold occasion?
  cases act with
  | batch b =>
    cases hd : s.informer.deliveries.isEmpty with
    | false => cases b <;> rfl
    | true =>
      cases b with
      | relist | resync => rfl
      | change c =>
        dsimp only
        split <;> rfl
  | request r =>
    cases r with
    | addHandler a | addFanOut a => cases a <;> rfl
    | join index name =>
      dsimp only
      cases s.informer.fanOuts[index]? <;> rfl
    | removeHandler | dropFanOut | leave => rfl
  | proceed =>
    dsimp only
    split <;> rfl

/-- What is picked of all that has begun grows by what is picked of what begins. -/
theorem picked_onSession {β : Type} (pick : Occasion α → Option β) (t : Transcript α)
    (act : Session.Act α) : (t.perform (.onSession act)).ledger.occasions.filterMap pick =
      t.ledger.occasions.filterMap pick ++ ((t.session.occasion? act).bind pick).toList := by
  have hoccasions : (t.perform (.onSession act)).ledger.occasions =
      t.ledger.occasions ++ (t.session.occasion? act).toList := Ledger.occasions_note ..
  rw [hoccasions]
  cases t.session.occasion? act with
  | none =>
    show List.filterMap _ (_ ++ []) = _ ++ []
    rw [List.append_nil, List.append_nil]
  | some o => exact filterMap_concat ..

/-- A batch that is begun at rest brings its list, and no other one does. -/
theorem lists_batch (h : a.Kept) {sig : Signal α} {b : Batch α} (hb : sig.batch? = some b) :
    (a.transcript.perform (.onSession (.batch b))).ledger.occasions.filterMap Occasion.list? =
      a.loop.taken.filterMap Signal.list? ++
        if a.loop.session.informer.deliveries.isEmpty then sig.list?.toList else [] := by
  have hrest := congrArg (fun s : Session α => s.informer.deliveries) h.session
  rw [picked_onSession, h.lists, list?_occasion?, ← hrest]
  cases sig with
  | listed | changed | resyncDue =>
    obtain rfl := Option.some.inj hb
    cases a.transcript.session.informer.deliveries.isEmpty <;> rfl
  | _ => exact absurd hb (by simp [Signal.batch?])

theorem lists_signal (h : a.Kept) (sig : Signal α) :
    (a.perform (.signal sig)).transcript.ledger.occasions.filterMap Occasion.list? =
      (a.perform (.signal sig)).loop.taken.filterMap Signal.list? := by
  show (a.transcript.run (a.loop.acts (.signal sig))).ledger.occasions.filterMap _ =
    (a.loop.perform (.signal sig)).taken.filterMap _
  unfold Loop.acts Loop.perform
  dsimp only
  cases hr : a.loop.reflector with
  | none => exact h.lists
  | some r =>
    dsimp only
    by_cases hawaits : r.phase.awaits sig = true
    · rw [if_pos hawaits]
      have htaken : ∀ l : Loop α, l.taken = a.loop.taken ++ [sig] →
          l.taken.filterMap Signal.list? =
            a.loop.taken.filterMap Signal.list? ++ sig.list?.toList := by
        intro l hl
        rw [hl, filterMap_concat]
      cases hb : sig.batch? with
      | none =>
        split
        next =>
          rw [htaken _ rfl, Signal.list?_of_batch? hb]
          exact h.lists.trans (List.append_nil _).symm
        next => exact h.lists
      | some b =>
        refine (lists_batch h hb).trans ?_
        split
        next => exact (htaken _ rfl).symm
        next => exact List.append_nil _
    · rw [if_neg hawaits]
      split
      · exact h.lists
      · exact h.lists

theorem kept_perform (h : a.Kept) (m : Loop.Move α) : (a.perform m).Kept where
  session := by
    show (a.transcript.run _).session = _
    rw [Transcript.session_run, h.session]
    exact (Loop.session_perform a.loop m).symm
  calm := Transcript.calm_foldl h.calm _ fun n => Loop.panic_not_mem_acts a.loop m n
  lists := by
    cases m with
    | start resource policy period now =>
      refine h.lists.trans (congrArg (List.filterMap _) ?_)
      show _ = (a.loop.perform (.start resource policy period now)).taken
      unfold Loop.perform
      dsimp only
      split <;> rfl
    | signal sig => exact lists_signal h sig
    | request r =>
      refine (picked_onSession Occasion.list? a.transcript (.request r)).trans ?_
      rw [list?_occasion?]
      exact (List.append_nil _).trans h.lists
    | proceed =>
      refine (picked_onSession Occasion.list? a.transcript .proceed).trans ?_
      rw [list?_occasion?]
      exact (List.append_nil _).trans h.lists

theorem kept_foldl (h : a.Kept) (moves : List (Loop.Move α)) : (moves.foldl perform a).Kept := by
  induction moves generalizing a with
  | nil => exact h
  | cons m moves ih => exact ih (kept_perform h m)

end Kept

/-! ## The theorem -/

/-- What is said of an informer whose sync status is sound. -/
structure Sound [Object α] (a : Account α) : Prop where
  /-- The session of the transcript is that of the loop, and its list batches are those of the lists
  that the loop has taken. -/
  session : a.transcript.session = a.loop.session
  depth : a.transcript.ledger.underWay.length = a.loop.session.informer.deliveries.length
  lists : a.transcript.ledger.occasions.filterMap Occasion.list? =
    a.loop.taken.filterMap Signal.list?
  /-- The informer is synced if and only if the batch of the first list is over. -/
  synced_iff_first : a.loop.session.informer.synced = true ↔
    ∃ n, a.transcript.ledger.first? = some n ∧ n ∉ a.transcript.ledger.underWay
  /-- That batch is for those who were registered when it began, and when it is over they have been
  told all of it. -/
  first : ∀ n, a.transcript.ledger.first? = some n → ∃ items events audience,
    a.transcript.ledger.occasions[n]? = some (.batch (.relist items) events audience) ∧
      audience = (a.transcript.tenures.filter (·.covers n)).map Tenure.registration ∧
        (n ∉ a.transcript.ledger.underWay →
          a.transcript.ledger.made n = callsOf events (audience.map Registration.target))
  /-- The adds of that batch are initial, and those of no other batch. -/
  initial : ∀ n b events audience,
    a.transcript.ledger.occasions[n]? = some (.batch b events audience) →
      ∀ x flag, .add x flag ∈ events → (flag = true ↔ a.transcript.ledger.first? = some n)
  /-- When nothing is being delivered, everybody has been told of every stored item. -/
  told : a.loop.session.AtRest → ∀ t ∈ a.loop.session.informer.targets,
    ∀ x ∈ a.loop.session.informer.store.list, ∃ e ∈ a.loop.session.heard t, e.Tells x

section Sound

variable [Object α] {a : Account α}

theorem Kept.sound (h : a.Kept) : a.Sound where
  session := h.session
  depth := by
    rw [← h.session]
    exact h.calm.kept.ledger.length
  lists := h.lists
  synced_iff_first := by
    rw [← h.session]
    exact h.calm.latches.synced_iff
  first n hn := by
    obtain ⟨items, events, audience, ho⟩ := Ledger.list_of_first? hn
    refine ⟨items, events, audience, ho, h.calm.kept.enrolled.audience _ _ _ _ ho, fun hover => ?_⟩
    refine h.calm.kept.ledger.full n _ ho ⟨hover, ?_⟩
    rw [h.calm.cut]
    exact List.not_mem_nil
  initial := h.calm.flagged
  told hr t ht x hx := by
    rw [← h.session] at hr ht hx ⊢
    have hf := h.calm.attentive.follows t ht
    have hview := hf.current ht
    rw [told_of_atRest hr] at hview
    refine exists_tells (k := keyOf x) ?_
    rw [hview]
    exact Store.get?_of_mem_list h.calm.kept.sound hx

/-- **The sync status is sound, and a latch.**  Take a loop with any moves: it is run, its lists and
watches succeed and fail, and whatever is requested meanwhile.  The informer is synced from the end
of the first list's batch on, and not before; that batch alone has initial adds; and when nothing is
being delivered, everybody has been told of all that is stored. -/
theorem sync_latched (moves : List (Loop.Move α)) :
    (run moves).loop = Loop.run moves ∧ (run moves).Sound ∧
      ∀ more, (Loop.run moves).session.informer.synced = true →
        (Loop.run (moves ++ more)).session.informer.synced = true := by
  refine ⟨loop_foldl moves new, (kept_foldl kept_new moves).sound, fun more h => ?_⟩
  unfold Loop.run
  rw [List.foldl_append]
  exact Loop.synced_foldl more h

end Sound

end Account

end InformerHub
