import Mathlib.Data.List.Induction
import InformerHub.Informer.Run
import InformerHub.Proofs.Reflector
import InformerHub.Proofs.Session

/-!
# The store as a replica of the source

The list and watch loop hears of its source by signals: lists that succeed, fail or time out,
watches that open or do not, changes, streams that fail or end, resync ticks.  The plainest replica
of the source is nothing until the first list, then whatever the last list said with all changes
since then made one after the other.  However the signals come, and whatever is requested of the
informer meanwhile,

> the content of the store is the replica of what the loop has taken from its source

(`store_eq_replica`).  The induction is on the moves.  A list that is taken is stored as a whole, a
change is made, and any other signal leaves both sides alone (`replicates_of_step`).  A change finds
the replica there, since it is taken only in a phase that comes after a list; that is the second
half of the invariant `Replicates`.
-/

namespace InformerHub

open Informer

variable {α : Type}

namespace Reflector

variable [Object α]

/-! ## The replica -/

/-- What a signal makes of a replica, which is none before the first list. -/
def Signal.report (m : Option (SortedMap String α)) : Signal α → Option (SortedMap String α)
  | .listed items _ => some (Store.listed items)
  | .changed c => m.map c.applyTo
  | _ => m

/-- What there is at the source, by the signals that were taken from it. -/
def replica (taken : List (Signal α)) : SortedMap String α :=
  (taken.foldl Signal.report none).getD ∅

end Reflector

/-! ## An informer that is run -/

open Reflector

/-- An informer, the loop that runs it if it has been run, and what the loop has taken from its
source so far. -/
structure Loop (α : Type) where
  session : Session α
  reflector : Option Reflector
  taken : List (Signal α)

namespace Loop

inductive Move (α : Type) where
  /-- Runs the informer, which works once. -/
  | start (resource : String) (policy : BackoffPolicy) (period : Option Nat) (now : Nat)
  /-- Something comes from the source or the clock. -/
  | signal (sig : Signal α)
  | request (r : Session.Request)
  | proceed

/-- A run that has begun has changed nothing in the store. -/
theorem beginRun_ok {H : Type} {inf inf' : Informer α H} {resource : String}
    {policy : BackoffPolicy} {period : Option Nat} {now : Nat} {first : Reflector × List (Effect α)}
    (h : inf.beginRun resource policy period now = (inf', .ok first)) :
    inf'.store = inf.store ∧ first = Reflector.begin resource policy period now := by
  obtain ⟨rfl, hf⟩ := Prod.mk.inj h
  refine ⟨rfl, ?_⟩
  split at hf
  next => exact (Except.ok.inj hf).symm
  next => exact absurd hf (by simp)

variable [Object α]

/-- The informer after all effects of a step. -/
def carryOutAll {H : Type} (inf : Informer α H) (resource : String) (effects : List (Effect α)) :
    Informer α H :=
  effects.foldl (fun inf e => (inf.carryOut resource e).1) inf

def new : Loop α := ⟨.new, none, []⟩

/-- The loop after a move.  It is told nothing while something is being delivered, and it takes only
the signals that its phase waits for. -/
def perform (l : Loop α) : Move α → Loop α
  | .start resource policy period now =>
    match l.session.informer.beginRun resource policy period now with
    | (inf, .ok (r, effects)) =>
      { l with
        session := { l.session with informer := carryOutAll inf resource effects }
        reflector := some r }
    | (inf, .error _) => { l with session := { l.session with informer := inf } }
  | .signal sig =>
    match l.reflector with
    | some r =>
      if l.session.informer.deliveries.isEmpty then
        let (r', effects) := r.step sig
        { session :=
            { l.session with informer := carryOutAll l.session.informer r.resource effects }
          reflector := some r'
          taken := if r.phase.awaits sig then l.taken ++ [sig] else l.taken }
      else l
    | none => l
  | .request r => { l with session := l.session.perform (.request r) }
  | .proceed => { l with session := l.session.perform .proceed }

/-- The loop after some moves. -/
def run (moves : List (Move α)) : Loop α := moves.foldl perform new

/-! ## The store and the replica -/

/-- The store holds the replica, which is there once the loop is past a list. -/
structure Replicates (l : Loop α) : Prop where
  items : l.session.informer.store.items = replica l.taken
  listed : ∀ r, l.reflector = some r → r.phase.hasListed = true →
    ∃ m, l.taken.foldl Signal.report none = some m

theorem items_of_quiet {H : Type} (resource : String) {effects : List (Effect α)}
    (h : Quiet effects) (inf : Informer α H) :
    (carryOutAll inf resource effects).store.items = inf.store.items := by
  induction effects generalizing inf with
  | nil => rfl
  | cons e es ih =>
    have hstore : (inf.carryOut resource e).1.store = inf.store := by
      rcases h e (List.mem_cons_self ..) with rfl | ⟨r, rfl⟩ <;> rfl
    show (carryOutAll (inf.carryOut resource e).1 resource es).store.items = _
    rw [ih (fun e' he' => h e' (List.mem_cons_of_mem _ he')), hstore]

theorem items_relist {H : Type} (inf : Informer α H) (items : List α) :
    (inf.relist items).1.store.items = Store.listed items :=
  Store.replace_items inf.store items _

theorem items_change {H : Type} (inf : Informer α H) (c : Change α) :
    (inf.change c).1.store.items = c.applyTo inf.store.items := by
  rw [← relate_items]
  unfold change
  split
  next h => rw [h]; rfl
  next h => rw [h]

theorem replica_concat (taken : List (Signal α)) (sig : Signal α) :
    replica (taken ++ [sig]) = (sig.report (taken.foldl Signal.report none)).getD ∅ := by
  unfold replica
  rw [List.foldl_append]
  rfl

theorem replicates_start {l : Loop α} (h : l.Replicates) (resource : String)
    (policy : BackoffPolicy) (period : Option Nat) (now : Nat) :
    (l.perform (.start resource policy period now)).Replicates := by
  unfold perform
  dsimp only
  split
  next inf r effects hb =>
    obtain ⟨hstore, hbegin⟩ := beginRun_ok hb
    obtain ⟨hq, hp⟩ := begin_spec (α := α) resource policy period now
    rw [← hbegin] at hq hp
    refine ⟨?_, fun r' hr hlisted => ?_⟩
    · show (carryOutAll inf resource effects).store.items = _
      rw [items_of_quiet resource hq, hstore]
      exact h.items
    · rw [← Option.some.inj hr, hp] at hlisted
      exact (Bool.false_ne_true hlisted).elim
  next inf e hb =>
    refine ⟨?_, h.listed⟩
    show inf.store.items = _
    rw [← h.items]
    exact congrArg (fun x => x.1.store.items) hb.symm

/-- A signal that is taken does to the store what it does to the replica. -/
theorem replicates_of_step {l l' : Loop α} (h : l.Replicates) {r : Reflector} {sig : Signal α}
    (hr : l.reflector = some r) (ha : r.phase.awaits sig = true)
    (hi : l'.session.informer = carryOutAll l.session.informer r.resource (r.step sig).2)
    (hr' : l'.reflector = some (r.step sig).1) (ht : l'.taken = l.taken ++ [sig]) :
    l'.Replicates := by
  by_cases hl : ∃ items version, sig = .listed items version
  · obtain ⟨items, version, rfl⟩ := hl
    have hstep := step_listed ha
    refine ⟨?_, fun _ _ _ => ⟨Store.listed items, ?_⟩⟩
    · rw [ht, replica_concat, hi, hstep]
      exact items_relist l.session.informer items
    · rw [ht, List.foldl_append]
      rfl
  by_cases hc : ∃ c, sig = .changed c
  · obtain ⟨c, rfl⟩ := hc
    obtain ⟨hpast, hstep⟩ := step_changed ha
    -- the replica is there, since a list has been taken
    obtain ⟨m, hm⟩ := h.listed r hr hpast
    have hitems : l.session.informer.store.items = m := by
      rw [h.items, replica, hm]
      rfl
    refine ⟨?_, fun _ _ _ => ⟨c.applyTo m, ?_⟩⟩
    · rw [ht, replica_concat, hi, hstep, hm]
      exact (items_change l.session.informer c).trans (congrArg c.applyTo hitems)
    · rw [ht, List.foldl_append, hm]
      rfl
  · obtain ⟨hq, hpast⟩ := step_other r (fun items version he => hl ⟨items, version, he⟩)
      fun c he => hc ⟨c, he⟩
    have hreport : ∀ m : Option (SortedMap String α), sig.report m = m := by
      intro m
      cases sig with
      | listed items version => exact absurd ⟨items, version, rfl⟩ hl
      | changed c => exact absurd ⟨c, rfl⟩ hc
      | _ => rfl
    refine ⟨?_, fun r' hr'' hlisted => ?_⟩
    · rw [ht, replica_concat, hreport, hi, items_of_quiet r.resource hq]
      exact h.items
    · obtain rfl := Option.some.inj (hr'.symm.trans hr'')
      rw [ht, List.foldl_append]
      show ∃ m, sig.report _ = some m
      rw [hreport]
      exact h.listed r hr (hpast hlisted)

theorem replicates_signal {l : Loop α} (h : l.Replicates) (sig : Signal α) :
    (l.perform (.signal sig)).Replicates := by
  unfold perform
  dsimp only
  split
  next r hr =>
    split
    next =>
      by_cases ha : r.phase.awaits sig = true
      · exact replicates_of_step h hr ha rfl rfl (if_pos ha)
      · rw [step_of_not_awaits (Bool.eq_false_iff.mpr ha), if_neg ha]
        exact ⟨h.items, fun r' hr' => h.listed r' (hr.trans hr')⟩
    next => exact h
  next => exact h

theorem replicates_perform {l : Loop α} (h : l.Replicates) (m : Move α) :
    (l.perform m).Replicates := by
  cases m with
  | start resource policy period now => exact replicates_start h resource policy period now
  | signal sig => exact replicates_signal h sig
  | request r =>
    refine ⟨?_, h.listed⟩
    show (l.session.perform (.request r)).informer.store.items = _
    rw [Session.store_request]
    exact h.items
  | proceed =>
    refine ⟨?_, h.listed⟩
    show (l.session.perform .proceed).informer.store.items = _
    rw [Session.store_proceed]
    exact h.items

/-- **The store is a replica of the source.**  Whatever lists, watches, changes and ticks come, and
whatever is requested meanwhile, the store holds nothing before the first list that succeeds, and
after that the last list, in which the last item of a key counts, with all changes made that were
taken since. -/
theorem store_eq_replica (moves : List (Move α)) :
    (run moves).session.informer.store.items = replica (run moves).taken := by
  have h : (run moves).Replicates := by
    unfold run
    induction moves using List.reverseRecOn with
    | nil => exact ⟨rfl, fun r hr => absurd hr (by simp [new])⟩
    | append_singleton moves m ih =>
      rw [List.foldl_append]
      exact replicates_perform ih m
  exact h.items

end Loop

end InformerHub
