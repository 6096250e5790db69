import Mathlib.Data.List.Nodup
import Mathlib.Data.List.TakeWhile
import Mathlib.Logic.Function.Basic
import InformerHub.Informer.Run
import InformerHub.Proofs.Registrations
import InformerHub.Proofs.Session
import InformerHub.Proofs.Watch

/-!
# What a factory builds and runs

A factory is asked for informers and told to start them, in any order and any number of times.
`Foundry` is such a life of a factory, with the informers that were built for it and the tasks that
run them; a task that was spawned has its first turn at any time after that.

> For each resource one informer is built, by the first call that asks for it.  It is run once, by
> the first start after that call and with the token of that start (`runs_once`).

The answer of a call depends only on whether the resource has an entry (`obtain_of_entry`,
`obtain_of_no_entry`).  `Kept` says how the entries follow from the calls that were made, and how
the tasks do: an informer that was built has one task if its entry is marked as started, and else
none.
-/

namespace InformerHub

namespace Factory

/-- A task that runs an informer until a token is cancelled. -/
structure Job where
  resource : String
  informer : Nat
  token : Nat
  deriving DecidableEq, Repr

variable {ι : Type} {f : Factory ι}

/-! ## Entries -/

theorem obtain_of_no_entry {resource : String} (h : f.entries.get? resource = none)
    (itemType : String) (fresh : ι) :
    f.obtain resource itemType fresh = (f.enter resource itemType fresh, .ok (fresh, true)) := by
  unfold Factory.obtain lookup
  rw [h]
  rfl

theorem obtain_of_entry {resource : String} {e : Entry ι} (h : f.entries.get? resource = some e)
    (itemType : String) (fresh : ι) :
    f.obtain resource itemType fresh = (f, if e.itemType = itemType then .ok (e.informer, false)
      else .error (.typeMismatch resource e.itemType)) := by
  unfold Factory.obtain lookup
  rw [h, Option.map_some]
  by_cases ht : e.itemType = itemType
  · simp only [if_pos ht]
  · simp only [if_neg ht]

theorem get?_enter (f : Factory ι) (resource itemType : String) (informer : ι) (other : String) :
    (f.enter resource itemType informer).entries.get? other =
      if other = resource then some ⟨itemType, informer, false⟩ else f.entries.get? other := by
  by_cases h : other = resource
  · rw [if_pos h, h]
    exact SortedMap.get?_insert_self ..
  · rw [if_neg h]
    exact SortedMap.get?_insert_of_ne h ..

theorem get?_start (f : Factory ι) (resource : String) :
    f.start.1.entries.get? resource =
      (f.entries.get? resource).map fun e => { e with started := true } :=
  SortedMap.get?_mapValues ..

theorem mem_unstarted {resource : String} {i : ι} :
    (resource, i) ∈ f.unstarted ↔
      ∃ e, f.entries.get? resource = some e ∧ e.started = false ∧ e.informer = i := by
  unfold unstarted
  rw [List.mem_filterMap]
  constructor
  · rintro ⟨⟨r, e⟩, he, hx⟩
    obtain ⟨hs, hx⟩ := (Option.ite_none_left_eq_some ..).mp hx
    obtain ⟨rfl, rfl⟩ := Prod.mk.inj (Option.some.inj hx)
    exact ⟨e, SortedMap.mem_entries_iff.mp he, Bool.eq_false_iff.mpr hs, rfl⟩
  · rintro ⟨e, he, hs, rfl⟩
    refine ⟨(resource, e), SortedMap.mem_entries_iff.mpr he, ?_⟩
    simp [hs]

theorem mem_syncStatus {hasSynced : ι → Bool} {resource : String} {b : Bool} :
    (resource, b) ∈ f.syncStatus hasSynced ↔
      ∃ e, f.entries.get? resource = some e ∧ e.started = true ∧ hasSynced e.informer = b := by
  unfold syncStatus
  rw [List.mem_filterMap]
  constructor
  · rintro ⟨⟨r, e⟩, he, hx⟩
    obtain ⟨hs, hx⟩ := (Option.ite_none_right_eq_some ..).mp hx
    obtain ⟨rfl, rfl⟩ := Prod.mk.inj (Option.some.inj hx)
    exact ⟨e, SortedMap.mem_entries_iff.mp he, hs, rfl⟩
  · rintro ⟨e, he, hs, rfl⟩
    exact ⟨(resource, e), SortedMap.mem_entries_iff.mpr he, if_pos hs⟩

/-- No resource is listed twice. -/
theorem nodup_unstarted (f : Factory ι) : (f.unstarted.map Prod.fst).Nodup := by
  refine f.entries.nodup_filterMap fun e x hx => ?_
  obtain ⟨-, hx⟩ := (Option.ite_none_left_eq_some ..).mp hx
  exact congrArg Prod.fst (Option.some.inj hx).symm

theorem nodup_syncStatus (f : Factory ι) (hasSynced : ι → Bool) :
    ((f.syncStatus hasSynced).map Prod.fst).Nodup := by
  refine f.entries.nodup_filterMap fun e x hx => ?_
  obtain ⟨-, hx⟩ := (Option.ite_none_right_eq_some ..).mp hx
  exact congrArg Prod.fst (Option.some.inj hx).symm

end Factory

namespace Session

open Informer

variable {α : Type}

theorem started_request {H : Type} (inf : Informer α H) (h : H) (r : Request) :
    (r.carryOut inf h).started = inf.started := by
  cases r with
  | addHandler a => cases a <;> rfl
  | removeHandler a id => cases a <;> rfl
  | addFanOut a => cases a <;> rfl
  | dropFanOut index =>
    show (inf.dropFanOut index).started = _
    unfold dropFanOut
    split <;> rfl
  | join index name =>
    unfold Request.carryOut
    dsimp only
    unfold join?
    cases inf.fanOuts[index]? <;> rfl
  | leave index key =>
    show (inf.leave index key).1.started = _
    unfold leave
    split <;> rfl

/-- Only a run marks an informer as started. -/
theorem started_perform [Object α] (s : Session α) (a : Act α) :
    (s.perform a).informer.started = s.informer.started := by
  cases a with
  | batch b =>
    by_cases h : s.AtRest
    · rw [perform_batch_of_atRest h]
      cases b with
      | relist | resync => rfl
      | change c =>
        show (s.informer.change c).1.started = _
        unfold change
        split <;> rfl
    · rw [perform_batch_of_not_atRest h]
  | request r => exact started_request ..
  | proceed =>
    unfold perform
    dsimp only
    split
    next c inf hn =>
      have hinf : inf.started = s.informer.started := by
        unfold next? at hn
        split at hn
        · obtain ⟨-, rfl⟩ := Prod.mk.inj (Option.some.inj hn)
          rfl
        · exact absurd hn (by simp)
      show (pass inf c).started = _
      unfold pass
      split <;> exact hinf
    next =>
      show s.informer.close.started = _
      unfold close
      split <;> rfl

end Session

/-- A factory, the informers that were built for it, and the tasks that run them. -/
structure Foundry (α : Nat → Type) where
  factory : Factory Nat
  /-- For each informer the resource and the type of items it was built for.  Informers are numbered
  in the order in which they were built. -/
  built : List (String × String)
  informers : (i : Nat) → Session (α i)
  /-- The tasks that were spawned and have not had their first turn. -/
  spawned : List Factory.Job
  /-- The runs that began. -/
  runs : List Factory.Job
  /-- What the runs that did not begin failed with. -/
  refused : List Error

namespace Foundry

open Session (getElem?_concat_eq_some)

inductive Act (α : Nat → Type) where
  /-- The informer of a resource is asked for, and built if there is none. -/
  | ask (resource itemType : String)
  /-- The factory starts, with a token. -/
  | start (token : Nat)
  /-- A task that was spawned has its first turn. -/
  | begin (job : Factory.Job) (now : Nat)
  /-- Anything else happens to an informer. -/
  | move (informer : Nat) (a : Session.Act (α informer))

variable {α : Nat → Type}

/-! ## What the calls amount to -/

/-- The type of items that a call asks for, if it asks for a resource. -/
def Act.type? (resource : String) : Act α → Option String
  | .ask r itemType => if r = resource then some itemType else none
  | _ => none

def Act.token? : Act α → Option Nat
  | .start token => some token
  | _ => none

/-- The type of items in the first call for a resource. -/
def firstType? (resource : String) (acts : List (Act α)) : Option String :=
  acts.findSome? (Act.type? resource)

/-- The token of the first start after the first call for a resource. -/
def firstStart? (resource : String) (acts : List (Act α)) : Option Nat :=
  (acts.dropWhile fun a => (a.type? resource).isNone).findSome? Act.token?

theorem firstType?_concat (resource : String) (acts : List (Act α)) (a : Act α) :
    firstType? resource (acts ++ [a]) = (firstType? resource acts).or (a.type? resource) := by
  unfold firstType?
  rw [List.findSome?_append, List.findSome?_singleton]

/-- A call is no start. -/
theorem token?_of_type? {resource itemType : String} {a : Act α}
    (h : a.type? resource = some itemType) : a.token? = none := by
  cases a with
  | ask => rfl
  | start | begin | move => exact absurd h (by simp [Act.type?])

/-- A start counts for the resources that were asked for before it. -/
theorem firstStart?_concat (resource : String) (acts : List (Act α)) (a : Act α) :
    firstStart? resource (acts ++ [a]) = (firstStart? resource acts).or
      (if (firstType? resource acts).isSome then a.token? else none) := by
  unfold firstStart? firstType?
  induction acts with
  | nil =>
    cases h : a.type? resource with
    | none => simp [h]
    | some itemType => simp [h, token?_of_type? h]
  | cons b acts ih =>
    cases h : b.type? resource with
    | none => simpa [h] using ih
    | some itemType => simp [h, token?_of_type? h, List.findSome?_append]

/-! ## Acts -/

/-- What a call that asks for an informer does to the factory, and its answer. -/
def answer (s : Foundry α) (resource itemType : String) :
    Factory Nat × Except Error (Nat × Bool) :=
  s.factory.obtain resource itemType s.built.length

def ask (s : Foundry α) (resource itemType : String) : Foundry α :=
  match s.answer resource itemType with
  | (factory, .ok (i, true)) =>
    { s with
      factory
      built := s.built ++ [(resource, itemType)]
      informers := Function.update s.informers i .new }
  | (factory, _) => { s with factory }

def start (s : Foundry α) (token : Nat) : Foundry α :=
  let (factory, unstarted) := s.factory.start
  { s with
    factory
    spawned := s.spawned ++ unstarted.map fun (resource, i) => ⟨resource, i, token⟩ }

def setInformer (s : Foundry α) (i : Nat) (inf : Informer (α i) Nat) : Foundry α :=
  { s with informers := Function.update s.informers i { s.informers i with informer := inf } }

def begin (s : Foundry α) (job : Factory.Job) (now : Nat) : Foundry α :=
  if job ∈ s.spawned then
    let (inf, first) := (s.informers job.informer).informer.beginRun job.resource
      s.factory.relistPolicy s.factory.resyncPeriod now
    let s := { s.setInformer job.informer inf with spawned := s.spawned.erase job }
    match first with
    | .ok _ => { s with runs := s.runs ++ [job] }
    | .error e => { s with refused := s.refused ++ [e] }
  else s

def syncStatus (s : Foundry α) : List (String × Bool) :=
  s.factory.syncStatus fun i => (s.informers i).informer.synced

section Run

variable [∀ i, Object (α i)]

def perform (s : Foundry α) : Act α → Foundry α
  | .ask resource itemType => s.ask resource itemType
  | .start token => s.start token
  | .begin job now => s.begin job now
  | .move i a => { s with informers := Function.update s.informers i ((s.informers i).perform a) }

def run (s : Foundry α) (acts : List (Act α)) : Foundry α := acts.foldl perform s

end Run

/-- A new factory. -/
def new (name : String) (settings : Settings) : Foundry α where
  factory := .new name settings
  built := []
  informers := fun _ => .new
  spawned := []
  runs := []
  refused := []

/-- The tasks of an informer, whether its run has begun or not. -/
def jobsOf (s : Foundry α) (i : Nat) : List Factory.Job :=
  (s.runs ++ s.spawned).filter fun job => job.informer = i

/-- How the entries and the tasks follow from the acts. -/
structure Kept (acts : List (Act α)) (s : Foundry α) : Prop where
  entry : ∀ r e, s.factory.entries.get? r = some e → firstType? r acts = some e.itemType ∧
    s.built[e.informer]? = some (r, e.itemType) ∧ e.started = (firstStart? r acts).isSome
  unasked : ∀ r, s.factory.entries.get? r = none → firstType? r acts = none
  built : ∀ i r t, s.built[i]? = some (r, t) →
    ∃ e, s.factory.entries.get? r = some e ∧ e.informer = i
  jobs : ∀ i r t, s.built[i]? = some (r, t) →
    (s.jobsOf i).Perm ((firstStart? r acts).toList.map fun token => ⟨r, i, token⟩)
  known : ∀ job ∈ s.runs ++ s.spawned, job.informer < s.built.length
  started : ∀ i, (s.informers i).informer.started = true ↔ ∃ job ∈ s.runs, job.informer = i
  refused : s.refused = []

section Kept

variable {acts : List (Act α)} {s : Foundry α}

theorem kept_new (name : String) (settings : Settings) :
    Kept (α := α) [] (new name settings) where
  entry r e h := absurd h (by simp [new, Factory.new])
  unasked _ _ := rfl
  built i r t h := absurd h (by simp [new])
  jobs i r t h := absurd h (by simp [new])
  known job h := absurd h (by simp [new])
  started i := by simp [new, Session.new, Informer.new]
  refused := rfl

/-- Acts that neither ask for the resource nor start the factory say nothing about it. -/
theorem Kept.of_silent (h : Kept acts s) {a : Act α}
    (htype : ∀ r, (firstType? r acts).or (a.type? r) = firstType? r acts)
    (htoken : a.token? = none) : Kept (acts ++ [a]) s := by
  have hstart : ∀ r, firstStart? r (acts ++ [a]) = firstStart? r acts := fun r => by
    rw [firstStart?_concat, htoken, ite_self, Option.or_none]
  have hfirst : ∀ r, firstType? r (acts ++ [a]) = firstType? r acts := fun r => by
    rw [firstType?_concat, htype]
  refine ⟨fun r e he => ?_, fun r hr => ?_, h.built, fun i r t hi => ?_, h.known, h.started,
    h.refused⟩
  · rw [hfirst, hstart]
    exact h.entry r e he
  · rw [hfirst]
    exact h.unasked r hr
  · rw [hstart]
    exact h.jobs i r t hi

/-! ### Asking -/

theorem ask_of_entry {r : String} {e : Factory.Entry Nat}
    (h : s.factory.entries.get? r = some e) (t : String) : s.ask r t = s := by
  unfold ask answer
  rw [Factory.obtain_of_entry h]
  by_cases ht : e.itemType = t
  · rw [if_pos ht]
  · rw [if_neg ht]

theorem ask_of_no_entry {r : String} (h : s.factory.entries.get? r = none) (t : String) :
    s.ask r t = { s with
      factory := s.factory.enter r t s.built.length
      built := s.built ++ [(r, t)]
      informers := Function.update s.informers s.built.length .new } := by
  unfold ask answer
  rw [Factory.obtain_of_no_entry h]

/-- What was not asked for has not been started. -/
theorem firstStart?_of_unasked {r : String} (h : firstType? r acts = none) :
    firstStart? r acts = none := by
  have hall : ∀ a ∈ acts, (a.type? r).isNone = true := fun a ha => by
    rw [List.findSome?_eq_none_iff.mp h a ha]
    rfl
  exact congrArg (List.findSome? Act.token?) (List.dropWhile_eq_nil_iff.mpr hall)

/-- The first call for a resource counts for that resource. -/
theorem firstType?_first_ask {r : String} (hr : firstType? r acts = none) (t r' : String) :
    firstType? r' (acts ++ [.ask r t]) = if r' = r then some t else firstType? r' acts := by
  rw [firstType?_concat]
  by_cases hrr : r' = r
  · rw [hrr, hr, if_pos rfl]
    exact if_pos rfl
  · rw [if_neg hrr, show (Act.ask (α := α) r t).type? r' = none from if_neg (Ne.symm hrr),
      Option.or_none]

theorem firstStart?_ask (r t r' : String) :
    firstStart? r' (acts ++ [.ask r t]) = firstStart? r' acts := by
  rw [firstStart?_concat, show (Act.ask (α := α) r t).token? = none from rfl, ite_self,
    Option.or_none]

theorem kept_ask_entry (h : Kept acts s) {r : String} {e : Factory.Entry Nat}
    (he : s.factory.entries.get? r = some e) (t : String) :
    Kept (acts ++ [.ask r t]) (s.ask r t) := by
  rw [ask_of_entry he]
  refine h.of_silent (fun r' => ?_) rfl
  obtain ⟨hfirst, -, -⟩ := h.entry r e he
  by_cases hr : r = r'
  · rw [← hr, hfirst]
    rfl
  · rw [show (Act.ask (α := α) r t).type? r' = none from if_neg hr, Option.or_none]

theorem kept_ask_fresh (h : Kept acts s) {r : String}
    (hr : s.factory.entries.get? r = none) (t : String) :
    Kept (acts ++ [.ask r t]) (s.ask r t) := by
  have hunasked := h.unasked r hr
  -- the number of the new informer is in no task
  have hnew : ∀ job ∈ s.runs ++ s.spawned, job.informer ≠ s.built.length := fun job hjob =>
    Nat.ne_of_lt (h.known job hjob)
  rw [ask_of_no_entry hr]
  refine ⟨fun r' e he => ?_, fun r' he => ?_, fun i r' t' hi => ?_, fun i r' t' hi => ?_,
    fun job hjob => ?_, fun i => ?_, h.refused⟩
  · rw [firstType?_first_ask hunasked, firstStart?_ask]
    rw [Factory.get?_enter] at he
    by_cases hrr : r' = r
    · rw [if_pos hrr] at he ⊢
      obtain rfl := Option.some.inj he
      rw [hrr, firstStart?_of_unasked hunasked]
      exact ⟨rfl, List.getElem?_concat_length, rfl⟩
    · rw [if_neg hrr] at he ⊢
      obtain ⟨ht, hi, hs⟩ := h.entry r' e he
      exact ⟨ht, (List.getElem?_append_left (List.getElem?_eq_some_iff.mp hi).1).trans hi, hs⟩
  · rw [firstType?_first_ask hunasked]
    rw [Factory.get?_enter] at he
    by_cases hrr : r' = r
    · exact absurd he (by rw [if_pos hrr]; simp)
    · rw [if_neg hrr] at he ⊢
      exact h.unasked r' he
  · rw [Factory.get?_enter]
    rcases getElem?_concat_eq_some.mp hi with hi | ⟨hlen, heq⟩
    · obtain ⟨e, he, hplace⟩ := h.built i r' t' hi
      have hrr : r' ≠ r := by
        rintro rfl
        exact absurd (hr.symm.trans he) (by simp)
      exact ⟨e, (if_neg hrr).trans he, hplace⟩
    · obtain ⟨rfl, rfl⟩ := Prod.mk.inj heq
      exact ⟨⟨t, s.built.length, false⟩, if_pos rfl, hlen.symm⟩
  · rw [firstStart?_ask]
    rcases getElem?_concat_eq_some.mp hi with hi | ⟨hlen, heq⟩
    · exact h.jobs i r' t' hi
    · obtain ⟨rfl, rfl⟩ := Prod.mk.inj heq
      have hnone : s.jobsOf i = [] := List.filter_eq_nil_iff.mpr fun job hjob => by
        simpa [hlen] using hnew job hjob
      rw [firstStart?_of_unasked hunasked]
      exact hnone ▸ List.Perm.nil
  · rw [List.length_append]
    exact Nat.lt_of_lt_of_le (h.known job hjob) (Nat.le_add_right ..)
  · dsimp only
    by_cases hi : i = s.built.length
    · subst hi
      rw [Function.update_self]
      refine ⟨fun hs => absurd hs Bool.false_ne_true, fun ⟨job, hjob, hi⟩ => ?_⟩
      exact absurd hi (hnew job (List.mem_append_left _ hjob))
    · rw [Function.update_of_ne hi]
      exact h.started i

theorem kept_ask (h : Kept acts s) (r t : String) : Kept (acts ++ [.ask r t]) (s.ask r t) := by
  cases hr : s.factory.entries.get? r with
  | none => exact kept_ask_fresh h hr t
  | some e => exact kept_ask_entry h hr t

/-! ### Starting -/

/-- What a start adds for an informer: a task if its entry is not marked yet. -/
theorem perm_unstarted (h : Kept acts s) {i : Nat} {r t : String}
    (hi : s.built[i]? = some (r, t)) (token : Nat) :
    ((s.factory.unstarted.map fun (r, i) => Factory.Job.mk r i token).filter
      fun job => job.informer = i).Perm
      (if (firstStart? r acts).isSome then [] else [⟨r, i, token⟩]) := by
  obtain ⟨e, he, rfl⟩ := h.built i r t hi
  obtain ⟨-, -, hstarted⟩ := h.entry r e he
  have hnodup : ((s.factory.unstarted.map fun (r, i) => Factory.Job.mk r i token).filter
      fun job => job.informer = e.informer).Nodup := by
    refine List.Nodup.filter _ (List.Nodup.of_map Factory.Job.resource ?_)
    rw [List.map_map]
    exact s.factory.nodup_unstarted
  refine (List.perm_ext_iff_of_nodup hnodup (by split <;> simp)).mpr fun job => ?_
  rw [List.mem_filter, List.mem_map, decide_eq_true_iff]
  constructor
  · rintro ⟨⟨⟨r', i⟩, hmem, rfl⟩, hi'⟩
    obtain ⟨e', he', hs, rfl⟩ := Factory.mem_unstarted.mp hmem
    -- one informer, one resource
    obtain ⟨-, hplace, -⟩ := h.entry r' e' he'
    have hrr : r' = r := by
      rw [show e'.informer = e.informer from hi', hi] at hplace
      exact (Prod.mk.inj (Option.some.inj hplace)).1.symm
    subst hrr
    obtain rfl := Option.some.inj (he.symm.trans he')
    rw [← hstarted, hs]
    exact List.mem_singleton_self _
  · intro hjob
    split at hjob
    next => exact absurd hjob List.not_mem_nil
    next hs =>
      obtain rfl := List.mem_singleton.mp hjob
      refine ⟨⟨(r, e.informer), Factory.mem_unstarted.mpr ⟨e, he, ?_, rfl⟩, rfl⟩, rfl⟩
      exact hstarted.trans (Bool.eq_false_iff.mpr hs)

theorem kept_start (h : Kept acts s) (token : Nat) :
    Kept (acts ++ [.start token]) (s.start token) := by
  have hfirst : ∀ r, firstType? r (acts ++ [.start token]) = firstType? r acts := fun r => by
    rw [firstType?_concat]
    exact Option.or_none
  have hstart : ∀ r, firstStart? r (acts ++ [.start token]) = (firstStart? r acts).or
      (if (firstType? r acts).isSome then some token else none) := fun r =>
    firstStart?_concat ..
  refine ⟨fun r e he => ?_, fun r he => ?_, fun i r t hi => ?_, fun i r t hi => ?_,
    fun job hjob => ?_, h.started, h.refused⟩
  · obtain ⟨e₀, he₀, rfl⟩ := Option.map_eq_some_iff.mp ((s.factory.get?_start r).symm.trans he)
    obtain ⟨ht, hi, -⟩ := h.entry r e₀ he₀
    rw [hfirst, hstart, ht]
    exact ⟨rfl, hi, by simp⟩
  · rw [hfirst]
    exact h.unasked r (Option.map_eq_none_iff.mp ((s.factory.get?_start r).symm.trans he))
  · obtain ⟨e, he, rfl⟩ := h.built i r t hi
    exact ⟨{ e with started := true }, (s.factory.get?_start r).trans (by rw [he]; rfl), rfl⟩
  · obtain ⟨e, he, rfl⟩ := h.built i r t hi
    obtain ⟨ht, -, -⟩ := h.entry r e he
    have hjobs : (s.start token).jobsOf e.informer = s.jobsOf e.informer ++
        (s.factory.unstarted.map fun (r, i) => Factory.Job.mk r i token).filter
          fun job => job.informer = e.informer := by
      show List.filter _ (s.runs ++ (s.spawned ++ _)) = _
      rw [← List.append_assoc, List.filter_append]
      rfl
    rw [hjobs, hstart, ht]
    refine ((h.jobs e.informer r t hi).append (perm_unstarted h hi token)).trans ?_
    cases firstStart? r acts <;> simp
  · rw [show (s.start token).spawned = s.spawned ++ _ from rfl, ← List.append_assoc] at hjob
    rcases List.mem_append.mp hjob with hjob | hjob
    · exact h.known job hjob
    · obtain ⟨⟨r, i⟩, hmem, rfl⟩ := List.mem_map.mp hjob
      obtain ⟨e, he, -, rfl⟩ := Factory.mem_unstarted.mp hmem
      obtain ⟨-, hi, -⟩ := h.entry r e he
      exact (List.getElem?_eq_some_iff.mp hi).1

/-! ### Runs -/

/-- An informer has at most one task. -/
theorem Kept.length_jobsOf (h : Kept acts s) {job : Factory.Job}
    (hjob : job ∈ s.runs ++ s.spawned) : (s.jobsOf job.informer).length ≤ 1 := by
  obtain ⟨⟨r, t⟩, hi⟩ : ∃ x, s.built[job.informer]? = some x :=
    ⟨_, List.getElem?_eq_getElem (h.known job hjob)⟩
  rw [(h.jobs _ r t hi).length_eq, List.length_map]
  cases firstStart? r acts <;> simp

/-- An informer that is to run for the first time has not been run. -/
theorem Kept.not_started (h : Kept acts s) {job : Factory.Job} (hjob : job ∈ s.spawned) :
    (s.informers job.informer).informer.started = false := by
  refine Bool.eq_false_iff.mpr fun hs => ?_
  obtain ⟨other, hother, hi⟩ := (h.started job.informer).mp hs
  have hone := h.length_jobsOf (List.mem_append_right s.runs hjob)
  rw [jobsOf, List.filter_append, List.length_append] at hone
  have hrun : 0 < (s.runs.filter fun j => j.informer = job.informer).length :=
    List.length_pos_of_mem (List.mem_filter.mpr ⟨hother, decide_eq_true hi⟩)
  have hwaits : 0 < (s.spawned.filter fun j => j.informer = job.informer).length :=
    List.length_pos_of_mem (List.mem_filter.mpr ⟨hjob, decide_eq_true rfl⟩)
  omega

theorem begin_of_spawned (h : Kept acts s) {job : Factory.Job} (hjob : job ∈ s.spawned)
    (now : Nat) : s.begin job now = { s.setInformer job.informer
        { (s.informers job.informer).informer with started := true } with
      spawned := s.spawned.erase job
      runs := s.runs ++ [job] } := by
  have hnot := h.not_started hjob
  unfold begin Informer.beginRun Informer.start
  rw [if_pos hjob]
  dsimp only
  rw [hnot]
  rfl

theorem kept_begin (h : Kept acts s) (job : Factory.Job) (now : Nat) :
    Kept (acts ++ [.begin job now]) (s.begin job now) := by
  suffices hk : Kept acts (s.begin job now) from hk.of_silent (fun _ => Option.or_none) rfl
  by_cases hjob : job ∈ s.spawned
  · rw [begin_of_spawned h hjob]
    -- the task has moved from those that wait to the runs
    have hperm : (s.runs ++ [job] ++ s.spawned.erase job).Perm (s.runs ++ s.spawned) := by
      rw [List.append_assoc]
      exact (List.perm_cons_erase hjob).symm.append_left s.runs
    refine ⟨h.entry, h.unasked, h.built, fun i r t hi => ?_, fun j hj => ?_, fun i => ?_, h.refused⟩
    · exact (hperm.filter _).trans (h.jobs i r t hi)
    · exact h.known j (hperm.mem_iff.mp hj)
    · show (Function.update s.informers job.informer _ i).informer.started = true ↔
        ∃ j ∈ s.runs ++ [job], j.informer = i
      by_cases hi : i = job.informer
      · subst hi
        rw [Function.update_self]
        exact ⟨fun _ => ⟨job, List.mem_append_right _ (List.mem_singleton_self job), rfl⟩,
          fun _ => rfl⟩
      · rw [Function.update_of_ne hi, h.started]
        simp [Ne.symm hi]
  · unfold begin
    rw [if_neg hjob]
    exact h

/-! ### What is kept -/

/-- No two informers were built for one resource. -/
theorem Kept.nodup_built (h : Kept acts s) : (s.built.map Prod.fst).Nodup := by
  refine List.nodup_iff_getElem?_ne_getElem?.mpr fun i j hij hj heq => ?_
  rw [List.length_map] at hj
  obtain ⟨⟨r, t⟩, hx⟩ : ∃ x, s.built[i]? = some x :=
    ⟨_, List.getElem?_eq_getElem (Nat.lt_trans hij hj)⟩
  obtain ⟨⟨r', t'⟩, hy⟩ : ∃ x, s.built[j]? = some x := ⟨_, List.getElem?_eq_getElem hj⟩
  rw [List.getElem?_map, List.getElem?_map, hx, hy] at heq
  obtain rfl : r = r' := Option.some.inj heq
  obtain ⟨e, he, rfl⟩ := h.built i r t hx
  obtain ⟨e', he', rfl⟩ := h.built j r t' hy
  obtain rfl := Option.some.inj (he.symm.trans he')
  exact Nat.lt_irrefl _ hij

theorem Kept.entry_of_asked (h : Kept acts s) {r t : String} (ht : firstType? r acts = some t) :
    ∃ e, s.factory.entries.get? r = some e ∧ e.itemType = t := by
  cases hr : s.factory.entries.get? r with
  | none => exact absurd ((h.unasked r hr).symm.trans ht) (by simp)
  | some e =>
    obtain ⟨htype, -, -⟩ := h.entry r e hr
    exact ⟨e, rfl, Option.some.inj (htype.symm.trans ht)⟩

theorem Kept.mem_built (h : Kept acts s) {r t : String} :
    (r, t) ∈ s.built ↔ firstType? r acts = some t := by
  constructor
  · intro hmem
    obtain ⟨i, hi⟩ := List.mem_iff_getElem?.mp hmem
    obtain ⟨e, he, rfl⟩ := h.built i r t hi
    obtain ⟨ht, hplace, -⟩ := h.entry r e he
    rw [hi] at hplace
    rw [ht, (Prod.mk.inj (Option.some.inj hplace)).2]
  · intro ht
    obtain ⟨e, he, rfl⟩ := h.entry_of_asked ht
    obtain ⟨-, hplace, -⟩ := h.entry r e he
    exact List.mem_of_getElem? hplace

theorem Kept.no_entry (h : Kept acts s) {r : String} (hr : firstType? r acts = none) :
    s.factory.entries.get? r = none := by
  refine Option.eq_none_iff_forall_ne_some.mpr fun e he => ?_
  obtain ⟨ht, -, -⟩ := h.entry r e he
  exact absurd (hr.symm.trans ht) (by simp)

/-- An informer has one task, with the token of the first start after it was asked for, or none. -/
theorem Kept.jobsOf_eq (h : Kept acts s) {i : Nat} {r t : String}
    (hi : s.built[i]? = some (r, t)) :
    s.jobsOf i = (firstStart? r acts).toList.map fun token => ⟨r, i, token⟩ := by
  have hjobs := h.jobs i r t hi
  cases hstart : firstStart? r acts with
  | none =>
    rw [hstart] at hjobs
    exact hjobs.eq_nil
  | some token =>
    rw [hstart] at hjobs
    exact hjobs.eq_singleton

theorem Kept.mem_syncStatus (h : Kept acts s) {r : String} {b : Bool} :
    (r, b) ∈ s.syncStatus ↔ ∃ i t token, s.built[i]? = some (r, t) ∧
      firstStart? r acts = some token ∧ b = (s.informers i).informer.synced := by
  unfold syncStatus
  rw [Factory.mem_syncStatus]
  constructor
  · rintro ⟨e, he, hs, rfl⟩
    obtain ⟨-, hi, hstarted⟩ := h.entry r e he
    obtain ⟨token, htoken⟩ := Option.isSome_iff_exists.mp (hstarted.symm.trans hs)
    exact ⟨e.informer, e.itemType, token, hi, htoken, rfl⟩
  · rintro ⟨i, t, token, hi, htoken, rfl⟩
    obtain ⟨e, he, rfl⟩ := h.built i r t hi
    obtain ⟨-, -, hstarted⟩ := h.entry r e he
    exact ⟨e, he, hstarted.trans (by rw [htoken]; rfl), rfl⟩

section Run

variable [∀ i, Object (α i)]

theorem kept_move (h : Kept acts s) (i : Nat) (a : Session.Act (α i)) :
    Kept (acts ++ [.move i a]) (s.perform (.move i a)) := by
  refine Kept.of_silent ?_ (fun _ => Option.or_none) rfl
  refine ⟨h.entry, h.unasked, h.built, h.jobs, h.known, fun j => ?_, h.refused⟩
  show (Function.update s.informers i _ j).informer.started = true ↔ _
  by_cases hj : j = i
  · subst hj
    rw [Function.update_self, Session.started_perform]
    exact h.started j
  · rw [Function.update_of_ne hj]
    exact h.started j

theorem kept_perform (h : Kept acts s) (a : Act α) : Kept (acts ++ [a]) (s.perform a) := by
  cases a with
  | ask r t => exact kept_ask h r t
  | start token => exact kept_start h token
  | begin job now => exact kept_begin h job now
  | move i a => exact kept_move h i a

theorem kept_run (name : String) (settings : Settings) (acts : List (Act α)) :
    Kept acts ((new name settings).run acts) := by
  induction acts using List.reverseRecOn with
  | nil => exact kept_new name settings
  | append_singleton acts a ih =>
    rw [run, List.foldl_append]
    exact kept_perform ih a

/-- What was built stays where it is. -/
theorem built_prefix_perform (s : Foundry α) (a : Act α) : s.built <+: (s.perform a).built := by
  cases a with
  | ask r t =>
    cases hr : s.factory.entries.get? r with
    | none =>
      show _ <+: (s.ask r t).built
      rw [ask_of_no_entry hr]
      exact List.prefix_append ..
    | some e =>
      show _ <+: (s.ask r t).built
      exact ⟨[], by rw [ask_of_entry hr, List.append_nil]⟩
  | start token => exact List.prefix_refl _
  | begin job now =>
    show _ <+: (s.begin job now).built
    unfold begin
    split
    · dsimp only
      split <;> exact List.prefix_refl _
    · exact List.prefix_refl _
  | move i a => exact List.prefix_refl _

theorem built_prefix_run (acts : List (Act α)) :
    ∀ s : Foundry α, s.built <+: (s.run acts).built := by
  induction acts with
  | nil => exact fun s => List.prefix_refl _
  | cons a acts ih => exact fun s => (built_prefix_perform s a).trans (ih (s.perform a))

end Run

end Kept

/-- A new factory after any acts.

* One informer was built for each resource that was asked for, and it holds items of the type in the
  first call.  It keeps its number, whatever is done next.
* A call for a resource that nobody has asked for builds one.  Any other call leaves everything as
  it is; it answers with the informer that there is, or with an error that names the type in the
  first call if it asks for another one.
* An informer has one task, which was spawned by the first start after the call that built it and
  has the token of that start.  It has none if there was no such start.  There are no tasks but
  these, and a task runs its informer as soon as it has a turn; no run was refused.
* The sync status has one entry for each informer that was started. -/
theorem runs_once [∀ i, Object (α i)] (name : String) (settings : Settings)
    (acts : List (Act α)) :
    let s := (new name settings).run acts
    (s.built.map Prod.fst).Nodup ∧
    (∀ r t, (r, t) ∈ s.built ↔ firstType? r acts = some t) ∧
    (∀ more, s.built <+: (s.run more).built) ∧
    (∀ r t, firstType? r acts = none → (s.answer r t).2 = .ok (s.built.length, true) ∧
      (s.perform (.ask r t)).built = s.built ++ [(r, t)]) ∧
    (∀ r t first, firstType? r acts = some first → s.perform (.ask r t) = s ∧
      ∃ i, s.built[i]? = some (r, first) ∧ (s.answer r t).2 =
        if t = first then .ok (i, false) else .error (.typeMismatch r first)) ∧
    (∀ i r t, s.built[i]? = some (r, t) →
      (s.runs ++ s.spawned).filter (fun job => job.informer = i) =
        (firstStart? r acts).toList.map fun token => ⟨r, i, token⟩) ∧
    (∀ job ∈ s.runs ++ s.spawned, job.informer < s.built.length) ∧
    (∀ job ∈ s.spawned, ∀ now, (s.perform (.begin job now)).runs = s.runs ++ [job] ∧
      (s.perform (.begin job now)).spawned = s.spawned.erase job) ∧
    s.refused = [] ∧
    (s.syncStatus.map Prod.fst).Nodup ∧
    ∀ r b, (r, b) ∈ s.syncStatus ↔ ∃ i t token, s.built[i]? = some (r, t) ∧
      firstStart? r acts = some token ∧ b = (s.informers i).informer.synced := by
  intro s
  have h : Kept acts s := kept_run name settings acts
  refine ⟨h.nodup_built, fun r t => h.mem_built, fun more => built_prefix_run more s,
    fun r t hr => ?_, fun r t first hr => ?_, fun i r t hi => h.jobsOf_eq hi, h.known,
    fun job hjob now => ?_, h.refused, s.factory.nodup_syncStatus _, fun r b => h.mem_syncStatus⟩
  · refine ⟨?_, congrArg Foundry.built (ask_of_no_entry (h.no_entry hr) t)⟩
    rw [answer, Factory.obtain_of_no_entry (h.no_entry hr)]
  · obtain ⟨e, he, rfl⟩ := h.entry_of_asked hr
    obtain ⟨-, hi, -⟩ := h.entry r e he
    refine ⟨ask_of_entry he t, e.informer, hi, ?_⟩
    rw [answer, Factory.obtain_of_entry he]
    simp only [eq_comm]
  · rw [show s.perform (.begin job now) = s.begin job now from rfl, begin_of_spawned h hjob]
    exact ⟨rfl, rfl⟩

end Foundry

end InformerHub
