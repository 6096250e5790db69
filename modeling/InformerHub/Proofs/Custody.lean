import InformerHub.Proofs.Foundry
import InformerHub.Proofs.Patrol
import InformerHub.Proofs.SyncLatch

/-!
# One run of an informer

An informer may be run by any number of calls, each with a token of its own.  `Custody` is an
informer with all these calls: they come at any time, have their turns in any order, and their
tokens are cancelled at any time, from inside callbacks too.  Meanwhile the source sends whatever it
likes, handlers come and go, and callbacks may panic.

> The first call that has a turn runs the informer, and no other one ever does: it is refused, and
> nothing else happens (`Exclusive`).  Once the token of the first one is cancelled, the loop asks
> for nothing, changes nothing and begins no batch, and it ends with nothing to report (`Stops`).

A turn is one step, and a call that runs the informer has none while something is being delivered:
this is where its own batch stands, or where it waits for a replay to be over.

Whatever else there is for a loop to take, it takes the shutdown, or goes on to its next list and
takes it there (`due?_of_shutDown`).  `Untouched` says that no loop has done anything from one
state to another; it is carried along a run.
-/

namespace InformerHub

open Informer Session Reflector

variable {α : Type}

/-! ## Deliveries that run out -/

namespace Ledger

/-- What was under way has gone on, and nothing has begun but what was requested. -/
structure RunsOut (l l' : Ledger α) : Prop where
  occasions : ∃ later, l'.occasions = l.occasions ++ later ∧ ∀ o ∈ later, o.isBatch = false
  underWay : ∀ n ∈ l'.underWay, n ∈ l.underWay ∨ l.occasions.length ≤ n
  log : ∃ later, l'.log = l.log ++ later ∧
    ∀ x ∈ later, x.1 ∈ l.underWay ∨ l.occasions.length ≤ x.1

theorem runsOut_refl (l : Ledger α) : l.RunsOut l where
  occasions := ⟨[], (List.append_nil _).symm, fun _ ho => absurd ho List.not_mem_nil⟩
  underWay _ hn := Or.inl hn
  log := ⟨[], (List.append_nil _).symm, fun _ hx => absurd hx List.not_mem_nil⟩

theorem runsOut_trans {l l' l'' : Ledger α} (h : l.RunsOut l') (h' : l'.RunsOut l'') :
    l.RunsOut l'' := by
  obtain ⟨os, hos, hbatch⟩ := h.occasions
  obtain ⟨os', hos', hbatch'⟩ := h'.occasions
  obtain ⟨xs, hxs, hold⟩ := h.log
  obtain ⟨xs', hxs', hold'⟩ := h'.log
  have hlength : l.occasions.length ≤ l'.occasions.length := by
    rw [hos, List.length_append]
    exact Nat.le_add_right ..
  have hback : ∀ {n}, n ∈ l'.underWay ∨ l'.occasions.length ≤ n →
      n ∈ l.underWay ∨ l.occasions.length ≤ n := by
    rintro n (hn | hn)
    · exact h.underWay n hn
    · exact Or.inr (hlength.trans hn)
  refine ⟨⟨os ++ os', ?_, fun o ho => ?_⟩, fun n hn => hback (h'.underWay n hn),
    ⟨xs ++ xs', ?_, fun x hx => ?_⟩⟩
  · rw [hos', hos, List.append_assoc]
  · exact (List.mem_append.mp ho).elim (hbatch o) (hbatch' o)
  · rw [hxs', hxs, List.append_assoc]
  · exact (List.mem_append.mp hx).elim (hold x) fun hx => hback (hold' x hx)

theorem runsOut_call (l : Ledger α) (c : Call α Nat) : l.RunsOut (l.call c) where
  occasions := (runsOut_refl l).occasions
  underWay := (runsOut_refl l).underWay
  log := by
    refine ⟨_, rfl, fun x hx => Or.inl ?_⟩
    obtain ⟨n, hn, rfl⟩ := List.mem_map.mp (Option.toList_map .. ▸ hx)
    exact List.mem_of_mem_head? (Option.mem_toList.mp hn)

theorem runsOut_finish (l : Ledger α) : l.RunsOut l.finish where
  occasions := (runsOut_refl l).occasions
  underWay _ hn := Or.inl (List.mem_of_mem_tail hn)
  log := (runsOut_refl l).log

theorem runsOut_begin (l : Ledger α) {o : Occasion α} (ho : o.isBatch = false) :
    l.RunsOut (l.begin o) where
  occasions := ⟨[o], rfl, fun _ ho' => List.mem_singleton.mp ho' ▸ ho⟩
  underWay _ hn := (List.mem_cons.mp hn).symm.imp_right fun hn => hn.symm.le
  log := (runsOut_refl l).log

theorem runsOut_note (l : Ledger α) (deed : Option (Deed α)) {o : Option (Occasion α)}
    (ho : ∀ o' ∈ o, o'.isBatch = false) : l.RunsOut (l.note deed o) := by
  have hdeed : l.RunsOut (l.note deed none) :=
    match deed with
    | some (.call c) => runsOut_call l c
    | some .finish => runsOut_finish l
    | none => runsOut_refl l
  cases o with
  | none => exact hdeed
  | some o => exact runsOut_trans hdeed (runsOut_begin _ (ho o rfl))

theorem runsOut_abandon (l : Ledger α) (n : Nat) : l.RunsOut (l.abandon n) where
  occasions := (runsOut_refl l).occasions
  underWay _ hn := Or.inl (List.mem_of_mem_drop hn)
  log := (runsOut_refl l).log

/-- Of the deliveries that are under way at most one is a batch. -/
theorem Kept.batch_unique {l : Ledger α} {ds : List (Delivery α Nat)} (h : l.Kept ds) {m n : Nat}
    (hm : m ∈ l.underWay) (hn : n ∈ l.underWay) {o o' : Occasion α}
    (ho : l.occasions[m]? = some o) (ho' : l.occasions[n]? = some o') (hb : o.isBatch = true)
    (hb' : o'.isBatch = true) : m = n :=
  Nat.le_antisymm (h.floor m o ho hb n hn) (h.floor n o' ho' hb' m hm)

end Ledger

/-- Only a batch begins one. -/
theorem Session.isBatch_occasion? [Object α] (s : Session α) {a : Session.Act α}
    (ha : ∀ b, a ≠ .batch b) : ∀ o ∈ s.occasion? a, o.isBatch = false := by
  intro o ho
  unfold occasion? at ho
  cases a with
  | batch b => exact absurd rfl (ha b)
  | request r =>
    cases r with
    | join index name =>
      obtain ⟨f, -, rfl⟩ := Option.map_eq_some_iff.mp ho
      rfl
    | _ =>
      obtain ⟨u, -, rfl⟩ := Option.map_eq_some_iff.mp ho
      rfl
  | proceed =>
    dsimp only at ho
    split at ho
    next => exact Option.some.inj ho ▸ rfl
    next => exact absurd ho (by simp)

/-! ## A loop that is shut down -/

/-- What a source is asked for. -/
inductive Query where
  | list
  | watch (version : String)
  deriving DecidableEq, Repr

/-- Once the shutdown has come, a loop is due to take it, whatever else there is; only the end of a
pause may be taken before it. -/
theorem Reflector.due?_of_shutDown {r : Reflector} (h : ∀ o, r.phase ≠ .ended o) (now : Nat)
    (first timeUp arrived : Bool) :
    r.due? (α := α) now true first timeUp arrived = some (.own .shutdown) ∨
      (∃ delay, r.phase = .backingOff delay) ∧
        r.due? (α := α) now true first timeUp arrived = some (.own .backoffOver) := by
  unfold Reflector.due?
  cases hp : r.phase with
  | backingOff delay =>
    dsimp only
    split
    next => exact Or.inr ⟨⟨delay, rfl⟩, rfl⟩
    next => exact Or.inl rfl
  | listing | opening | watching => exact Or.inl rfl
  | ended o => exact absurd hp (h o)

namespace Patrol

/-- What a loop asks its source for in a turn. -/
def query? (p : Patrol α) (now : Nat) (shutDown shutDownFirst : Bool) : Option Query :=
  if (p.due? now shutDown shutDownFirst).isNone && !p.asked then
    match p.phase with
    | .listing => some .list
    | .opening version => some (.watch version)
    | _ => none
  else none

/-- How the loop has ended, if it has. -/
def outcome? (p : Patrol α) : Option Outcome :=
  match p.phase with
  | .ended o => some o
  | _ => none

/-- A callback panics that the loop has called. -/
def crash (p : Patrol α) (text : String) : Patrol α :=
  match p.phase with
  | .ended _ => p
  | _ => { p with course.reflector.phase := .ended (.panicked text) }

variable {p : Patrol α}

theorem outcome?_eq_some {o : Outcome} : p.outcome? = some o ↔ p.phase = .ended o := by
  unfold outcome?
  cases p.phase <;> simp

/-- What a turn does to a loop that is shut down: it ends it, or takes it from a pause to its next
list, or finds it at its end.  Nothing is asked, and no batch is to be begun. -/
structure Halts (p : Patrol α) (now : Nat) (first : Bool) : Prop where
  phase : (∃ o, p.phase = .ended o ∧ (p.turn now true first).1.phase = .ended o) ∨
    (p.turn now true first).1.phase = .ended .finished ∨
      (∃ delay, p.phase = .backingOff delay) ∧ (p.turn now true first).1.phase = .listing
  silent : (p.turn now true first).2.filterMap Effect.batch? = []
  asks : p.query? now true first = none

theorem halts_of_ended {o : Outcome} (h : p.phase = .ended o) (now : Nat) (first : Bool) :
    p.Halts now first := by
  have hd : p.due? now true first = none := by
    unfold Patrol.due? Reflector.due?
    rw [show p.reflector.phase = .ended o from h]
  have hturn : p.turn now true first = (p, []) := by
    rw [turn_of_none hd, ask_of_ended h, ite_self]
  refine ⟨Or.inl ⟨o, h, ?_⟩, ?_, ?_⟩
  · rw [hturn]
    exact h
  · rw [hturn]
    rfl
  · unfold query?
    rw [h]
    exact ite_self _

/-- A loop that is shut down takes a signal that leads to no batch. -/
theorem halts_of_due {now : Nat} {first : Bool} {sig : Signal α}
    (hd : p.due? now true first = some (.own sig)) (hb : sig.batch? = none)
    (hphase : (p.reflector.step sig).1.phase = .ended .finished ∨
      (∃ delay, p.phase = .backingOff delay) ∧ (p.reflector.step sig).1.phase = .listing) :
    p.Halts now first := by
  have ha : p.phase.awaits sig = true := awaits_of_due (due_of_due? hd)
  have hafter : (p.turn now true first).1.phase = (p.reflector.step sig).1.phase := by
    rw [turn_of_due hd]
    exact congrArg Reflector.phase (reflector_hear now p.inbox ha)
  refine ⟨Or.inr (hafter ▸ hphase), ?_, ?_⟩
  · rw [turn_of_due hd]
    show (p.reflector.step sig).2.filterMap Effect.batch? = []
    rw [batches_step, hb]
    exact ite_self _
  · unfold query?
    rw [hd]
    rfl

theorem halts (p : Patrol α) (now : Nat) (first : Bool) : p.Halts now first := by
  by_cases hended : ∃ o, p.phase = .ended o
  · obtain ⟨o, ho⟩ := hended
    exact halts_of_ended ho now first
  · have hnot : ∀ o, p.phase ≠ .ended o := fun o ho => hended ⟨o, ho⟩
    rcases due?_of_shutDown hnot now first (p.alarm.any fun a => a ≤ now) (!p.inbox.isEmpty) with
      hd | ⟨⟨delay, hp⟩, hd⟩
    · refine halts_of_due hd rfl (Or.inl ?_)
      unfold Reflector.step
      split
      next hp => exact absurd hp (hnot _)
      all_goals first | rfl | contradiction
    · refine halts_of_due hd rfl (Or.inr ⟨⟨delay, hp⟩, ?_⟩)
      simp only [Reflector.step, hp]

theorem phase_crash (p : Patrol α) (text : String) :
    (∃ o, p.phase = .ended o ∧ p.crash text = p) ∨
      (p.crash text).phase = .ended (.panicked text) := by
  unfold crash
  split
  next o ho => exact Or.inl ⟨o, ho, rfl⟩
  next => exact Or.inr rfl

theorem phase_arrive (p : Patrol α) (news : News α) : (p.arrive news).phase = p.phase := by
  unfold arrive
  split <;> rfl

end Patrol

/-! ## Calls -/

/-- What an informer is run with. -/
structure Terms where
  resource : String
  policy : BackoffPolicy
  /-- How often everything is told again, in nanoseconds, if ever. -/
  period : Option Nat

/-- Where a call that runs an informer stands. -/
inductive Standing (α : Type) where
  /-- It has had no turn yet. -/
  | waiting
  | refused (e : Error)
  | running (p : Patrol α)

/-- A call that begins to run an informer. -/
def Standing.begun (terms : Terms) (now : Nat) : Standing α :=
  .running (.ofReflector (Reflector.begin (α := α) terms.resource terms.policy terms.period now).1)

/-- A call that runs an informer until its token is cancelled. -/
structure RunCall (α : Type) where
  cancelled : Bool
  standing : Standing α

namespace RunCall

/-- What the call has returned, if it has. -/
def outcome? (call : RunCall α) : Option Outcome :=
  match call.standing with
  | .waiting => none
  | .refused e => some (.failed e)
  | .running p => p.outcome?

/-- Whether the call runs the informer or is refused, which its first turn decides. -/
def answer? (call : RunCall α) : Option (Except Error Unit) :=
  match call.standing with
  | .waiting => none
  | .refused e => some (.error e)
  | .running _ => some (.ok ())

/-- The loop of the call goes on as another one, if it has a loop. -/
def mapPatrol (f : Patrol α → Patrol α) (call : RunCall α) : RunCall α :=
  match call.standing with
  | .running p => { call with standing := .running (f p) }
  | _ => call

theorem answer?_mapPatrol (f : Patrol α → Patrol α) (call : RunCall α) :
    (call.mapPatrol f).answer? = call.answer? := by
  unfold mapPatrol
  split
  next p hp =>
    unfold answer?
    rw [hp]
  next => rfl

theorem answer?_of_waiting {call : RunCall α} (h : call.standing = .waiting) :
    call.answer? = none := by
  unfold answer?
  rw [h]

theorem answer?_of_running {call : RunCall α} {p : Patrol α} (h : call.standing = .running p) :
    call.answer? = some (.ok ()) := by
  unfold answer?
  rw [h]

theorem getElem?_set_of_some {calls : List (RunCall α)} {k : Nat} {call : RunCall α}
    (hk : calls[k]? = some call) (call' : RunCall α) : (calls.set k call')[k]? = some call' := by
  rw [List.getElem?_set_self', hk]
  rfl

theorem answers_modify (calls : List (RunCall α)) (k : Nat) {f : RunCall α → RunCall α}
    (hf : ∀ call, (f call).answer? = call.answer?) :
    (calls.modify k f).map RunCall.answer? = calls.map RunCall.answer? := by
  refine List.ext_getElem? fun j => ?_
  rw [List.getElem?_map, List.getElem?_map, List.getElem?_modify]
  cases calls[j]? with
  | none => rfl
  | some call =>
    show some (RunCall.answer? (if k = j then f call else call)) = _
    split
    next => exact congrArg some (hf call)
    next => rfl

theorem answers_set {calls : List (RunCall α)} {k : Nat} {call call' : RunCall α}
    (hk : calls[k]? = some call) (h : call'.answer? = call.answer?) :
    (calls.set k call').map RunCall.answer? = calls.map RunCall.answer? := by
  refine List.ext_getElem? fun j => ?_
  rw [List.getElem?_map, List.getElem?_map, List.getElem?_set]
  split
  next hj =>
    subst hj
    rw [hk, if_pos (List.getElem?_eq_some_iff.mp hk).1]
    exact congrArg some h
  next => rfl

end RunCall

/-- An informer, and the calls that run it. -/
structure Custody (α : Type) where
  transcript : Transcript α
  /-- In nanoseconds. -/
  now : Nat
  calls : List (RunCall α)
  /-- The call that had the first turn of all. -/
  first : Option Nat
  /-- What the source was asked for, and by which call. -/
  asked : List (Nat × Query)

namespace Custody

inductive Act (α : Type) where
  /-- One more call comes, with a token of its own. -/
  | call
  /-- The token of a call is cancelled. -/
  | cancel (k : Nat)
  /-- A call has a turn.  If a pause is over and the token is cancelled, it may look at either of
  them first. -/
  | turn (k : Nat) (shutDownFirst : Bool)
  /-- The source sends something to a call. -/
  | arrive (k : Nat) (news : News α)
  | pass (time : Nat)
  | request (r : Request)
  /-- Makes the next call of a delivery, or ends it. -/
  | proceed
  /-- A callback panics.  What it is called from ends, up to where the panic is caught. -/
  | panic (n : Nat) (text : String)

/-- The batch that is being delivered is the outermost delivery, and the loop is in it. -/
def reporting (c : Custody α) : Bool :=
  c.transcript.ledger.underWay.getLast?.any fun n =>
    c.transcript.ledger.occasions[n]?.any Occasion.isBatch

/-- What a call has returned, if it has. -/
def outcome? (c : Custody α) (k : Nat) : Option Outcome := c.calls[k]?.bind RunCall.outcome?

theorem outcome?_of_running {c : Custody α} {k : Nat} {p : Patrol α}
    (hk : c.calls[k]? = some ⟨true, .running p⟩) :
    c.outcome? k = p.outcome? :=
  congrArg (·.bind RunCall.outcome?) hk

/-- An informer that was not run yet. -/
def new (now : Nat) : Custody α := ⟨.new, now, [], none, []⟩

section Perform

variable [Object α]

/-- The first turn of a call. -/
def enter (terms : Terms) (c : Custody α) (k : Nat) (call : RunCall α) : Custody α :=
  { c with
    transcript := c.transcript.perform .start
    calls := c.calls.set k { call with
      standing :=
        match (c.transcript.session.informer.beginRun terms.resource terms.policy terms.period
          c.now).2 with
        | .ok (r, _) => .running (.ofReflector r)
        | .error e => .refused e }
    first := c.first.or (some k) }

/-- A turn of a call that runs the informer. -/
def go (c : Custody α) (k : Nat) (call : RunCall α) (p : Patrol α) (shutDownFirst : Bool) :
    Custody α :=
  let next := p.turn c.now call.cancelled shutDownFirst
  { c with
    transcript :=
      c.transcript.run ((next.2.filterMap Effect.batch?).map fun b => .onSession (.batch b))
    calls := c.calls.set k { call with standing := .running next.1 }
    asked := c.asked ++ (p.query? c.now call.cancelled shutDownFirst).toList.map fun q => (k, q) }

def perform (terms : Terms) (c : Custody α) : Act α → Custody α
  | .call => { c with calls := c.calls ++ [⟨false, .waiting⟩] }
  | .cancel k => { c with calls := c.calls.modify k fun call => { call with cancelled := true } }
  | .turn k shutDownFirst =>
    match c.calls[k]? with
    | some call =>
      match call.standing with
      | .waiting => c.enter terms k call
      | .refused _ => c
      | .running p =>
        if c.transcript.session.informer.deliveries.isEmpty then c.go k call p shutDownFirst else c
    | none => c
  | .arrive k news => { c with calls := c.calls.modify k (.mapPatrol fun p => p.arrive news) }
  | .pass time => { c with now := c.now + time }
  | .request r => { c with transcript := c.transcript.perform (.onSession (.request r)) }
  | .proceed => { c with transcript := c.transcript.perform (.onSession .proceed) }
  | .panic n text =>
    { c with
      transcript := c.transcript.perform (.panic n)
      calls := if c.reporting && c.transcript.ledger.underWay.length ≤ n then
        c.calls.map (.mapPatrol fun p => p.crash text) else c.calls }

/-- The custody after some acts. -/
def after (terms : Terms) (c : Custody α) (acts : List (Act α)) : Custody α :=
  acts.foldl (perform terms) c

/-- An informer that is run by some calls, from its beginning on. -/
def run (terms : Terms) (now : Nat) (acts : List (Act α)) : Custody α := (new now).after terms acts

end Perform

/-! ## Nothing is done -/

/-- No loop has done anything: nothing was asked of the source, the store is the same, and all that
is told was being told already or was requested. -/
structure Untouched (c c' : Custody α) : Prop where
  asked : c'.asked = c.asked
  store : c'.transcript.session.informer.store = c.transcript.session.informer.store
  ledger : c.transcript.ledger.RunsOut c'.transcript.ledger

theorem untouched_trans {c c' c'' : Custody α} (h : Untouched c c') (h' : Untouched c' c'') :
    Untouched c c'' :=
  ⟨h'.asked.trans h.asked, h'.store.trans h.store, Ledger.runsOut_trans h.ledger h'.ledger⟩

/-- What does not touch the transcript does nothing. -/
theorem untouched_of_same {c c' : Custody α} (hasked : c'.asked = c.asked)
    (ht : c'.transcript = c.transcript) : Untouched c c' :=
  ⟨hasked, by rw [ht], ht ▸ Ledger.runsOut_refl _⟩

theorem untouched_refl (c : Custody α) : Untouched c c := untouched_of_same rfl rfl

section Step

variable [Object α] {terms : Terms} {c : Custody α}

theorem untouched_onSession {c' : Custody α} {a : Session.Act α} (ha : ∀ b, a ≠ .batch b)
    (hasked : c'.asked = c.asked) (ht : c'.transcript = c.transcript.perform (.onSession a)) :
    Untouched c c' := by
  refine ⟨hasked, ?_, ?_⟩
  · rw [ht]
    show (c.transcript.session.perform a).informer.store = _
    cases a with
    | batch b => exact absurd rfl (ha b)
    | request r => exact store_request ..
    | proceed => exact store_proceed ..
  · rw [ht]
    exact Ledger.runsOut_note _ _ (isBatch_occasion? _ ha)

theorem untouched_enter (k : Nat) (call : RunCall α) : Untouched c (c.enter terms k call) :=
  ⟨rfl, rfl, Ledger.runsOut_refl _⟩

/-- Whatever happens, no loop has done anything unless a call that runs the informer has a turn. -/
theorem untouched_perform (terms : Terms) (c : Custody α) (a : Act α) :
    Untouched c (c.perform terms a) ∨
    ∃ k f call p, a = .turn k f ∧ c.calls[k]? = some call ∧ call.standing = .running p ∧
      c.transcript.session.AtRest ∧ c.perform terms a = c.go k call p f := by
  cases a with
  | call | cancel | arrive | pass => exact Or.inl (untouched_of_same rfl rfl)
  | request | proceed => exact Or.inl (untouched_onSession (by simp) rfl rfl)
  | panic n text => exact Or.inl ⟨rfl, rfl, Ledger.runsOut_abandon _ n⟩
  | turn k f =>
    unfold perform
    dsimp only
    cases hk : c.calls[k]? with
    | none => exact Or.inl (untouched_refl c)
    | some call =>
      dsimp only
      cases hs : call.standing with
      | waiting => exact Or.inl (untouched_enter k call)
      | refused e => exact Or.inl (untouched_refl c)
      | running p =>
        dsimp only
        split
        next hr =>
          exact Or.inr ⟨k, f, call, p, rfl, hk, hs, List.isEmpty_iff.mp hr, rfl⟩
        next => exact Or.inl (untouched_refl c)

/-! ## Who runs the informer -/

/-- What the calls were answered. -/
def answers (c : Custody α) : List (Option (Except Error Unit)) := c.calls.map RunCall.answer?

/-- The first call that has had a turn runs the informer, and all others that have had one are
refused. -/
structure Kept (terms : Terms) (c : Custody α) : Prop where
  transcript : c.transcript.Kept
  started : c.transcript.session.informer.started = c.first.isSome
  first : ∀ k, c.first = some k → c.answers[k]? = some (some (.ok ()))
  others : ∀ k answer, c.first ≠ some k → c.answers[k]? = some answer →
    answer = none ∨ c.first ≠ none ∧ answer = some (.error (.alreadyStarted terms.resource))
  asked : ∀ x ∈ c.asked, c.first = some x.1

theorem kept_new (now : Nat) : (new now : Custody α).Kept terms where
  transcript := Transcript.kept_new
  started := rfl
  first k hk := absurd hk (by simp [new])
  others k answer _ hk := absurd hk (by simp [new, answers])
  asked x hx := absurd hx List.not_mem_nil

theorem started_onSession (t : Transcript α) (a : Session.Act α) :
    (t.perform (.onSession a)).session.informer.started = t.session.informer.started :=
  started_perform t.session a

theorem started_run (bs : List (Batch α)) : ∀ t : Transcript α,
    (t.run (bs.map fun b => .onSession (.batch b))).session.informer.started =
      t.session.informer.started := by
  induction bs with
  | nil => exact fun _ => rfl
  | cons b bs ih => exact fun t => (ih _).trans (started_onSession t (.batch b))

theorem first_of_running (h : c.Kept terms) {k : Nat} {call : RunCall α} {p : Patrol α}
    (hk : c.calls[k]? = some call) (hs : call.standing = .running p) : c.first = some k := by
  by_contra hne
  have hanswer : c.answers[k]? = some (some (.ok ())) := by
    unfold answers
    rw [List.getElem?_map, hk]
    exact congrArg some (RunCall.answer?_of_running hs)
  rcases h.others k _ hne hanswer with he | ⟨-, he⟩
  · exact absurd he (by simp)
  · exact absurd he (by simp)

/-- As long as no call is answered, nothing changes who runs the informer. -/
theorem Kept.goes_on (h : c.Kept terms) {c' : Custody α} (ht : c'.transcript.Kept)
    (hstarted : c'.transcript.session.informer.started = c.transcript.session.informer.started)
    (hfirst : c'.first = c.first) (hanswers : c'.answers = c.answers)
    (hasked : ∀ x ∈ c'.asked, c.first = some x.1) : c'.Kept terms where
  transcript := ht
  started := by rw [hstarted, h.started, hfirst]
  first := by
    rw [hfirst, hanswers]
    exact h.first
  others := by
    rw [hfirst, hanswers]
    exact h.others
  asked := by
    rw [hfirst]
    exact hasked

/-- The first turn of a call, if there was none of any other call. -/
theorem enter_of_first (h : c.Kept terms) (hfirst : c.first = none) (k : Nat) (call : RunCall α) :
    c.enter terms k call = { c with
      transcript := c.transcript.perform .start
      calls := c.calls.set k { call with standing := .begun terms c.now }
      first := some k } := by
  have hstarted : c.transcript.session.informer.started = false := by
    rw [h.started, hfirst]
    rfl
  unfold enter beginRun Informer.start
  simp only [hstarted, hfirst]
  rfl

/-- The first turn of a call, if another one has had one before. -/
theorem enter_of_later (h : c.Kept terms) {j : Nat} (hfirst : c.first = some j) (k : Nat)
    (call : RunCall α) : c.enter terms k call = { c with
      calls := c.calls.set k
        { call with standing := .refused (.alreadyStarted terms.resource) } } := by
  have hstarted : c.transcript.session.informer.started = true := by
    rw [h.started, hfirst]
    rfl
  have hsame : c.transcript.perform .start = c.transcript := by
    obtain ⟨⟨⟨⟨s, rs, n, started, synced, fs, ds⟩, a, cs⟩, l, ts⟩, t, calls, f, q⟩ := c
    obtain rfl : started = true := hstarted
    rfl
  unfold enter beginRun Informer.start
  simp only [hstarted, hfirst, hsame]
  rfl

theorem kept_enter (h : c.Kept terms) {k : Nat} {call : RunCall α} (hk : c.calls[k]? = some call)
    (hw : call.standing = .waiting) : (c.enter terms k call).Kept terms := by
  have hlt : k < c.answers.length := by
    unfold answers
    rw [List.length_map]
    exact (List.getElem?_eq_some_iff.mp hk).1
  -- the other calls are answered as before
  have hset : ∀ (call' : RunCall α) (j : Nat),
      ((c.calls.set k call').map RunCall.answer?)[j]? =
        if k = j then some call'.answer? else c.answers[j]? := by
    intro call' j
    rw [List.map_set, List.getElem?_set]
    split
    next => exact if_pos (by simpa [answers] using hlt)
    next => rfl
  cases hfirst : c.first with
  | none =>
    rw [enter_of_first h hfirst]
    refine ⟨Transcript.kept_perform h.transcript .start, rfl, fun j hj => ?_,
      fun j answer hj ha => ?_, fun x hx => ?_⟩
    · obtain rfl := Option.some.inj hj
      exact (hset _ k).trans (if_pos rfl)
    · have ha := (hset _ j).symm.trans ha
      rw [if_neg fun he => hj (congrArg some he)] at ha
      exact Or.inl ((h.others j answer (by simp [hfirst]) ha).resolve_right fun he => he.1 hfirst)
    · exact absurd (hfirst.symm.trans (h.asked x hx)) (by simp)
  | some i =>
    rw [enter_of_later h hfirst]
    have hne : i ≠ k := by
      rintro rfl
      have hanswer := h.first i hfirst
      unfold answers at hanswer
      rw [List.getElem?_map, hk] at hanswer
      exact absurd ((RunCall.answer?_of_waiting hw).symm.trans (Option.some.inj hanswer)) (by simp)
    refine ⟨h.transcript, h.started, fun j hj => ?_, fun j answer hj ha => ?_, h.asked⟩
    · obtain rfl := Option.some.inj (hfirst.symm.trans hj)
      exact (hset _ i).trans ((if_neg hne.symm).trans (h.first i hfirst))
    · have ha := (hset _ j).symm.trans ha
      split at ha
      next =>
        exact Or.inr ⟨by simp [hfirst], (Option.some.inj ha).symm⟩
      next => exact h.others j answer hj ha

theorem kept_go (h : c.Kept terms) {k : Nat} {call : RunCall α} {p : Patrol α}
    (hk : c.calls[k]? = some call) (hs : call.standing = .running p) (f : Bool) :
    (c.go k call p f).Kept terms := by
  have hanswer : ∀ p' : Patrol α,
      RunCall.answer? { call with standing := .running p' } = call.answer? :=
    fun p' => (RunCall.answer?_of_running hs).symm
  refine h.goes_on (Transcript.kept_foldl h.transcript _) (started_run _ _) rfl
    (RunCall.answers_set hk (hanswer _)) fun x hx => ?_
  rcases List.mem_append.mp hx with hx | hx
  · exact h.asked x hx
  · obtain ⟨q, -, rfl⟩ := List.mem_map.mp hx
    exact first_of_running h hk hs

theorem kept_perform (h : c.Kept terms) (a : Act α) : (c.perform terms a).Kept terms := by
  cases a with
  | call =>
    refine ⟨h.transcript, h.started, fun k hk => ?_, fun k answer hk ha => ?_, h.asked⟩
    · show (List.map _ (c.calls ++ _))[k]? = _
      rw [List.map_append, List.getElem?_append_left]
      · exact h.first k hk
      · exact (List.getElem?_eq_some_iff.mp (h.first k hk)).1
    · have ha : (List.map RunCall.answer? (c.calls ++ [⟨false, .waiting⟩]))[k]? = some answer := ha
      rw [List.map_append, List.getElem?_append] at ha
      split at ha
      next => exact h.others k answer hk ha
      next =>
        refine Or.inl ?_
        have hmem := List.mem_of_getElem? ha
        exact List.mem_singleton.mp hmem
  | cancel k =>
    exact h.goes_on h.transcript rfl rfl (RunCall.answers_modify _ _ fun _ => rfl) h.asked
  | arrive k news =>
    exact h.goes_on h.transcript rfl rfl
      (RunCall.answers_modify _ _ (RunCall.answer?_mapPatrol _)) h.asked
  | pass time => exact h.goes_on h.transcript rfl rfl rfl h.asked
  | request r =>
    exact h.goes_on (Transcript.kept_perform h.transcript (.onSession (.request r)))
      (started_onSession ..) rfl rfl h.asked
  | proceed =>
    exact h.goes_on (Transcript.kept_perform h.transcript (.onSession .proceed))
      (started_onSession ..) rfl rfl h.asked
  | panic n text =>
    refine h.goes_on (Transcript.kept_perform h.transcript (.panic n)) rfl rfl ?_ h.asked
    show List.map _ (if _ then _ else _) = _
    split
    next =>
      rw [List.map_map]
      exact List.map_congr_left fun call _ => RunCall.answer?_mapPatrol _ call
    next => rfl
  | turn k f =>
    unfold perform
    dsimp only
    cases hk : c.calls[k]? with
    | none => exact h
    | some call =>
      dsimp only
      cases hs : call.standing with
      | waiting => exact kept_enter h hk hs
      | refused e => exact h
      | running p =>
        dsimp only
        split
        next => exact kept_go h hk hs f
        next => exact h

end Step

/-! ## A token that is cancelled -/

/-- The call that runs the informer is cancelled, and has not ended but in one of some ways. -/
def Stopping (ends : Outcome → Prop) (k : Nat) (c : Custody α) : Prop :=
  ∃ p, c.calls[k]? = some ⟨true, .running p⟩ ∧ ∀ o, p.phase = .ended o → ends o

theorem outcome?_of_stopping {ends : Outcome → Prop} {k : Nat} {c : Custody α}
    (hs : Stopping ends k c) {o : Outcome} (ho : c.outcome? k = some o) : ends o := by
  obtain ⟨p, hk, hends⟩ := hs
  rw [outcome?_of_running hk] at ho
  exact hends o (Patrol.outcome?_eq_some.mp ho)

section Cancelled

variable [Object α] {terms : Terms} {c : Custody α}

/-- A turn of a call that is cancelled concerns nothing but its loop. -/
theorem go_of_cancelled (c : Custody α) (k : Nat) (p : Patrol α) (f : Bool) :
    c.go k ⟨true, .running p⟩ p f =
      { c with calls := c.calls.set k ⟨true, .running (p.turn c.now true f).1⟩ } := by
  have hhalts := p.halts c.now f
  unfold go
  dsimp only
  rw [hhalts.silent, hhalts.asks]
  show Custody.mk c.transcript c.now _ c.first (c.asked ++ []) = _
  rw [List.append_nil]

variable {ends : Outcome → Prop} {k : Nat}

theorem stopping_go (hfinished : ends .finished) {p : Patrol α}
    (hk : c.calls[k]? = some ⟨true, .running p⟩) (hends : ∀ o, p.phase = .ended o → ends o)
    (f : Bool) : Stopping ends k (c.go k ⟨true, .running p⟩ p f) := by
  rw [go_of_cancelled]
  refine ⟨(p.turn c.now true f).1, RunCall.getElem?_set_of_some hk _, fun o ho => ?_⟩
  rcases (p.halts c.now f).phase with ⟨o', hp, hafter⟩ | hafter | ⟨-, hafter⟩
  · exact Phase.ended.inj (hafter.symm.trans ho) ▸ hends o' hp
  · exact Phase.ended.inj (hafter.symm.trans ho) ▸ hfinished
  · exact absurd (hafter.symm.trans ho) (by simp)

/-- A call that is cancelled remains so, and ends by the shutdown or by a panic. -/
theorem stopping_perform (hfinished : ends .finished) {a : Act α}
    (hpanic : ∀ n text, a = .panic n text → ends (.panicked text)) (h : Stopping ends k c) :
    Stopping ends k (c.perform terms a) := by
  obtain ⟨p, hk, hends⟩ := h
  cases a with
  | call =>
    refine ⟨p, ?_, hends⟩
    show (c.calls ++ _)[k]? = _
    rw [List.getElem?_append_left (List.getElem?_eq_some_iff.mp hk).1]
    exact hk
  | cancel j =>
    refine ⟨p, ?_, hends⟩
    show (c.calls.modify j _)[k]? = _
    rw [List.getElem?_modify, hk]
    exact congrArg some (ite_self _)
  | arrive j news =>
    show ∃ p, (c.calls.modify j _)[k]? = _ ∧ _
    rw [List.getElem?_modify, hk]
    by_cases hj : j = k
    · exact ⟨p.arrive news, congrArg some (if_pos hj), by rwa [p.phase_arrive]⟩
    · exact ⟨p, congrArg some (if_neg hj), hends⟩
  | pass | request | proceed => exact ⟨p, hk, hends⟩
  | panic n text =>
    by_cases hcut : (c.reporting && c.transcript.ledger.underWay.length ≤ n) = true
    · refine ⟨p.crash text, ?_, fun o ho => ?_⟩
      · refine (congrArg (·[k]?) (if_pos hcut)).trans ?_
        rw [List.getElem?_map, hk]
        rfl
      · rcases p.phase_crash text with ⟨o', hp, hsame⟩ | hp
        · exact hends o (hsame ▸ ho)
        · exact Phase.ended.inj (hp.symm.trans ho) ▸ hpanic n text rfl
    · exact ⟨p, (congrArg (·[k]?) (if_neg hcut)).trans hk, hends⟩
  | turn j f =>
    unfold perform
    dsimp only
    by_cases hj : j = k
    · subst hj
      rw [hk]
      dsimp only
      split
      next => exact stopping_go hfinished hk hends f
      next => exact ⟨p, hk, hends⟩
    · -- another call writes down nothing but its own standing
      have hother : ∀ call : RunCall α, (c.calls.set j call)[k]? = some ⟨true, .running p⟩ :=
        fun call => (List.getElem?_set_ne hj).trans hk
      cases c.calls[j]? with
      | none => exact ⟨p, hk, hends⟩
      | some call =>
        dsimp only
        split
        next => exact ⟨p, hother _, hends⟩
        next => exact ⟨p, hk, hends⟩
        next =>
          split
          next => exact ⟨p, hother _, hends⟩
          next => exact ⟨p, hk, hends⟩

/-- Once the call that runs the informer is cancelled, no loop does anything any more. -/
theorem untouched_of_stopping (h : c.Kept terms) (hfirst : c.first = some k)
    (hs : Stopping ends k c) (a : Act α) : Untouched c (c.perform terms a) := by
  obtain ⟨p, hk, -⟩ := hs
  rcases untouched_perform terms c a with hu | ⟨j, f, call, q, -, hj, hq, -, hgo⟩
  · exact hu
  · obtain rfl := Option.some.inj (hfirst.symm.trans (first_of_running h hj hq))
    obtain rfl := Option.some.inj (hk.symm.trans hj)
    obtain rfl := Standing.running.inj hq
    rw [hgo, go_of_cancelled]
    exact untouched_of_same rfl rfl

/-- A call that has had the first turn is the one that has had it. -/
theorem first_perform (h : c.Kept terms) (hfirst : c.first = some k) (a : Act α) :
    (c.perform terms a).first = some k := by
  cases a with
  | turn j f =>
    unfold perform
    dsimp only
    split
    next call _ =>
      split
      next =>
        rw [enter_of_later h hfirst]
        exact hfirst
      next => exact hfirst
      next => split <;> exact hfirst
    next => exact hfirst
  | _ => exact hfirst

/-- What is kept while a call is cancelled. -/
theorem stopping_after (h : c.Kept terms) (hfirst : c.first = some k) (hfinished : ends .finished)
    (hs : Stopping ends k c) (more : List (Act α))
    (hpanic : ∀ n text, .panic n text ∈ more → ends (.panicked text)) :
    Untouched c (c.after terms more) ∧ Stopping ends k (c.after terms more) := by
  unfold after
  induction more generalizing c with
  | nil => exact ⟨untouched_refl c, hs⟩
  | cons a more ih =>
    have hstep : Stopping ends k (c.perform terms a) :=
      stopping_perform hfinished (fun n text ha => hpanic n text (ha ▸ List.mem_cons_self)) hs
    obtain ⟨hu, hlater⟩ := ih (kept_perform h a) (first_perform h hfirst a) hstep
      fun n text hmem => hpanic n text (List.mem_cons_of_mem _ hmem)
    exact ⟨untouched_trans (untouched_of_stopping h hfirst hs a) hu, hlater⟩

/-! ## Coming to the end -/

/-- While the deliveries go on, the calls have no turn. -/
theorem after_proceed (c : Custody α) (n : Nat) :
    c.after terms (List.replicate n .proceed) =
      { c with transcript := c.transcript.run (List.replicate n (.onSession .proceed)) } := by
  induction n generalizing c with
  | zero => rfl
  | succ n ih => exact ih (c.perform terms .proceed)

/-- A turn at rest of a call that is cancelled. -/
theorem perform_turn_of_cancelled (hr : c.transcript.session.AtRest) {p : Patrol α}
    (hk : c.calls[k]? = some ⟨true, .running p⟩) (f : Bool) : c.perform terms (.turn k f) =
      { c with calls := c.calls.set k ⟨true, .running (p.turn c.now true f).1⟩ } := by
  unfold perform
  dsimp only
  rw [hk]
  exact (if_pos (List.isEmpty_iff.mpr hr)).trans (go_of_cancelled c k p f)

/-- At rest, a cancelled call takes two turns to end: one of them may be for the end of a pause. -/
theorem ends_at_rest (hr : c.transcript.session.AtRest) {p : Patrol α}
    (hk : c.calls[k]? = some ⟨true, .running p⟩) (hnot : ∀ o, p.phase ≠ .ended o) (f₁ f₂ : Bool) :
    ((c.perform terms (.turn k f₁)).perform terms (.turn k f₂)).outcome? k = some .finished := by
  obtain ⟨p', hp'⟩ : ∃ p', p' = (p.turn c.now true f₁).1 := ⟨_, rfl⟩
  obtain ⟨c', hc'⟩ : ∃ c' : Custody α, c' = { c with calls := c.calls.set k ⟨true, .running p'⟩ } :=
    ⟨_, rfl⟩
  have hk' : c'.calls[k]? = some ⟨true, .running p'⟩ := by
    rw [hc']
    exact RunCall.getElem?_set_of_some hk _
  have hr' : c'.transcript.session.AtRest := hc' ▸ hr
  have hnow : c'.now = c.now := by rw [hc']
  rw [perform_turn_of_cancelled hr hk f₁, ← hp', ← hc', perform_turn_of_cancelled hr' hk' f₂,
    outcome?_of_running (RunCall.getElem?_set_of_some hk' _), Patrol.outcome?_eq_some, hnow]
  have hsecond := (p'.halts c.now f₂).phase
  rcases hp' ▸ (p.halts c.now f₁).phase with ⟨o, hp, -⟩ | hp | ⟨-, hp⟩
  · exact absurd hp (hnot o)
  · rcases hsecond with ⟨o, ho, hafter⟩ | hafter | ⟨⟨d, hd⟩, -⟩
    · exact hafter.trans (ho.symm.trans hp)
    · exact hafter
    · exact absurd (hp.symm.trans hd) (by simp)
  · rcases hsecond with ⟨o, ho, -⟩ | hafter | ⟨⟨d, hd⟩, -⟩
    · exact absurd (hp.symm.trans ho) (by simp)
    · exact hafter
    · exact absurd (hp.symm.trans hd) (by simp)

/-! ## The theorem -/

/-- A call that runs the informer, and is cancelled, stops. -/
structure Stops (terms : Terms) (c : Custody α) (k : Nat) : Prop where
  /-- One batch at most is being delivered. -/
  batch_unique : ∀ m ∈ c.transcript.ledger.underWay, ∀ n ∈ c.transcript.ledger.underWay, ∀ o o',
    c.transcript.ledger.occasions[m]? = some o → c.transcript.ledger.occasions[n]? = some o' →
      o.isBatch = true → o'.isBatch = true → m = n
  /-- Whatever happens from now on, no loop does anything more. -/
  untouched : ∀ more, Untouched c (c.after terms more)
  /-- There is nothing to report, but for the panic of a callback. -/
  result : ∀ more o, (c.after terms more).outcome? k = some o →
    o = .finished ∨ ∃ n text, o = .panicked text ∧ .panic n text ∈ more
  /-- When what is being delivered is over, two turns end the call. -/
  ends : ∃ n, ∀ f₁ f₂, (c.after terms
    (List.replicate n .proceed ++ [.turn k f₁, .turn k f₂])).outcome? k = some .finished

theorem Kept.stops (h : c.Kept terms) (hfirst : c.first = some k) {p : Patrol α}
    (hk : c.calls[k]? = some ⟨true, .running p⟩) (hnot : ∀ o, p.phase ≠ .ended o) :
    c.Stops terms k where
  batch_unique m hm n hn o o' ho ho' hb hb' :=
    h.transcript.ledger.batch_unique hm hn ho ho' hb hb'
  untouched more := by
    have hs : Stopping (fun _ => True) k c := ⟨p, hk, fun _ _ => trivial⟩
    exact (stopping_after h hfirst trivial hs more fun _ _ _ => trivial).1
  result more o ho := by
    have hs : Stopping (fun o => o = .finished ∨ ∃ n text, o = .panicked text ∧
        .panic n text ∈ more) k c := ⟨p, hk, fun o ho => absurd ho (hnot o)⟩
    exact outcome?_of_stopping (stopping_after h hfirst (Or.inl rfl) hs more
      fun n text hmem => Or.inr ⟨n, text, rfl, hmem⟩).2 ho
  ends := by
    obtain ⟨n, hn⟩ := comes_to_rest c.transcript.session
    refine ⟨n, fun f₁ f₂ => ?_⟩
    unfold after
    rw [List.foldl_append]
    refine ends_at_rest (c := c.after terms (List.replicate n .proceed)) (p := p) ?_ ?_ hnot f₁ f₂
    · rw [after_proceed]
      show (c.transcript.run _).session.AtRest
      rw [Transcript.session_run, ← List.map_replicate, List.foldl_map]
      exact hn
    · rw [after_proceed]
      exact hk

end Cancelled

end Custody

end InformerHub
