import Mathlib.Data.List.Induction
import InformerHub.Proofs.Custody

/-!
# What a turn takes

A turn of a list and watch loop takes one signal at most (`Patrol.taken?`): that of a timer of its
own, the shutdown, or the first that has come from its source.  What becomes of the stream that is
read by that is one of five things, whatever the phases are in detail:

> `Crossing r sig r'`: a stream is opened, a change is taken from it, a tick is taken meanwhile, it
> is left, or the loop reads none before and after (`crossing_step`).

What becomes of the informer's account is that the signal is written down, and that a resync begins
if it is a tick (`Account.takes_signal`).  A resync tells everybody of everything stored
(`Account.occasions_resync`) and leaves it as it is (`Account.store_resync`).
-/

namespace InformerHub

open Informer Session Reflector

variable {α : Type}

/-! ## The signal of a turn -/

namespace Patrol

/-- The signal that the loop takes in a turn, if it takes any. -/
def taken? (p : Patrol α) (now : Nat) (shutDown shutDownFirst : Bool) : Option (Signal α) :=
  match p.due? now shutDown shutDownFirst, p.inbox with
  | some (.own sig), _ => some sig
  | some .arrival, news :: _ => if p.phase.awaits news.1 then some news.1 else none
  | _, _ => none

variable {p : Patrol α} {now : Nat} {shutDown first : Bool} {sig : Signal α}

/-- What a loop takes comes from itself, or is the first that has come from its source. -/
theorem turn_of_taken (h : p.taken? now shutDown first = some sig) :
    p.phase.awaits sig = true ∧
      (p.due? now shutDown first = some (.own sig) ∧
          (p.turn now shutDown first).1 = p.hear now sig p.inbox ∨
        ∃ news rest, news.1 = sig ∧ p.inbox = news :: rest ∧
          (p.turn now shutDown first).1 = p.hear now sig rest) := by
  unfold taken? at h
  split at h
  next own _ hd =>
    obtain rfl := Option.some.inj h
    exact ⟨awaits_of_due (due_of_due? hd), Or.inl ⟨hd, by rw [turn_of_due hd]⟩⟩
  next news rest hd hi =>
    obtain ⟨ha, hsig⟩ := (Option.ite_none_right_eq_some ..).mp h
    obtain rfl := Option.some.inj hsig
    refine ⟨ha, Or.inr ⟨news, rest, rfl, hi, ?_⟩⟩
    unfold turn
    rw [hd, hi]
    dsimp only
    rw [if_pos ha]
  next => exact absurd h (by simp)

theorem reflector_turn_of_taken (h : p.taken? now shutDown first = some sig) :
    (p.turn now shutDown first).1.reflector = (p.reflector.step sig).1 := by
  obtain ⟨ha, ⟨-, hturn⟩ | ⟨news, rest, -, -, hturn⟩⟩ := turn_of_taken h <;> rw [hturn] <;>
    exact reflector_hear now _ ha

/-- Whoever goes on to read a stream has asked for it. -/
theorem asked_turn_of_taken (h : p.taken? now shutDown first = some sig) :
    (p.turn now shutDown first).1.asked = (p.turn now shutDown first).1.phase.isWatching := by
  obtain ⟨-, ⟨-, hturn⟩ | ⟨news, rest, -, -, hturn⟩⟩ := turn_of_taken h <;> rw [hturn] <;> rfl

/-- A turn that takes nothing leaves the loop where it is. -/
theorem reflector_turn_of_none (h : p.taken? now shutDown first = none) :
    (p.turn now shutDown first).1.reflector = p.reflector := by
  cases hd : p.due? now shutDown first with
  | none =>
    rw [turn_of_none hd]
    dsimp only
    split
    next => rfl
    next =>
      unfold ask
      split <;> rfl
  | some cue =>
    cases cue with
    | own sig => simp [taken?, hd] at h
    | arrival =>
      unfold turn
      rw [hd]
      cases hi : p.inbox with
      | nil => rfl
      | cons news rest =>
        have ha : p.phase.awaits news.1 = false := by simpa [taken?, hd, hi] using h
        dsimp only
        rw [ha]
        rfl

/-- What is due by itself is no news.  It is the shutdown only if that has come, and on a stream it
is not the end of that. -/
theorem own_of_due (h : p.due? now shutDown first = some (.own sig)) :
    sig.isNews = false ∧ (sig = .shutdown → shutDown = true) ∧
      (p.phase.isWatching = true → sig.ending? = none) := by
  have hdue : DueAt p now shutDown first (.own sig) := due_of_due? h
  cases hdue with
  | shutdown hs => exact ⟨rfl, fun _ => hs, fun _ => rfl⟩
  | backoffOver => exact ⟨rfl, by simp, fun _ => rfl⟩
  | listTimedOut hp =>
    refine ⟨rfl, by simp, fun hw => ?_⟩
    rw [show p.phase = .listing from hp] at hw
    exact absurd hw Bool.false_ne_true
  | resync => exact ⟨rfl, by simp, fun _ => rfl⟩

/-- A stream is read from its beginning. -/
theorem inbox_turn_of_apart (h : p.taken? now shutDown first = some sig)
    (hw : p.phase.isWatching = false) : (p.turn now shutDown first).1.inbox = [] := by
  have hif : ∀ (b : Bool) (rest : List (News α)),
      (if p.phase.isWatching && b then rest else []) = [] := fun b rest => by rw [hw]; rfl
  obtain ⟨-, ⟨-, hturn⟩ | ⟨news, rest, -, -, hturn⟩⟩ := turn_of_taken h <;> rw [hturn] <;>
    exact hif ..

/-- While a stream is read the news that have come are taken one by one, and anything else that is
taken leaves them where they are. -/
theorem inbox_turn_of_taken (h : p.taken? now shutDown first = some sig) :
    ∃ rest, (p.phase.isWatching = true →
        (p.turn now shutDown first).1.phase.isWatching = true →
          (p.turn now shutDown first).1.inbox = rest) ∧
      (p.due? now shutDown first = some (.own sig) ∧ rest = p.inbox ∨
        ∃ news, news.1 = sig ∧ p.inbox = news :: rest) := by
  obtain ⟨-, ⟨hd, hturn⟩ | ⟨news, rest, hnews, hi, hturn⟩⟩ := turn_of_taken h <;> rw [hturn]
  · refine ⟨p.inbox, fun hw hw' => ?_, Or.inl ⟨hd, rfl⟩⟩
    exact if_pos (Bool.and_eq_true_iff.mpr ⟨hw, hw'⟩)
  · refine ⟨rest, fun hw hw' => ?_, Or.inr ⟨news, hnews, hi⟩⟩
    exact if_pos (Bool.and_eq_true_iff.mpr ⟨hw, hw'⟩)

/-- A loop that takes nothing of a stream has nothing to take. -/
theorem turn_of_none_of_asked (h : p.taken? now shutDown first = none) (ha : p.asked = true)
    (hi : ∀ news ∈ p.inbox, p.phase.awaits news.1 = true) :
    (p.turn now shutDown first).1 = p := by
  cases hd : p.due? now shutDown first with
  | none => rw [turn_of_none hd, if_pos ha]
  | some cue =>
    cases cue with
    | own sig => simp [taken?, hd] at h
    | arrival =>
      unfold turn
      rw [hd]
      cases hin : p.inbox with
      | nil => rfl
      | cons news rest =>
        have ha' := hi news (by rw [hin]; exact List.mem_cons_self)
        simp [taken?, hd, hin, ha'] at h

end Patrol

/-! ## What a signal does to a stream -/

namespace Reflector

variable {r r' : Reflector} {sig : Signal α}

/-- The change that a signal brings. -/
def Signal.change? : Signal α → Option (Change α)
  | .changed c => some c
  | _ => none

/-- Whether the loop reads a stream once it has taken a signal. -/
def Signal.reads : Signal α → Bool
  | .opened | .changed _ | .resyncDue _ => true
  | _ => false

theorem Phase.exists_of_isWatching {phase : Phase} (h : phase.isWatching = true) :
    ∃ received, phase = .watching received := by
  cases phase with
  | watching received => exact ⟨received, rfl⟩
  | _ => exact absurd h Bool.false_ne_true

/-- A stream waits for the same whether it has delivered something or not. -/
theorem Phase.awaits_of_isWatching {phase : Phase} (h : phase.isWatching = true)
    (sig : Signal α) : phase.awaits sig = (Phase.watching false).awaits sig := by
  obtain ⟨received, rfl⟩ := exists_of_isWatching h
  cases sig <;> rfl

theorem Phase.hasListed_of_isWatching {phase : Phase} (h : phase.isWatching = true) :
    phase.hasListed = true := by
  obtain ⟨received, rfl⟩ := exists_of_isWatching h
  rfl

/-- What a signal that is taken does to the stream that is read. -/
inductive Crossing (r : Reflector) : Signal α → Reflector → Prop
  | opens {r' : Reflector} (hbefore : r.phase.isWatching = false)
    (hafter : r'.phase.isWatching = true) (hsame : r'.resync = r.resync) : Crossing r .opened r'
  | changes {r' : Reflector} (c : Change α) (hbefore : r.phase.isWatching = true)
    (hafter : r'.phase.isWatching = true) (hsame : r'.resync = r.resync) :
    Crossing r (.changed c) r'
  | ticks {r' : Reflector} (now : Nat) (hbefore : r.phase.isWatching = true)
    (hafter : r'.phase.isWatching = true)
    (hticker : r'.resync = r.resync.map fun t => t.take now) : Crossing r (.resyncDue now) r'
  /-- The stream is left for another round, or for good. -/
  | leaves {sig : Signal α} {r' : Reflector} (hbefore : r.phase.isWatching = true)
    (hafter : r'.phase.isWatching = false) (hsame : r'.resync = r.resync)
    (hreads : sig.reads = false) (hsig : sig = .shutdown ∨ ∃ e, sig.ending? = some e) :
    Crossing r sig r'
  | apart {sig : Signal α} {r' : Reflector} (hbefore : r.phase.isWatching = false)
    (hafter : r'.phase.isWatching = false) (hsame : r'.resync = r.resync)
    (hreads : sig.reads = false) : Crossing r sig r'

theorem roundFailed_crossing (r : Reflector) (record : LogRecord) :
    (roundFailed (α := α) r record).1.phase.isWatching = false ∧
      (roundFailed (α := α) r record).1.resync = r.resync := by
  rcases roundFailed_cases (α := α) r record with h | ⟨-, h⟩ | ⟨-, h⟩ <;> rw [h] <;>
    exact ⟨rfl, rfl⟩

theorem Signal.reads_of_ending? {e : Ending} (h : sig.ending? = some e) : sig.reads = false := by
  cases sig <;> simp_all [Signal.ending?, Signal.reads]

theorem crossing_step (h : r.phase.awaits sig = true) : Crossing r sig (r.step sig).1 := by
  have hadvance := advance_step h
  generalize (r.step sig).1 = r' at hadvance
  cases hadvance with
  | stops =>
    cases hw : r.phase.isWatching with
    | true => exact .leaves hw rfl rfl rfl (Or.inl rfl)
    | false => exact .apart hw rfl rfl rfl
  | resumes hp => exact .apart (by rw [hp]; rfl) rfl rfl rfl
  | lists items version hp => exact .apart (by rw [hp]; rfl) rfl rfl rfl
  | opens hp => exact .opens (by rw [hp]; rfl) rfl rfl
  | changes c hp => exact .changes c (by rw [hp]; rfl) rfl rfl
  | ticks now hp =>
    have hw : r.phase.isWatching = true := by rw [hp]; rfl
    exact .ticks now hw hw rfl
  | fails record he =>
    obtain ⟨hafter, hsame⟩ := roundFailed_crossing (α := α) r record
    have hreads := Signal.reads_of_ending? he
    cases hw : r.phase.isWatching with
    | true => exact .leaves hw hafter hsame hreads (Or.inr ⟨_, he⟩)
    | false => exact .apart hw hafter hsame hreads
  | recovers hp => exact .leaves (by rw [hp]; rfl) rfl rfl rfl (Or.inr ⟨_, rfl⟩)

/-- A tick is taken when it is due, while a stream is read. -/
theorem due?_eq_resyncDue {now t : Nat} {shutDown first timeUp arrived : Bool}
    (h : r.due? (α := α) now shutDown first timeUp arrived = some (.own (.resyncDue t))) :
    t = now ∧ shutDown = false ∧ ∃ ticker, r.resync = some ticker ∧ ticker.due ≤ now := by
  unfold Reflector.due? at h
  split at h
  case h_4 =>
    split at h
    next => exact absurd h (by simp)
    next hs =>
      split at h
      next hany =>
        obtain ⟨ticker, hr, hdue⟩ := (Option.any_eq_true ..).mp hany
        exact ⟨by simpa using h.symm, Bool.eq_false_iff.mpr hs, ticker, hr,
          of_decide_eq_true hdue⟩
      next =>
        split at h <;> exact absurd h (by simp)
  all_goals
    repeat' split at h
    all_goals exact absurd h (by simp)

end Reflector

/-- What a turn that takes a signal does to the stream that is read. -/
theorem Patrol.crossing_turn {p : Patrol α} {now : Nat} {shutDown first : Bool} {sig : Signal α}
    (h : p.taken? now shutDown first = some sig) :
    Crossing p.reflector sig (p.turn now shutDown first).1.reflector := by
  rw [reflector_turn_of_taken h]
  exact crossing_step (turn_of_taken h).1

/-! ## What a signal does to an account -/

/-- The events of a resync. -/
def Occasion.resync? : Occasion α → Option (List (Event α))
  | .batch .resync events _ => some events
  | _ => none

/-- A list of items as updates of themselves. -/
def refreshed (items : List α) : List (Event α) := items.map fun a => .update a a

/-- The resync that a signal brings when these items are stored. -/
def Reflector.Signal.resyncs (stored : List α) : Signal α → List (List (Event α))
  | .resyncDue _ => [refreshed stored]
  | _ => []

namespace Account

variable [Object α] {a : Account α} {r : Reflector} {sig : Signal α}

/-- The events of the resyncs that have begun. -/
def resyncs (a : Account α) : List (List (Event α)) :=
  a.transcript.ledger.occasions.filterMap Occasion.resync?

/-- What is stored. -/
def stored (a : Account α) : List α := a.loop.session.informer.store.list

/-- Of the batches that begin at rest, a resync brings one. -/
theorem resyncs_batch {t : Transcript α} (hrest : t.session.AtRest) (b : Batch α) :
    (t.perform (.onSession (.batch b))).ledger.occasions.filterMap Occasion.resync? =
      t.ledger.occasions.filterMap Occasion.resync? ++ match b with
        | .resync => [refreshed t.session.informer.store.list]
        | _ => [] := by
  have hd : t.session.informer.deliveries = [] := hrest
  rw [picked_onSession]
  refine congrArg _ ?_
  simp only [occasion?, hd, List.isEmpty_nil, Bool.true_and]
  cases b with
  | relist | resync => rfl
  | change c =>
    dsimp only
    split <;> rfl

/-- Whatever is no batch brings no resync. -/
theorem resyncs_of_not_batch (t : Transcript α) {act : Session.Act α} (h : ∀ b, act ≠ .batch b) :
    (t.perform (.onSession act)).ledger.occasions.filterMap Occasion.resync? =
      t.ledger.occasions.filterMap Occasion.resync? := by
  have hnone : (t.session.occasion? act).bind Occasion.resync? = none := by
    cases ho : t.session.occasion? act with
    | none => rfl
    | some o =>
      have hbatch := t.session.isBatch_occasion? h o ho
      cases o with
      | batch => exact absurd hbatch (by simp [Occasion.isBatch])
      | replay | aside => rfl
  rw [picked_onSession, hnone]
  exact List.append_nil _

/-- What becomes of an account when its loop takes a signal. -/
structure Takes (a : Account α) (r : Reflector) (sig : Signal α) (a' : Account α) : Prop where
  reflector : a'.loop.reflector = some (r.step sig).1
  taken : a'.loop.taken = a.loop.taken ++ [sig]
  resyncs : a'.resyncs = a.resyncs ++ sig.resyncs a.stored

theorem takes_signal (h : a.Kept) (hr : a.loop.reflector = some r)
    (hrest : a.loop.session.AtRest) (ha : r.phase.awaits sig = true) :
    Takes a r sig (a.perform (.signal sig)) := by
  have hempty : a.loop.session.informer.deliveries.isEmpty = true := List.isEmpty_iff.mpr hrest
  have hacts : a.loop.acts (.signal sig) =
      sig.batch?.toList.map fun b => .onSession (.batch b) := by
    simp only [Loop.acts, hr, ha, if_true]
  refine ⟨?_, ?_, ?_⟩
  · show (a.loop.perform (.signal sig)).reflector = _
    simp only [Loop.perform, hr, hempty, if_true]
  · show (a.loop.perform (.signal sig)).taken = _
    simp only [Loop.perform, hr, hempty, ha, if_true]
  · show (a.transcript.run (a.loop.acts (.signal sig))).ledger.occasions.filterMap _ = _
    rw [hacts]
    unfold resyncs stored
    rw [← h.session] at hrest ⊢
    cases hb : sig.batch? with
    | none =>
      have hnone : sig.resyncs a.transcript.session.informer.store.list = [] := by
        cases sig <;> simp_all [Signal.batch?, Signal.resyncs]
      rw [hnone]
      exact (List.append_nil _).symm
    | some b =>
      refine (resyncs_batch hrest b).trans (congrArg _ ?_)
      cases sig with
      | listed | changed | resyncDue => obtain rfl := Option.some.inj hb; rfl
      | _ => exact absurd hb (by simp [Signal.batch?])

/-- Nothing that is requested, and no call, moves the loop or begins a resync. -/
structure Rests (a a' : Account α) : Prop where
  reflector : a'.loop.reflector = a.loop.reflector
  taken : a'.loop.taken = a.loop.taken
  resyncs : a'.resyncs = a.resyncs

theorem rests_request (a : Account α) (q : Request) : Rests a (a.perform (.request q)) :=
  ⟨rfl, rfl, resyncs_of_not_batch a.transcript (by simp)⟩

theorem rests_proceed (a : Account α) : Rests a (a.perform .proceed) :=
  ⟨rfl, rfl, resyncs_of_not_batch a.transcript (by simp)⟩

/-- A resync begins one batch, of everything stored, for those who are registered. -/
theorem occasions_resync (h : a.Kept) (hr : a.loop.reflector = some r)
    (hrest : a.loop.session.AtRest) {t : Nat} (ha : r.phase.awaits (.resyncDue (α := α) t) = true) :
    (a.perform (.signal (.resyncDue t))).transcript.ledger.occasions =
      a.transcript.ledger.occasions ++
        [.batch .resync (refreshed a.stored) a.loop.session.informer.registrations] := by
  show (a.transcript.run (a.loop.acts (.signal (.resyncDue t)))).ledger.occasions = _
  have hacts : a.loop.acts (.signal (.resyncDue t)) = [.onSession (.batch .resync)] := by
    simp only [Loop.acts, hr, ha, if_true]
    rfl
  have hd : a.transcript.session.informer.deliveries = [] := by
    rw [h.session]
    exact hrest
  rw [hacts]
  refine (Ledger.occasions_note ..).trans (congrArg _ ?_)
  simp only [occasion?, hd, List.isEmpty_nil, Bool.true_and]
  rw [h.session]
  rfl

/-- An account whose informer has not been run. -/
structure Unrun (a : Account α) : Prop where
  kept : a.Kept
  replicates : a.loop.Replicates
  idle : a.loop.session.informer.started = false
  taken : a.loop.taken = []
  resyncs : a.resyncs = []

theorem unrun_requests (before : List Request) :
    ((before.map Loop.Move.request).foldl perform (new : Account α)).Unrun := by
  induction before using List.reverseRecOn with
  | nil =>
    exact ⟨kept_new, ⟨rfl, fun r hr => absurd hr (by simp [new, Loop.new])⟩, rfl, rfl, rfl⟩
  | append_singleton before q ih =>
    rw [List.map_append, List.foldl_append]
    exact ⟨kept_perform ih.kept _, Loop.replicates_perform ih.replicates (.request q),
      (Session.started_request ..).trans ih.idle, ih.taken,
      (rests_request _ q).resyncs.trans ih.resyncs⟩

/-- An account when its informer is run. -/
structure Begun (r : Reflector) (a : Account α) : Prop where
  kept : a.Kept
  replicates : a.loop.Replicates
  reflector : a.loop.reflector = some r
  taken : a.loop.taken = []
  resyncs : a.resyncs = []

theorem Unrun.start (h : a.Unrun) (resource : String) (policy : BackoffPolicy)
    (period : Option Nat) (now : Nat) :
    (a.perform (.start resource policy period now)).Begun
      (Reflector.begin (α := α) resource policy period now).1 := by
  have hfirst : a.loop.session.informer.start.2 = true := by
    show (!a.loop.session.informer.started) = true
    rw [h.idle]
    rfl
  refine ⟨kept_perform h.kept _, Loop.replicates_perform h.replicates
    (.start resource policy period now), ?_, ?_, h.resyncs⟩
  · show (a.loop.perform (.start resource policy period now)).reflector = _
    unfold Loop.perform beginRun
    dsimp only
    rw [hfirst]
    rfl
  · show (a.loop.perform (.start resource policy period now)).taken = _
    unfold Loop.perform beginRun
    dsimp only
    rw [hfirst]
    exact h.taken

/-- A resync leaves everything in the store as it is. -/
theorem store_resync (a : Account α) (t : Nat) :
    (a.perform (.signal (.resyncDue t))).loop.session.informer.store =
      a.loop.session.informer.store := by
  show (a.loop.perform (.signal (.resyncDue t))).session.informer.store = _
  rw [Loop.session_perform]
  have hbatch : (a.loop.session.perform (.batch .resync)).informer.store =
      a.loop.session.informer.store := by
    unfold Session.perform
    dsimp only
    split <;> rfl
  unfold Loop.acts
  dsimp only
  split
  next r _ =>
    split
    next => exact hbatch
    next => rfl
  next => rfl

end Account

end InformerHub
