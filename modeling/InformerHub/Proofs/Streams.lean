import Mathlib.Data.List.Induction
import InformerHub.Proofs.Intake
import InformerHub.Proofs.StoreQueries

/-!
# The streams that an informer reads

`Redelivery` is a run of an informer with its patrol and its account, on a clock that goes on as it
likes.  It writes down the streams that were opened, and for each of them what was sent on it, which
changes were taken from it, and which resyncs were begun meanwhile.

> What is written down is what the loop has done: the changes that it has taken are those of the
> streams, one stream after the other; of each stream they are what was sent first; and a stream is
> left at its end only, or because of the shutdown (`recorded_run`).

> Each resync is begun by one turn, while a stream is read, and it tells of what is stored then
> (`exists_refreshes`).

The invariant is `Recorded`.
-/

namespace InformerHub

open Informer Session Reflector

variable {α : Type}

/-! ## Runs and their streams -/

/-- A change as it comes on a stream. -/
def Change.news (c : Change α) : News α := ⟨.changed c, rfl⟩

/-- A resync that was begun. -/
structure Resync (α : Type) where
  /-- When its tick was due. -/
  due : Nat
  /-- When it was taken. -/
  time : Nat
  stored : List α

/-- A stream that was read. -/
structure WatchStream (α : Type) where
  opened : Nat
  /-- When it was left, and with which end; there is none if it was the shutdown. -/
  closed : Option (Nat × Option Ending)
  sent : List (News α)
  applied : List (Change α)
  resyncs : List (Resync α)

namespace WatchStream

/-- A stream that is read: what was sent on it has been taken, or is in the inbox. -/
structure Open (inbox : List (News α)) (s : WatchStream α) : Prop where
  closed : s.closed = none
  sent : s.sent = s.applied.map Change.news ++ inbox
  awaited : ∀ news ∈ inbox, (Phase.watching false).awaits news.1 = true

/-- A stream of which everything has been taken that has come before its end. -/
def Drained (s : WatchStream α) : Prop :=
  ∃ rest, s.sent = s.applied.map Change.news ++ rest ∧
    ∀ news ∈ rest.head?, ∃ e, news.1.ending? = some e

/-- A stream that was left: at its end, when all changes before that had been taken, or because of
the shutdown. -/
def Over (shutDown : Bool) (s : WatchStream α) : Prop :=
  (∃ t e news rest, s.closed = some (t, some e) ∧ news.1.ending? = some e ∧
    s.sent = s.applied.map Change.news ++ news :: rest) ∨
  ∃ t rest, s.closed = some (t, none) ∧ shutDown = true ∧
    s.sent = s.applied.map Change.news ++ rest

end WatchStream

/-- A run of an informer, and the streams that it has read. -/
structure Redelivery (α : Type) where
  account : Account α
  patrol : Patrol α
  /-- In nanoseconds. -/
  now : Nat
  shutDown : Bool
  /-- The streams that were left. -/
  past : List (WatchStream α)
  /-- The stream that is read. -/
  present : Option (WatchStream α)

namespace Redelivery

inductive Act (α : Type) where
  | pass (time : Nat)
  | shutDown
  /-- Something comes from the source. -/
  | arrive (news : News α)
  /-- The loop takes a turn, unless something is being delivered. -/
  | turn (shutDownFirst : Bool)
  | request (q : Request)
  /-- A call is made, or a delivery ends. -/
  | proceed

def streams (r : Redelivery α) : List (WatchStream α) := r.past ++ r.present.toList

/-- The resyncs that were begun, the first one first. -/
def resyncs (r : Redelivery α) : List (Resync α) := r.streams.flatMap WatchStream.resyncs

/-- What the loop takes in a turn, if it has one. -/
def taken? (r : Redelivery α) (shutDownFirst : Bool) : Option (Signal α) :=
  r.patrol.taken? r.now r.shutDown shutDownFirst

/-- The resync that is begun now. -/
def resync? (r : Redelivery α) : Option (Resync α) :=
  r.patrol.reflector.resync.map fun t => ⟨t.due, r.now, r.account.stored⟩

/-- The stream that is read once a signal is taken. -/
def presentAfter (r : Redelivery α) : Signal α → Option (WatchStream α)
  | .opened => some ⟨r.now, none, [], [], []⟩
  | .changed c => r.present.map fun s => { s with applied := s.applied ++ [c] }
  | .resyncDue _ => r.present.map fun s => { s with resyncs := s.resyncs ++ r.resync?.toList }
  | _ => none

/-- The streams that were left once a signal is taken. -/
def pastAfter (r : Redelivery α) (sig : Signal α) : List (WatchStream α) :=
  match sig with
  | .opened | .changed _ | .resyncDue _ => r.past
  | _ => r.past ++ r.present.toList.map fun s => { s with closed := some (r.now, sig.ending?) }

/-- What is sent while a stream is read comes on that stream. -/
def arrive (r : Redelivery α) (news : News α) : Redelivery α :=
  { r with
    patrol := r.patrol.arrive news
    present := r.present.map fun s =>
      if (Phase.watching false).awaits news.1 then { s with sent := s.sent ++ [news] } else s }

section Run

variable [Object α]

/-- The run once its loop has taken a signal. -/
def take (r : Redelivery α) (sig : Signal α) (patrol : Patrol α) : Redelivery α :=
  { r with
    account := r.account.perform (.signal sig), patrol
    past := r.pastAfter sig, present := r.presentAfter sig }

/-- The run after a turn of its loop. -/
def turn (r : Redelivery α) (shutDownFirst : Bool) : Redelivery α :=
  let patrol := (r.patrol.turn r.now r.shutDown shutDownFirst).1
  match r.taken? shutDownFirst with
  | some sig => r.take sig patrol
  | none => { r with patrol }

def perform (r : Redelivery α) : Act α → Redelivery α
  | .pass time => { r with now := r.now + time }
  | .shutDown => { r with shutDown := true }
  | .arrive news => r.arrive news
  | .turn shutDownFirst =>
    if r.account.loop.session.informer.deliveries.isEmpty then r.turn shutDownFirst else r
  | .request q => { r with account := r.account.perform (.request q) }
  | .proceed => { r with account := r.account.perform .proceed }

/-- A run that begins at `now`, after some requests. -/
def begin (before : List Request) (resource : String) (policy : BackoffPolicy)
    (period : Option Nat) (now : Nat) : Redelivery α where
  account := ((before.map Loop.Move.request).foldl Account.perform .new).perform
    (.start resource policy period now)
  patrol := .ofReflector (Reflector.begin (α := α) resource policy period now).1
  now
  shutDown := false
  past := []
  present := none

/-- What has become of a run after some acts. -/
def after (r : Redelivery α) (acts : List (Act α)) : Redelivery α := acts.foldl perform r

def run (before : List Request) (resource : String) (policy : BackoffPolicy)
    (period : Option Nat) (now : Nat) (acts : List (Act α)) : Redelivery α :=
  (begin before resource policy period now).after acts

/-- All that a turn can do. -/
inductive Turns (r : Redelivery α) (first : Bool) : Redelivery α → Prop
  | takes {sig : Signal α} (hrest : r.account.loop.session.AtRest)
    (ht : r.taken? first = some sig) :
    Turns r first (r.take sig (r.patrol.turn r.now r.shutDown first).1)
  | idles (ht : r.taken? first = none) :
    Turns r first { r with patrol := (r.patrol.turn r.now r.shutDown first).1 }
  /-- Something is being delivered. -/
  | waits : Turns r first r

theorem turns_perform (r : Redelivery α) (first : Bool) :
    Turns r first (r.perform (.turn first)) := by
  unfold perform
  dsimp only
  split
  next hrest =>
    unfold turn
    dsimp only
    split
    next ht => exact .takes (List.isEmpty_iff.mp hrest) ht
    next ht => exact .idles ht
  next => exact .waits

end Run

/-! ## What is written down -/

/-- The streams and resyncs that are written down are those of the loop. -/
structure Recorded [Object α] (r : Redelivery α) : Prop where
  account : r.account.Kept
  replicates : r.account.loop.Replicates
  same : r.account.loop.reflector = some r.patrol.reflector
  reading : r.patrol.phase.isWatching = r.present.isSome
  asked : r.present.isSome = true → r.patrol.asked = true
  present : ∀ s, r.present = some s → s.Open r.patrol.inbox
  past : ∀ s ∈ r.past, s.Over r.shutDown
  resyncs : r.account.resyncs = r.resyncs.map fun x => refreshed x.stored
  changes : r.account.loop.taken.filterMap Signal.change? =
    r.streams.flatMap WatchStream.applied
  ordered : ∀ x ∈ r.resyncs, (x.stored.map keyOf).Pairwise fun a b => Text.bytes a < Text.bytes b

variable {r : Redelivery α} {s : WatchStream α} {sig : Signal α}

theorem streams_of_present (h : r.present = some s) : r.streams = r.past ++ [s] := by
  unfold streams
  rw [h]
  rfl

theorem streams_of_none (h : r.present = none) : r.streams = r.past := by
  unfold streams
  rw [h]
  exact List.append_nil _

theorem resyncs_of_present (h : r.present = some s) :
    r.resyncs = r.past.flatMap WatchStream.resyncs ++ s.resyncs := by
  unfold resyncs
  rw [streams_of_present h, List.flatMap_append, List.flatMap_singleton]

theorem resyncs_of_none (h : r.present = none) :
    r.resyncs = r.past.flatMap WatchStream.resyncs := by
  unfold resyncs
  rw [streams_of_none h]

/-- The resync that a signal begins. -/
def begun? (r : Redelivery α) : Signal α → Option (Resync α)
  | .resyncDue _ => r.resync?
  | _ => none

/-- A stream that is left. -/
def leave (r : Redelivery α) (sig : Signal α) (s : WatchStream α) : WatchStream α :=
  { s with closed := some (r.now, sig.ending?) }

theorem after_of_not_reads (r : Redelivery α) (h : sig.reads = false) :
    r.presentAfter sig = none ∧
      r.pastAfter sig = r.past ++ r.present.toList.map (r.leave sig) ∧
      r.begun? sig = none ∧ sig.change? = none := by
  cases sig <;> first | exact ⟨rfl, rfl, rfl, rfl⟩ | exact absurd h (by simp [Signal.reads])

theorem present_of_reading (hreading : r.patrol.phase.isWatching = r.present.isSome) :
    (r.patrol.phase.isWatching = false → r.present = none) ∧
      (r.patrol.phase.isWatching = true → ∃ s, r.present = some s) := by
  rw [hreading]
  exact ⟨fun hw => Option.not_isSome_iff_eq_none.mp (by simp [hw]), Option.isSome_iff_exists.mp⟩

/-- The loop reads a stream after a signal if there is one that is written down. -/
theorem reading_take (hreading : r.patrol.phase.isWatching = r.present.isSome) {p : Patrol α}
    (hcross : Crossing r.patrol.reflector sig p.reflector) :
    p.phase.isWatching = (r.presentAfter sig).isSome := by
  cases hcross with
  | opens _ hafter => exact hafter
  | changes _ hbefore hafter | ticks _ hbefore hafter =>
    exact hafter.trans (hbefore.symm.trans (hreading.trans (Option.isSome_map ..).symm))
  | leaves _ hafter _ hreads | apart _ hafter _ hreads =>
    rw [(r.after_of_not_reads hreads).1]
    exact hafter

/-- A resync begins when its tick is due. -/
theorem begun_of_resyncDue {first : Bool} {t : Nat} (ht : r.taken? first = some (.resyncDue t)) :
    t = r.now ∧ r.shutDown = false ∧ ∃ ticker, r.patrol.reflector.resync = some ticker ∧
      ticker.due ≤ r.now ∧
        r.begun? (.resyncDue t) = some ⟨ticker.due, r.now, r.account.stored⟩ := by
  obtain ⟨-, ⟨hd, -⟩ | ⟨news, rest, hnews, -⟩⟩ := Patrol.turn_of_taken ht
  · obtain ⟨ht, hs, ticker, hticker, hdue⟩ := due?_eq_resyncDue hd
    exact ⟨ht, hs, ticker, hticker, hdue, congrArg (Option.map _) hticker⟩
  · exact absurd news.2 (by rw [hnews]; simp [Signal.isNews])

/-- What is sent on a stream is neither a change that was taken nor a resync. -/
theorem flatMap_streams_arrive {β : Type} (f : WatchStream α → List β)
    (hf : ∀ (s : WatchStream α) sent, f { s with sent } = f s) (r : Redelivery α)
    (news : News α) : (r.arrive news).streams.flatMap f = r.streams.flatMap f := by
  unfold streams arrive
  cases r.present with
  | none => rfl
  | some s =>
    rw [List.flatMap_append, List.flatMap_append]
    refine congrArg _ ?_
    show List.flatMap f [_] = List.flatMap f [s]
    rw [List.flatMap_singleton, List.flatMap_singleton]
    split
    · exact hf s _
    · rfl

theorem arrive_patrol (p : Patrol α) (news : News α) :
    (p.arrive news).reflector = p.reflector ∧ (p.arrive news).asked = p.asked ∧
      (p.arrive news).inbox = if p.asked && p.phase.awaits news.1 then p.inbox ++ [news]
        else p.inbox := by
  unfold Patrol.arrive
  split <;> exact ⟨rfl, rfl, rfl⟩

section Recorded

variable [Object α]

/-- What the loop of a run is when it takes no signal. -/
theorem Recorded.of_rests (h : r.Recorded) {a : Account α} (hkept : a.Kept)
    (hreplicates : a.loop.Replicates) (hrests : Account.Rests r.account a) :
    ({ r with account := a } : Redelivery α).Recorded where
  account := hkept
  replicates := hreplicates
  same := hrests.reflector.trans h.same
  reading := h.reading
  asked := h.asked
  present := h.present
  past := h.past
  resyncs := hrests.resyncs.trans h.resyncs
  changes := (congrArg _ hrests.taken).trans h.changes
  ordered := h.ordered

theorem recorded_request (h : r.Recorded) (q : Request) :
    (r.perform (.request q)).Recorded :=
  h.of_rests (Account.kept_perform h.account _)
    (Loop.replicates_perform h.replicates (.request q)) (Account.rests_request r.account q)

theorem recorded_proceed (h : r.Recorded) : (r.perform .proceed).Recorded :=
  h.of_rests (Account.kept_perform h.account _)
    (Loop.replicates_perform h.replicates .proceed) (Account.rests_proceed r.account)

theorem recorded_shutDown (h : r.Recorded) : (r.perform .shutDown).Recorded :=
  { h with past := fun s hs => (h.past s hs).imp_right fun ⟨t, rest, hc, _, hsent⟩ =>
      ⟨t, rest, hc, rfl, hsent⟩ }

theorem Recorded.watching (h : r.Recorded) (hp : r.present = some s) :
    r.patrol.phase.isWatching = true := by
  rw [h.reading, hp]
  rfl

/-- What comes while a stream is read waits in the inbox, if it belongs to a stream. -/
theorem open_arrive (h : r.Recorded) (hp : r.present = some s) (news : News α) :
    (if (Phase.watching false).awaits news.1 then { s with sent := s.sent ++ [news] }
      else s).Open (r.patrol.arrive news).inbox := by
  have hopen := h.present s hp
  have hw := h.watching hp
  obtain ⟨-, -, hinbox⟩ := arrive_patrol r.patrol news
  rw [hinbox, h.asked (by rw [hp]; rfl), Phase.awaits_of_isWatching hw, Bool.true_and]
  cases ha : (Phase.watching false).awaits news.1 with
  | false => exact hopen
  | true =>
    simp only [if_true]
    refine ⟨hopen.closed, ?_, fun n hn => ?_⟩
    · show s.sent ++ [news] = _
      rw [hopen.sent, List.append_assoc]
    · rcases List.mem_append.mp hn with hn | hn
      · exact hopen.awaited n hn
      · rw [List.mem_singleton.mp hn]
        exact ha

theorem recorded_arrive (h : r.Recorded) (news : News α) :
    (r.perform (.arrive news)).Recorded := by
  obtain ⟨hreflector, hasked, -⟩ := arrive_patrol r.patrol news
  have hresyncs : (r.arrive news).resyncs = r.resyncs :=
    flatMap_streams_arrive WatchStream.resyncs (fun _ _ => rfl) r news
  refine ⟨h.account, h.replicates, ?_, ?_, ?_, ?_, h.past, ?_, ?_, ?_⟩
  · exact h.same.trans (congrArg some hreflector.symm)
  · show (r.patrol.arrive news).reflector.phase.isWatching = _
    rw [hreflector]
    exact h.reading.trans (Option.isSome_map ..).symm
  · intro hp
    exact hasked.trans (h.asked ((Option.isSome_map ..).symm.trans hp))
  · intro s' hs'
    obtain ⟨s, hp, rfl⟩ := Option.map_eq_some_iff.mp hs'
    exact open_arrive h hp news
  · exact h.resyncs.trans (by rw [show r.perform (.arrive news) = r.arrive news from rfl, hresyncs])
  · exact h.changes.trans
      (flatMap_streams_arrive WatchStream.applied (fun _ _ => rfl) r news).symm
  · rw [show r.perform (.arrive news) = r.arrive news from rfl, hresyncs]
    exact h.ordered

/-! ### Turns -/

/-- A turn that takes nothing changes nothing that is written down. -/
theorem recorded_idle (h : r.Recorded) {first : Bool} (ht : r.taken? first = none) :
    ({ r with patrol := (r.patrol.turn r.now r.shutDown first).1 } : Redelivery α).Recorded := by
  rcases Option.eq_none_or_eq_some r.present with hp | ⟨s, hp⟩
  · have hreflector := Patrol.reflector_turn_of_none ht
    refine ⟨h.account, h.replicates, ?_, ?_, fun hs => ?_, fun s hs => ?_, h.past, h.resyncs,
      h.changes, h.ordered⟩
    · exact h.same.trans (congrArg some hreflector.symm)
    · show Phase.isWatching (Patrol.reflector _).phase = _
      rw [hreflector]
      exact h.reading
    · rw [hp] at hs
      exact absurd hs (by simp)
    · exact absurd (hp.symm.trans hs) (by simp)
  · have hw := h.watching hp
    rw [Patrol.turn_of_none_of_asked ht (h.asked (by rw [hp]; rfl)) fun news hn =>
      (Phase.awaits_of_isWatching hw _).trans ((h.present s hp).awaited news hn)]
    exact h

/-- What a signal adds to something that the streams have lists of: it goes to the stream that is
read, and whoever is left keeps what it has. -/
theorem flatMap_streams_take (hreading : r.patrol.phase.isWatching = r.present.isSome)
    {p : Patrol α} (hcross : Crossing r.patrol.reflector sig p.reflector) {β : Type}
    (f : WatchStream α → List β) (added : Signal α → List β)
    (hopened : f ⟨r.now, none, [], [], []⟩ = added .opened)
    (hchanged : ∀ s c, f { s with applied := s.applied ++ [c] } = f s ++ added (.changed c))
    (hticked : ∀ s t, f { s with resyncs := s.resyncs ++ r.resync?.toList } =
      f s ++ added (.resyncDue t))
    (hleft : ∀ s, f (r.leave sig s) = f s) (hreads : sig.reads = false → added sig = []) :
    (r.take sig p).streams.flatMap f = r.streams.flatMap f ++ added sig := by
  obtain ⟨hnone, hsome⟩ := present_of_reading hreading
  cases hcross with
  | opens hbefore =>
    rw [streams_of_none (hnone hbefore), streams_of_present rfl, List.flatMap_append,
      List.flatMap_singleton, hopened]
    rfl
  | changes c hbefore =>
    obtain ⟨s, hp⟩ := hsome hbefore
    have hp' : (r.take (.changed c) p).present = _ := congrArg (Option.map _) hp
    rw [streams_of_present hp, streams_of_present hp', List.flatMap_append, List.flatMap_append,
      List.flatMap_singleton, List.flatMap_singleton, List.append_assoc, hchanged]
    rfl
  | ticks t hbefore =>
    obtain ⟨s, hp⟩ := hsome hbefore
    have hp' : (r.take (.resyncDue t) p).present = _ := congrArg (Option.map _) hp
    rw [streams_of_present hp, streams_of_present hp', List.flatMap_append, List.flatMap_append,
      List.flatMap_singleton, List.flatMap_singleton, List.append_assoc, hticked]
    rfl
  | leaves hbefore _ _ hnot =>
    obtain ⟨s, hp⟩ := hsome hbefore
    obtain ⟨hpresent, hpast, -⟩ := r.after_of_not_reads hnot
    have hpast' : (r.take sig p).past = r.past ++ [r.leave sig s] := by
      rw [show (r.take sig p).past = r.pastAfter sig from rfl, hpast, hp]
      rfl
    rw [streams_of_present hp, streams_of_none hpresent, hpast', List.flatMap_append,
      List.flatMap_append, List.flatMap_singleton, List.flatMap_singleton, hleft, hreads hnot,
      List.append_nil]
  | apart hbefore _ _ hnot =>
    have hp := hnone hbefore
    obtain ⟨hpresent, hpast, -⟩ := r.after_of_not_reads hnot
    have hpast' : (r.take sig p).past = r.past := by
      rw [show (r.take sig p).past = r.pastAfter sig from rfl, hpast, hp]
      exact List.append_nil _
    rw [streams_of_none hp, streams_of_none hpresent, hpast', hreads hnot, List.append_nil]

/-- What taking a signal adds to what is written down. -/
structure Adds (r : Redelivery α) (sig : Signal α) (r' : Redelivery α) : Prop where
  reading : r'.patrol.phase.isWatching = r'.present.isSome
  resyncs : r'.resyncs = r.resyncs ++ (r.begun? sig).toList
  changes : r'.streams.flatMap WatchStream.applied =
    r.streams.flatMap WatchStream.applied ++ sig.change?.toList

theorem adds_take (hreading : r.patrol.phase.isWatching = r.present.isSome) {p : Patrol α}
    (hcross : Crossing r.patrol.reflector sig p.reflector) : Adds r sig (r.take sig p) where
  reading := reading_take hreading hcross
  resyncs := by
    refine flatMap_streams_take hreading hcross _ (fun sig => (r.begun? sig).toList) rfl
      (fun _ _ => (List.append_nil _).symm) (fun _ _ => rfl) (fun _ => rfl) fun hreads => ?_
    rw [(r.after_of_not_reads hreads).2.2.1]
    rfl
  changes := by
    refine flatMap_streams_take hreading hcross _ (fun sig => sig.change?.toList) rfl
      (fun _ _ => rfl) (fun _ _ => (List.append_nil _).symm) (fun _ => rfl) fun hreads => ?_
    rw [(r.after_of_not_reads hreads).2.2.2]
    rfl

/-- The stream that is read once a signal is taken. -/
theorem open_take (h : r.Recorded) {first : Bool} (ht : r.taken? first = some sig) :
    ∀ s', r.presentAfter sig = some s' →
      s'.Open (r.patrol.turn r.now r.shutDown first).1.inbox := by
  intro s' hs'
  obtain ⟨rest, hrest, hfrom⟩ := Patrol.inbox_turn_of_taken ht
  obtain ⟨hnone, hsome⟩ := present_of_reading h.reading
  cases Patrol.crossing_turn ht with
  | opens hbefore =>
    obtain rfl := Option.some.inj hs'
    rw [Patrol.inbox_turn_of_apart ht hbefore]
    exact ⟨rfl, rfl, fun _ hn => absurd hn List.not_mem_nil⟩
  | changes c hbefore hwatching =>
    obtain ⟨s, hp⟩ := hsome hbefore
    obtain rfl : { s with applied := s.applied ++ [c] } = s' := by
      rw [show r.presentAfter (.changed c) = _ from congrArg (Option.map _) hp] at hs'
      exact Option.some.inj hs'
    have hopen := h.present s hp
    rcases hfrom with ⟨hd, -⟩ | ⟨news, hnews, hi⟩
    · exact absurd (Patrol.own_of_due hd).1 (by simp [Signal.isNews])
    · rw [hrest hbefore hwatching]
      have hnews : news = c.news := Subtype.ext hnews
      rw [hi, hnews] at hopen
      refine ⟨hopen.closed, ?_, fun n hn => hopen.awaited n (List.mem_cons_of_mem _ hn)⟩
      rw [List.map_append, List.append_assoc]
      exact hopen.sent
  | ticks now hbefore hwatching =>
    obtain ⟨s, hp⟩ := hsome hbefore
    obtain rfl : { s with resyncs := s.resyncs ++ r.resync?.toList } = s' := by
      rw [show r.presentAfter (.resyncDue now) = _ from congrArg (Option.map _) hp] at hs'
      exact Option.some.inj hs'
    have hopen := h.present s hp
    rcases hfrom with ⟨-, rfl⟩ | ⟨news, hnews, -⟩
    · rw [hrest hbefore hwatching]
      exact ⟨hopen.closed, hopen.sent, hopen.awaited⟩
    · exact absurd news.2 (by rw [hnews]; simp [Signal.isNews])
  | leaves _ _ _ hreads | apart _ _ _ hreads =>
    exact absurd ((r.after_of_not_reads hreads).1.symm.trans hs') (by simp)

/-- The streams that were left once a signal is taken. -/
theorem over_take (h : r.Recorded) {first : Bool} (ht : r.taken? first = some sig) :
    ∀ s ∈ r.pastAfter sig, s.Over r.shutDown := by
  intro s' hs'
  obtain ⟨rest, -, hfrom⟩ := Patrol.inbox_turn_of_taken ht
  obtain ⟨hnone, hsome⟩ := present_of_reading h.reading
  cases Patrol.crossing_turn ht with
  | opens | changes | ticks => exact h.past s' hs'
  | apart hbefore _ _ hreads =>
    obtain ⟨-, hpast, -⟩ := r.after_of_not_reads hreads
    rw [hpast, hnone hbefore] at hs'
    exact h.past s' (by simpa using hs')
  | leaves hbefore _ _ hreads hsig =>
    obtain ⟨s, hp⟩ := hsome hbefore
    obtain ⟨-, hpast, -⟩ := r.after_of_not_reads hreads
    rw [hpast, hp] at hs'
    rcases List.mem_append.mp hs' with hs' | hs'
    · exact h.past s' hs'
    obtain rfl : s' = r.leave sig s := by simpa using hs'
    have hopen := h.present s hp
    rcases hsig with rfl | ⟨e, he⟩
    · -- the shutdown is no news
      rcases hfrom with ⟨hd, -⟩ | ⟨news, hnews, -⟩
      · exact Or.inr ⟨r.now, r.patrol.inbox, rfl, (Patrol.own_of_due hd).2.1 rfl, hopen.sent⟩
      · exact absurd news.2 (by rw [hnews]; simp [Signal.isNews])
    · rcases hfrom with ⟨hd, -⟩ | ⟨news, hnews, hi⟩
      · exact absurd (((Patrol.own_of_due hd).2.2 hbefore).symm.trans he) (by simp)
      · refine Or.inl ⟨r.now, e, news, rest, ?_, by rw [hnews]; exact he, ?_⟩
        · exact congrArg (fun o => some (r.now, o)) he
        · exact hopen.sent.trans (by rw [hi]; rfl)

theorem recorded_take (h : r.Recorded) {first : Bool} (ht : r.taken? first = some sig)
    (hrest : r.account.loop.session.AtRest) :
    (r.take sig (r.patrol.turn r.now r.shutDown first).1).Recorded := by
  obtain ⟨ha, -⟩ := Patrol.turn_of_taken ht
  have hafter := Patrol.reflector_turn_of_taken ht
  have hadds := adds_take h.reading (Patrol.crossing_turn ht)
  have htakes := Account.takes_signal h.account h.same hrest ha
  -- what is begun by the signal is begun in the account
  have hbegun : (r.begun? sig).toList.map (fun x => refreshed x.stored) =
      sig.resyncs r.account.stored := by
    cases sig with
    | resyncDue t =>
      obtain ⟨-, -, ticker, -, -, hbegun⟩ := begun_of_resyncDue ht
      rw [hbegun]
      rfl
    | _ => rfl
  refine ⟨Account.kept_perform h.account _, Loop.replicates_perform h.replicates (.signal sig), ?_,
    hadds.reading, fun hp => ?_, open_take h ht, over_take h ht, ?_, ?_, fun x hx => ?_⟩
  · exact htakes.reflector.trans (congrArg some hafter.symm)
  · exact (Patrol.asked_turn_of_taken ht).trans (hadds.reading.trans hp)
  · rw [hadds.resyncs, List.map_append, hbegun, ← h.resyncs]
    exact htakes.resyncs
  · rw [hadds.changes, ← h.changes, ← filterMap_concat]
    exact congrArg _ htakes.taken
  · rw [hadds.resyncs] at hx
    rcases List.mem_append.mp hx with hx | hx
    · exact h.ordered x hx
    · cases sig with
      | resyncDue t =>
        obtain ⟨-, -, ticker, -, -, hbegun⟩ := begun_of_resyncDue ht
        rw [hbegun] at hx
        obtain rfl := List.mem_singleton.mp hx
        have hsound := h.account.calm.kept.sound
        rw [h.account.session] at hsound
        exact Store.list_ordered hsound
      | _ => exact absurd hx List.not_mem_nil

theorem recorded_perform (h : r.Recorded) (a : Act α) : (r.perform a).Recorded := by
  cases a with
  | pass time => exact { h with }
  | shutDown => exact recorded_shutDown h
  | arrive news => exact recorded_arrive h news
  | request q => exact recorded_request h q
  | proceed => exact recorded_proceed h
  | turn first =>
    have hturns := turns_perform r first
    generalize r.perform (.turn first) = r' at hturns ⊢
    cases hturns with
    | takes hrest ht => exact recorded_take h ht hrest
    | idles ht => exact recorded_idle h ht
    | waits => exact h

theorem recorded_after (h : r.Recorded) (acts : List (Act α)) : (r.after acts).Recorded := by
  induction acts generalizing r with
  | nil => exact h
  | cons a acts ih => exact ih (recorded_perform h a)

end Recorded

/-! ## The beginning -/

section Begin

variable [Object α]

theorem recorded_begin (before : List Request) (resource : String) (policy : BackoffPolicy)
    (period : Option Nat) (now : Nat) :
    (begin before resource policy period now : Redelivery α).Recorded := by
  obtain ⟨hkept, hreplicates, hreflector, htaken, hresyncs⟩ :=
    (Account.unrun_requests (α := α) before).start resource policy period now
  obtain ⟨-, hphase⟩ := begin_spec (α := α) resource policy period now
  refine ⟨hkept, hreplicates, hreflector, ?_, fun hs => absurd hs Bool.false_ne_true,
    fun s hs => absurd hs (by simp [begin]), fun s hs => absurd hs List.not_mem_nil, hresyncs,
    congrArg (List.filterMap _) htaken, fun x hx => absurd hx List.not_mem_nil⟩
  show (Reflector.begin (α := α) resource policy period now).1.phase.isWatching = false
  cases hp : (Reflector.begin (α := α) resource policy period now).1.phase with
  | watching received =>
    rw [hp] at hphase
    exact absurd hphase.symm Bool.false_ne_true
  | _ => rfl

variable {before : List Request} {resource : String} {policy : BackoffPolicy}
  {period : Option Nat} {start : Nat}

theorem run_concat (before : List Request) (resource : String) (policy : BackoffPolicy)
    (period : Option Nat) (start : Nat) (acts : List (Act α)) (a : Act α) :
    run before resource policy period start (acts ++ [a]) =
      (run before resource policy period start acts).perform a :=
  List.foldl_append

theorem recorded_run (acts : List (Act α)) :
    (run before resource policy period start acts).Recorded :=
  recorded_after (recorded_begin ..) acts

/-! ## Resyncs -/

/-- What becomes of a run when a resync is begun: a stream is read and there was a list before, a
batch of everything stored begins, and the store is as it was. -/
structure Refreshes (x : Resync α) (r r' : Redelivery α) : Prop where
  reading : ∃ s, r.present = some s
  awake : r.shutDown = false
  listed : ∃ items version, .listed items version ∈ r.account.loop.taken
  time : x.time = r.now
  stored : x.stored = r.account.stored
  occasions : r'.account.transcript.ledger.occasions =
    r.account.transcript.ledger.occasions ++
      [.batch .resync (refreshed x.stored) r.account.loop.session.informer.registrations]
  store : r'.account.loop.session.informer.store = r.account.loop.session.informer.store

/-- Where there is a replica there was a list. -/
theorem listed_of_replica {taken : List (Signal α)} {m : SortedMap String α}
    (h : taken.foldl Signal.report none = some m) :
    ∃ items version, .listed items version ∈ taken := by
  induction taken using List.reverseRecOn generalizing m with
  | nil => exact absurd h (by simp)
  | append_singleton taken sig ih =>
    rw [List.foldl_append] at h
    have hold : ∀ {m'}, taken.foldl Signal.report none = some m' →
        ∃ items version, .listed items version ∈ taken ++ [sig] := fun hm =>
      let ⟨items, version, hmem⟩ := ih hm
      ⟨items, version, List.mem_append_left _ hmem⟩
    cases sig with
    | listed items version => exact ⟨items, version, by simp⟩
    | changed c =>
      obtain ⟨m', hm, -⟩ := Option.map_eq_some_iff.mp h
      exact hold hm
    | _ => exact hold h

theorem refreshes_take (h : r.Recorded) {first : Bool} {t : Nat}
    (ht : r.taken? first = some (.resyncDue t)) (hrest : r.account.loop.session.AtRest)
    {x : Resync α} (hx : r.begun? (.resyncDue t) = some x) (p : Patrol α) :
    Refreshes x r (r.take (.resyncDue t) p) := by
  obtain ⟨-, hs, ticker, -, -, hbegun⟩ := begun_of_resyncDue ht
  obtain rfl := Option.some.inj (hbegun.symm.trans hx)
  have ha := (Patrol.turn_of_taken ht).1
  have hw : r.patrol.phase.isWatching = true := by
    cases Patrol.crossing_turn ht with
    | ticks _ hbefore => exact hbefore
    | leaves _ _ _ hreads | apart _ _ _ hreads => exact absurd hreads (by simp [Signal.reads])
  obtain ⟨m, hm⟩ := h.replicates.listed _ h.same (Phase.hasListed_of_isWatching hw)
  exact ⟨(present_of_reading h.reading).2 hw, hs, listed_of_replica hm, rfl, rfl,
    Account.occasions_resync h.account h.same hrest ha, Account.store_resync ..⟩

/-- An act begins no resync, or it is a turn that begins one. -/
theorem resyncs_perform (h : r.Recorded) (a : Act α) :
    (r.perform a).resyncs = r.resyncs ∨ ∃ first x, a = .turn first ∧
      (r.perform a).resyncs = r.resyncs ++ [x] ∧ Refreshes x r (r.perform a) := by
  cases a with
  | pass | shutDown | request | proceed => exact Or.inl rfl
  | arrive news =>
    exact Or.inl (flatMap_streams_arrive WatchStream.resyncs (fun _ _ => rfl) r news)
  | turn first =>
    have hturns := turns_perform r first
    generalize hr' : r.perform (.turn first) = r' at hturns ⊢
    cases hturns with
    | @takes sig hrest ht =>
      have hadds := (adds_take h.reading (Patrol.crossing_turn ht)).resyncs
      cases hbegun : r.begun? sig with
      | none =>
        rw [hbegun] at hadds
        exact Or.inl (hadds.trans (List.append_nil _))
      | some x =>
        rw [hbegun] at hadds
        cases sig with
        | resyncDue t => exact Or.inr ⟨first, x, rfl, hadds, refreshes_take h ht hrest hbegun _⟩
        | _ => exact absurd hbegun (by simp [begun?])
    | idles | waits => exact Or.inl rfl

/-- Every resync was begun by a turn. -/
theorem exists_refreshes (acts : List (Act α)) :
    ∀ x ∈ (run before resource policy period start acts).resyncs, ∃ pre first rest,
      acts = pre ++ .turn first :: rest ∧
        Refreshes x (run before resource policy period start pre)
          (run before resource policy period start (pre ++ [.turn first])) := by
  induction acts using List.reverseRecOn with
  | nil => exact fun x hx => absurd hx List.not_mem_nil
  | append_singleton acts a ih =>
    intro x hx
    have hold : x ∈ (run before resource policy period start acts).resyncs →
        ∃ pre first rest, acts ++ [a] = pre ++ .turn first :: rest ∧ _ := fun hx =>
      let ⟨pre, first, rest, he, hr⟩ := ih x hx
      ⟨pre, first, rest ++ [a], by rw [he]; simp, hr⟩
    have hrecorded : (run before resource policy period start acts).Recorded := recorded_run acts
    rcases resyncs_perform hrecorded a with hsame | ⟨first, y, rfl, hone, hrefreshes⟩
    · rw [run_concat, hsame] at hx
      exact hold hx
    · rw [run_concat, hone] at hx
      rcases List.mem_append.mp hx with hx | hx
      · exact hold hx
      · obtain rfl := List.mem_singleton.mp hx
        exact ⟨acts, first, [], rfl, by rw [run_concat]; exact hrefreshes⟩

end Begin

end Redelivery

end InformerHub
