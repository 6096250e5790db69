import InformerHub.Proofs.Rounds

/-!
# The list and watch loop and its source

A loop that waits for its source has asked it for something: for a list, with a limit to the time,
or for a watch, whose stream it then reads.  `Patrol` is a loop together with what it has asked for,
what has come in answer and was not taken yet, and the legs that it has gone through: one per list
that it has asked for.

A turn of the loop takes what is due, or asks (`turn`).  What is due is decided in one place
(`Reflector.due?`); `Stride` lists all that a turn can do, and `stride_turn` is where the turn is
opened.
-/

namespace InformerHub

open Reflector

variable {α : Type}

namespace Reflector

/-- Whether a signal comes from the source. -/
def Signal.isNews : Signal α → Bool
  | .listed .. | .listFailed _ | .opened | .openFailed _ | .changed _ | .streamFailed _
  | .streamEnded => true
  | _ => false

/-- Whether a phase reads a stream. -/
def Phase.isWatching : Phase → Bool
  | .watching _ => true
  | _ => false

end Reflector

/-- Something from the source. -/
abbrev News (α : Type) : Type := { sig : Signal α // sig.isNews = true }

/-- A round from its list on. -/
structure Leg where
  /-- When the list was asked for. -/
  start : Nat
  /-- When the list came, and in which version. -/
  listed : Option (Nat × String)
  /-- The version from which a watch was asked for. -/
  watched : Option String
  deriving DecidableEq, Repr

/-- A round that is over. -/
structure PastLeg extends Leg where
  stop : Nat
  round : Round
  deriving DecidableEq, Repr

/-- A list and watch loop, and its dealings with the source. -/
structure Patrol (α : Type) where
  course : Course
  /-- Whether it has asked for what its phase waits for. -/
  asked : Bool
  /-- The end of the pause, or of the time for the list. -/
  alarm : Option Nat
  /-- What has come from the source, the first of it first. -/
  inbox : List (News α)
  past : List PastLeg
  present : Option Leg

namespace Patrol

abbrev reflector (p : Patrol α) : Reflector := p.course.reflector

abbrev phase (p : Patrol α) : Phase := p.course.reflector.phase

/-- What the loop is due to take, if anything. -/
def due? (p : Patrol α) (now : Nat) (shutDown shutDownFirst : Bool) : Option (Cue α) :=
  p.reflector.due? now shutDown shutDownFirst (p.alarm.any fun a => a ≤ now) (!p.inbox.isEmpty)

/-- The present leg once a signal is taken. -/
def legAfter (p : Patrol α) (now : Nat) (sig : Signal α) : Option Leg :=
  match sig, sig.ending? with
  | .listed _ version, _ => p.present.map fun leg => { leg with listed := some (now, version) }
  | _, some _ => none
  | _, none => p.present

/-- The legs that are over once a signal is taken. -/
def pastAfter (p : Patrol α) (now : Nat) (sig : Signal α) : List PastLeg :=
  match sig.ending? with
  | some e => p.past ++ p.present.toList.map fun leg =>
      { leg with stop := now, round := ⟨e, p.course.delivered⟩ }
  | none => p.past

/-- The loop takes a signal that it waits for.  What it asks for next it has not asked for yet,
unless it goes on to read its stream. -/
def hear (p : Patrol α) (now : Nat) (sig : Signal α) (rest : List (News α)) : Patrol α where
  course := p.course.take sig
  asked := (p.course.take sig).reflector.phase.isWatching
  alarm := none
  inbox := if p.phase.isWatching && (p.course.take sig).reflector.phase.isWatching then rest else []
  past := p.pastAfter now sig
  present := p.legAfter now sig

/-- The loop asks its source, or sets a timer, for what its phase waits for. -/
def ask (p : Patrol α) (now : Nat) : Patrol α :=
  match p.phase with
  | .backingOff delay => { p with asked := true, alarm := some (Duration.timerEnd now delay) }
  | .listing =>
    { p with
      asked := true, alarm := some (Duration.timerEnd now p.reflector.policy.timeout)
      present := some ⟨now, none, none⟩ }
  | .opening version =>
    { p with
      asked := true
      present := p.present.map fun leg => { leg with watched := some version } }
  | .watching _ | .ended _ => p

/-- A turn of the loop, and the effects to carry out. -/
def turn (p : Patrol α) (now : Nat) (shutDown shutDownFirst : Bool) :
    Patrol α × List (Effect α) :=
  let take (sig : Signal α) (rest : List (News α)) :=
    if p.phase.awaits sig then (p.hear now sig rest, (p.reflector.step sig).2)
    else ({ p with inbox := rest }, [])
  match p.due? now shutDown shutDownFirst, p.inbox with
  | some (.own sig), inbox => take sig inbox
  | some .arrival, news :: rest => take news.1 rest
  | some .arrival, [] => (p, [])
  | none, _ => (if p.asked then p else p.ask now, [])

/-- Something comes from the source, which reaches the loop if it has asked for it. -/
def arrive (p : Patrol α) (news : News α) : Patrol α :=
  if p.asked && p.phase.awaits news.1 then { p with inbox := p.inbox ++ [news] } else p

/-- A loop that has asked for nothing yet. -/
def ofReflector (r : Reflector) : Patrol α := ⟨⟨r, [], false⟩, false, none, [], [], none⟩

/-! ## What is due -/

section Due

variable {r : Reflector} {now : Nat} {shutDown first timeUp arrived : Bool}

/-- All that can be due. -/
inductive Due (r : Reflector) (now : Nat) (shutDown first timeUp arrived : Bool) : Cue α → Prop
  | shutdown (hs : shutDown = true) (hp : ∀ o, r.phase ≠ .ended o) :
    Due r now shutDown first timeUp arrived (.own .shutdown)
  | backoffOver {delay : Nat} (hp : r.phase = .backingOff delay) (ht : timeUp = true) :
    Due r now shutDown first timeUp arrived (.own .backoffOver)
  | listTimedOut (hp : r.phase = .listing) (hs : shutDown = false) (ha : arrived = false)
    (ht : timeUp = true) : Due r now shutDown first timeUp arrived (.own .listTimedOut)
  | resync {received : Bool} (hp : r.phase = .watching received) (hs : shutDown = false) :
    Due r now shutDown first timeUp arrived (.own (.resyncDue now))
  | arrival (hs : shutDown = false) (ha : arrived = true) :
    Due r now shutDown first timeUp arrived .arrival

theorem due_of_due? {cue : Cue α}
    (h : r.due? now shutDown first timeUp arrived = some cue) :
    Due r now shutDown first timeUp arrived cue := by
  unfold Reflector.due? at h
  cases hp : r.phase with
  | backingOff delay =>
    simp only [hp] at h
    split at h
    next ht => exact Option.some.inj h ▸ .backoffOver hp (Bool.and_eq_true_iff.mp ht).1
    next =>
      split at h
      next hs => exact Option.some.inj h ▸ .shutdown hs (by simp [hp])
      next => exact absurd h (by simp)
  | listing =>
    simp only [hp] at h
    split at h
    next hs => exact Option.some.inj h ▸ .shutdown hs (by simp [hp])
    next hs =>
      have hs := Bool.eq_false_iff.mpr hs
      split at h
      next ha => exact Option.some.inj h ▸ .arrival hs ha
      next ha =>
        split at h
        next ht => exact Option.some.inj h ▸ .listTimedOut hp hs (Bool.eq_false_iff.mpr ha) ht
        next => exact absurd h (by simp)
  | opening version =>
    simp only [hp] at h
    split at h
    next hs => exact Option.some.inj h ▸ .shutdown hs (by simp [hp])
    next hs =>
      split at h
      next ha => exact Option.some.inj h ▸ .arrival (Bool.eq_false_iff.mpr hs) ha
      next => exact absurd h (by simp)
  | watching received =>
    simp only [hp] at h
    split at h
    next hs => exact Option.some.inj h ▸ .shutdown hs (by simp [hp])
    next hs =>
      have hs := Bool.eq_false_iff.mpr hs
      split at h
      next => exact Option.some.inj h ▸ .resync hp hs
      next =>
        split at h
        next ha => exact Option.some.inj h ▸ .arrival hs ha
        next => exact absurd h (by simp)
  | ended o =>
    simp only [hp] at h
    exact absurd h (by simp)

/-- What a loop takes of its own, it waits for. -/
theorem awaits_of_due {sig : Signal α}
    (h : Due r now shutDown first timeUp arrived (.own sig)) : r.phase.awaits sig = true := by
  cases h with
  | shutdown _ hp =>
    cases hr : r.phase with
    | ended o => exact absurd hr (hp o)
    | _ => rfl
  | backoffOver hp | listTimedOut hp | resync hp =>
    rw [hp]
    rfl

end Due

/-! ## What a turn can do -/

variable {p : Patrol α} {now : Nat} {shutDown first : Bool}

theorem ask_of_backingOff {delay : Nat} (hp : p.phase = .backingOff delay) :
    p.ask now = { p with asked := true, alarm := some (Duration.timerEnd now delay) } := by
  unfold ask
  rw [hp]

theorem ask_of_listing (hp : p.phase = .listing) :
    p.ask now = { p with
      asked := true, alarm := some (Duration.timerEnd now p.reflector.policy.timeout)
      present := some ⟨now, none, none⟩ } := by
  unfold ask
  rw [hp]

theorem ask_of_opening {version : String} (hp : p.phase = .opening version) :
    p.ask now = { p with
      asked := true
      present := p.present.map fun leg => { leg with watched := some version } } := by
  unfold ask
  rw [hp]

theorem ask_of_ended {o : Outcome} (hp : p.phase = .ended o) : p.ask now = p := by
  unfold ask
  rw [hp]

/-- The turn of a loop that is to take something of its own. -/
theorem turn_of_due {sig : Signal α} (h : p.due? now shutDown first = some (.own sig)) :
    p.turn now shutDown first = (p.hear now sig p.inbox, (p.reflector.step sig).2) := by
  have ha : p.phase.awaits sig = true := awaits_of_due (due_of_due? h)
  unfold turn
  dsimp only
  rw [h]
  exact if_pos ha

/-- The turn of a loop that is to take nothing. -/
theorem turn_of_none (h : p.due? now shutDown first = none) :
    p.turn now shutDown first = (if p.asked then p else p.ask now, []) := by
  unfold turn
  rw [h]

/-- What is due to a loop at an instant. -/
abbrev DueAt (p : Patrol α) (now : Nat) (shutDown first : Bool) : Cue α → Prop :=
  Due p.reflector now shutDown first (p.alarm.any fun a => a ≤ now) (!p.inbox.isEmpty)

/-- All that a turn can do. -/
inductive Stride (p : Patrol α) (now : Nat) (shutDown first : Bool) :
    Patrol α → List (Effect α) → Prop
  | idle : Stride p now shutDown first p []
  | asks (hd : p.due? now shutDown first = none) (ha : p.asked = false) :
    Stride p now shutDown first (p.ask now) []
  /-- Something came that the loop does not wait for. -/
  | drops {news : News α} {rest : List (News α)} (hi : p.inbox = news :: rest) :
    Stride p now shutDown first { p with inbox := rest } []
  /-- The loop takes what its own timers bring, or the shutdown. -/
  | hears {sig : Signal α} (hd : DueAt p now shutDown first (.own sig))
    (ha : p.phase.awaits sig = true) :
    Stride p now shutDown first (p.hear now sig p.inbox) (p.reflector.step sig).2
  /-- The loop takes what has come from its source. -/
  | learns (news : News α) {rest : List (News α)} (hi : p.inbox = news :: rest)
    (hs : shutDown = false) (ha : p.phase.awaits news.1 = true) :
    Stride p now shutDown first (p.hear now news.1 rest) (p.reflector.step news.1).2

/-- A turn does one of the things that are listed. -/
theorem stride_turn (p : Patrol α) (now : Nat) (shutDown first : Bool) :
    Stride p now shutDown first (p.turn now shutDown first).1 (p.turn now shutDown first).2 := by
  cases hd : p.due? now shutDown first with
  | none =>
    rw [turn_of_none hd]
    dsimp only
    split
    next => exact .idle
    next ha => exact .asks hd (Bool.eq_false_iff.mpr ha)
  | some cue =>
    have hdue : DueAt p now shutDown first cue := due_of_due? hd
    cases cue with
    | own sig =>
      rw [turn_of_due hd]
      exact .hears hdue (awaits_of_due hdue)
    | arrival =>
      have hs : shutDown = false := by
        cases hdue with
        | arrival hs => exact hs
      unfold turn
      rw [hd]
      split
      next hcue => exact absurd hcue (by simp)
      next news rest _ hi =>
        dsimp only
        split
        next ha => exact .learns news hi hs ha
        next => exact .drops hi
      next => exact .idle
      next hcue => exact absurd hcue (by simp)

/-! ## A signal that is taken -/

section Hear

variable {sig : Signal α} (now : Nat) (rest : List (News α))

theorem course_hear (ha : p.phase.awaits sig = true) :
    (p.hear now sig rest).course = p.course.note sig (p.reflector.step sig).1 :=
  if_pos ha

theorem reflector_hear (ha : p.phase.awaits sig = true) :
    (p.hear now sig rest).reflector = (p.reflector.step sig).1 :=
  congrArg Course.reflector (course_hear now rest ha)

/-- A signal that ends no round leaves the legs that are over as they are. -/
theorem past_hear (he : sig.ending? = none) : (p.hear now sig rest).past = p.past := by
  show p.pastAfter now sig = p.past
  unfold pastAfter
  rw [he]

/-- A signal that ends a round ends its leg. -/
theorem past_hear_of_ending {e : Ending} (he : sig.ending? = some e) {leg : Leg}
    (hleg : p.present = some leg) : (p.hear now sig rest).past =
      p.past ++ [{ leg with stop := now, round := ⟨e, p.course.delivered⟩ }] := by
  show p.pastAfter now sig = _
  unfold pastAfter
  rw [he, hleg]
  rfl

theorem present_hear_of_ending {e : Ending} (he : sig.ending? = some e) :
    (p.hear now sig rest).present = none := by
  show p.legAfter now sig = none
  unfold legAfter
  split
  next => exact absurd he (by simp [Signal.ending?])
  next => rfl
  next hn => exact absurd (hn.symm.trans he) (by simp)

/-- News that are left over are kept for as long as the loop reads the same stream. -/
theorem inbox_hear_of_not_watching (h : (p.hear now sig rest).phase.isWatching = false) :
    (p.hear now sig rest).inbox = [] := by
  have h : (p.course.take sig).reflector.phase.isWatching = false := h
  show (if _ then rest else []) = []
  rw [h, Bool.and_false]
  rfl

end Hear

end Patrol

end InformerHub
