import Mathlib.Data.List.Chain
import InformerHub.Proofs.Rhythm
import InformerHub.Proofs.Streams

/-!
# Resyncs and streams

From time to time an informer tells of everything stored once more.  The ticks that make it do so
come from a ticker that goes on all the time, but the loop looks at it only while it reads a stream.

> Resyncs come while a stream is read and at any other time not.  Each tells of what is stored, in
> the order of the keys, and changes nothing; they are a period apart, but for the tolerance of the
> ticker.  The changes of a stream are made one after the other up to its end, wherever resyncs fall
> between them (`redelivers`).

`Paced` is the invariant about the ticker: how far the next tick is away from the last one (`Next`),
and which ticks are still to be made up on the present stream (`Behind`).  That a stream is drained
goes by what is left of it and by how late the ticker is (`lag`): at rest, each turn makes that
less.
-/

namespace InformerHub

open Informer Session Reflector

variable {α : Type}

/-! ## Ticks -/

namespace Ticker

variable {t : Ticker}

theorem due_take (h : Delays t.period) (now : Nat) :
    (t.take now).due =
      if now ≤ t.due + tolerance then t.due + t.period else now + t.period :=
  h t.due now

theorem period_take (t : Ticker) (now : Nat) : (t.take now).period = t.period := rfl

theorem due_le_due_take (h : Delays t.period) (now : Nat) : t.due ≤ (t.take now).due := by
  rw [due_take h]
  split <;> omega

/-- The next tick is due a period after one that was taken, but for the tolerance. -/
theorem le_due_take (h : Delays t.period) (now : Nat) :
    now + t.period ≤ (t.take now).due + tolerance := by
  rw [due_take h]
  split <;> omega

theorem due_take_le (h : Delays t.period) {now : Nat} (hdue : t.due ≤ now) :
    (t.take now).due ≤ now + t.period := by
  rw [due_take h]
  split <;> omega

/-- So many of the ticks that were missed before `opened` have been taken.  If the next one was
missed too, then all of them were due within the tolerance. -/
def Behind (t : Ticker) (opened missed : Nat) : Prop :=
  t.due < opened → missed = 0 ∨ ∃ first, first + missed * t.period = t.due ∧
    opened ≤ first + tolerance

/-- So many ticks of a period can be made up. -/
def MadeUp (period missed : Nat) : Prop := missed ≤ 1 ∨ (missed - 1) * period < tolerance

variable {opened missed now : Nat}

/-- With a period that is not below the tolerance it is one at most. -/
theorem MadeUp.le_one {period : Nat} (h : MadeUp period missed) (hp : tolerance ≤ period) :
    missed ≤ 1 := by
  rcases h with hle | hlt
  · exact hle
  · by_contra hmore
    have hone : 1 * period ≤ (missed - 1) * period := Nat.mul_le_mul_right _ (by omega)
    omega

/-- A tick that was not missed is not made up. -/
theorem Behind.on_time (h : Delays t.period) (hdue : opened ≤ t.due) :
    (t.take now).Behind opened missed := by
  intro hlt
  have := due_le_due_take h now
  omega

/-- One more tick is made up. -/
theorem Behind.late (hb : t.Behind opened missed) (h : Delays t.period) (hdue : t.due < opened)
    (hopened : opened ≤ now) :
    (t.take now).Behind opened (missed + 1) ∧ MadeUp t.period (missed + 1) := by
  have hmade : MadeUp t.period (missed + 1) := by
    rcases hb hdue with rfl | ⟨first, hfirst, hle⟩
    · exact Or.inl (Nat.le_refl 1)
    · refine Or.inr ?_
      rw [Nat.add_sub_cancel]
      omega
  refine ⟨fun hlt => Or.inr ?_, hmade⟩
  rw [due_take h] at hlt ⊢
  split at hlt
  next hin =>
    -- the tick was within the tolerance, so the first one that is made up was as well
    rw [if_pos hin, period_take, Nat.succ_mul]
    rcases hb hdue with rfl | ⟨first, hfirst, hle⟩
    · exact ⟨t.due, by omega, by omega⟩
    · exact ⟨first, by omega, hle⟩
  next => omega

end Ticker

/-! ## Streams and their times -/

namespace WatchStream

/-- The instant up to which a stream has been read. -/
def readUntil (s : WatchStream α) (now : Nat) : Nat :=
  match s.closed with
  | some (t, _) => t
  | none => now

/-- The number of resyncs that were due before the stream was opened. -/
def missed (s : WatchStream α) : Nat := s.resyncs.countP fun x => x.due < s.opened

/-- What a stream says about its resyncs: they were begun while it was read, and no more of them
than can be were due before that. -/
structure Kept (period : Option Nat) (now : Nat) (s : WatchStream α) : Prop where
  opened : s.opened ≤ s.readUntil now
  within : ∀ x ∈ s.resyncs, s.opened ≤ x.time ∧ x.time ≤ s.readUntil now
  madeUp : ∀ p, period = some p → Ticker.MadeUp p s.missed

/-- A stream with the same times. -/
structure Like (s s' : WatchStream α) : Prop where
  opened : s'.opened = s.opened
  closed : s'.closed = s.closed
  resyncs : s'.resyncs = s.resyncs

theorem like_refl (s : WatchStream α) : s.Like s := ⟨rfl, rfl, rfl⟩

section Kept

variable {s s' : WatchStream α} {period : Option Nat} {now now' : Nat}

theorem Like.missed (h : s.Like s') : s'.missed = s.missed := by
  unfold WatchStream.missed
  rw [h.resyncs, h.opened]

theorem readUntil_mono (s : WatchStream α) (h : now ≤ now') :
    s.readUntil now ≤ s.readUntil now' := by
  unfold readUntil
  split
  · exact Nat.le_refl _
  · exact h

theorem Kept.like (h : s.Kept period now) (hlike : s.Like s') (hnow : now ≤ now') :
    s'.Kept period now' := by
  have huntil : s.readUntil now ≤ s'.readUntil now' := by
    rw [show s'.readUntil now' = s.readUntil now' by unfold readUntil; rw [hlike.closed]]
    exact readUntil_mono s hnow
  refine ⟨?_, fun x hx => ?_, fun p hp => ?_⟩
  · rw [hlike.opened]
    exact h.opened.trans huntil
  · rw [hlike.resyncs] at hx
    rw [hlike.opened]
    exact ⟨(h.within x hx).1, (h.within x hx).2.trans huntil⟩
  · rw [hlike.missed]
    exact h.madeUp p hp

end Kept

end WatchStream

namespace Redelivery

variable {r : Redelivery α} {s : WatchStream α} {sig : Signal α}

/-! ## What is kept of the ticker -/

/-- The instant of the last resync, or of the start if there was none. -/
def lastResync (start : Nat) (resyncs : List (Resync α)) : Nat :=
  (resyncs.getLast?.map Resync.time).getD start

/-- The next tick of a run that has begun at `start`, has had these resyncs, and reads this
stream. -/
structure Next (start : Nat) (resyncs : List (Resync α)) (present : Option (WatchStream α))
    (t : Ticker) : Prop where
  first : start + t.period ≤ t.due
  earliest : ∀ x ∈ resyncs.getLast?, x.time + t.period ≤ t.due + Ticker.tolerance
  latest : t.due ≤ lastResync start resyncs + t.period
  behind : ∀ s, present = some s → t.Behind s.opened s.missed

/-- The resyncs of a run that has begun at `start` have kept to their times, and the next one is
going to. -/
structure Paced (period : Option Nat) (start : Nat) (r : Redelivery α) : Prop where
  ticker : r.patrol.reflector.resync.map Ticker.period = period
  next : ∀ t, r.patrol.reflector.resync = some t → Next start r.resyncs r.present t
  resyncs : ∀ x ∈ r.resyncs, x.due ≤ x.time ∧ ∃ p, period = some p ∧ start + p ≤ x.due
  apart : ∀ p, period = some p →
    r.resyncs.IsChain fun x y => x.time + p ≤ y.time + Ticker.tolerance
  streams : ∀ s ∈ r.streams, s.Kept period r.now

section Paced

variable {period : Option Nat} {start : Nat}

/-- What neither begins a resync nor opens or leaves a stream. -/
theorem Paced.of_like (h : r.Paced period start) {r' : Redelivery α}
    (hticker : r'.patrol.reflector.resync = r.patrol.reflector.resync) (hnow : r.now ≤ r'.now)
    (hpast : r'.past = r.past)
    (hpresent : r'.present = r.present ∨
      ∃ s s', r.present = some s ∧ r'.present = some s' ∧ s.Like s') :
    r'.Paced period start := by
  have hlike : ∀ s', r'.present = some s' → ∃ s, r.present = some s ∧ s.Like s' := by
    intro s' hs'
    rcases hpresent with he | ⟨s, s'', hs, hs'', hlike⟩
    · exact ⟨s', he ▸ hs', s'.like_refl⟩
    · obtain rfl := Option.some.inj (hs'.symm.trans hs'')
      exact ⟨s, hs, hlike⟩
  have hresyncs : r'.resyncs = r.resyncs := by
    rcases hpresent with he | ⟨s, s', hs, hs', hlike⟩
    · unfold Redelivery.resyncs Redelivery.streams
      rw [hpast, he]
    · rw [resyncs_of_present hs, resyncs_of_present hs', hpast, hlike.resyncs]
  refine ⟨hticker ▸ h.ticker, fun t ht => ?_, hresyncs ▸ h.resyncs, hresyncs ▸ h.apart, ?_⟩
  · have hnext := h.next t (hticker ▸ ht)
    rw [hresyncs]
    refine { hnext with behind := fun s' hs' => ?_ }
    obtain ⟨s, hs, hlike⟩ := hlike s' hs'
    rw [hlike.opened, hlike.missed]
    exact hnext.behind s hs
  · intro s' hs'
    rcases List.mem_append.mp hs' with hs' | hs'
    · rw [hpast] at hs'
      exact (h.streams s' (List.mem_append_left _ hs')).like s'.like_refl hnow
    · obtain ⟨s, hs, hlike⟩ := hlike s' (Option.mem_toList.mp hs')
      exact (h.streams s (List.mem_append_right _ (Option.mem_toList.mpr hs))).like hlike hnow

theorem paced_arrive (h : r.Paced period start) (news : News α) :
    (r.arrive news).Paced period start := by
  obtain ⟨hreflector, -⟩ := arrive_patrol r.patrol news
  refine h.of_like (congrArg Reflector.resync hreflector) (Nat.le_refl _) rfl ?_
  cases hp : r.present with
  | none => exact Or.inl (congrArg (Option.map _) hp)
  | some s =>
    refine Or.inr ⟨s, _, rfl, congrArg (Option.map _) hp, ?_⟩
    split <;> exact ⟨rfl, rfl, rfl⟩

/-- A turn that takes nothing leaves the ticker as it is. -/
theorem paced_idle (h : r.Paced period start) {first : Bool} (ht : r.taken? first = none) :
    ({ r with patrol := (r.patrol.turn r.now r.shutDown first).1 } : Redelivery α).Paced
      period start :=
  h.of_like (congrArg Reflector.resync (Patrol.reflector_turn_of_none ht)) (Nat.le_refl _) rfl
    (Or.inl rfl)

/-- The present stream, with one more resync. -/
theorem kept_refresh {t : Ticker} (hs : s.Kept period r.now) (hclosed : s.closed = none)
    (hbehind : t.Behind s.opened s.missed) (hperiod : period = some t.period)
    (hdelays : Ticker.Delays t.period) {x : Resync α} (hx : x.due = t.due)
    (htime : x.time = r.now) :
    let s' : WatchStream α := { s with resyncs := s.resyncs ++ [x] }
    (t.take r.now).Behind s'.opened s'.missed ∧ s'.Kept period r.now := by
  intro s'
  have huntil : s.readUntil r.now = r.now := by unfold WatchStream.readUntil; rw [hclosed]
  have huntil' : s'.readUntil r.now = r.now := by unfold WatchStream.readUntil; rw [hclosed]
  have hopened : s.opened ≤ r.now := huntil ▸ hs.opened
  have hmissed : s'.missed = s.missed + if t.due < s.opened then 1 else 0 := by
    show (s.resyncs ++ [x]).countP (fun y => y.due < s.opened) = _
    rw [List.countP_append, ← hx]
    by_cases hlt : x.due < s.opened <;> simp [hlt] <;> rfl
  have hwithin : ∀ y ∈ s'.resyncs, s'.opened ≤ y.time ∧ y.time ≤ s'.readUntil r.now := by
    intro y hy
    rw [huntil']
    rcases List.mem_append.mp hy with hy | hy
    · exact huntil ▸ hs.within y hy
    · rw [List.mem_singleton.mp hy, htime]
      exact ⟨hopened, Nat.le_refl _⟩
  rw [hmissed]
  by_cases hlt : t.due < s.opened
  · obtain ⟨hbehind', hmade⟩ := hbehind.late hdelays hlt hopened
    rw [if_pos hlt] at hmissed ⊢
    refine ⟨hbehind', hopened.trans huntil'.ge, hwithin, fun p hp => ?_⟩
    obtain rfl := Option.some.inj (hperiod.symm.trans hp)
    rw [hmissed]
    exact hmade
  · rw [if_neg hlt] at hmissed ⊢
    refine ⟨Ticker.Behind.on_time hdelays (Nat.le_of_not_lt hlt), hopened.trans huntil'.ge,
      hwithin, fun p hp => ?_⟩
    rw [hmissed]
    exact hs.madeUp p hp

/-- The tick after one that has brought a resync. -/
theorem Next.refresh {resyncs : List (Resync α)} {present : Option (WatchStream α)} {t : Ticker}
    (h : Next start resyncs present t) (hdelays : Ticker.Delays t.period) {x : Resync α}
    (hdue : t.due ≤ x.time) (hbehind : (t.take x.time).Behind s.opened s.missed) :
    Next start (resyncs ++ [x]) (some s) (t.take x.time) where
  first := h.first.trans (Ticker.due_le_due_take hdelays x.time)
  earliest y hy := by
    rw [List.getLast?_concat] at hy
    obtain rfl := Option.some.inj hy
    exact Ticker.le_due_take hdelays x.time
  latest := by
    unfold lastResync
    rw [List.getLast?_concat]
    exact Ticker.due_take_le hdelays hdue
  behind s' hs' := by
    obtain rfl := Option.some.inj hs'
    exact hbehind

theorem paced_refresh (h : r.Paced period start) (hp : r.present = some s)
    (hclosed : s.closed = none) {t : Ticker} (ht : r.patrol.reflector.resync = some t)
    (hdue : t.due ≤ r.now) (hdelays : Ticker.Delays t.period) {r' : Redelivery α}
    (hticker : r'.patrol.reflector.resync = some (t.take r.now)) (hnow : r'.now = r.now)
    (hpast : r'.past = r.past) (hp' : r'.present =
      some { s with resyncs := s.resyncs ++ [⟨t.due, r.now, r.account.stored⟩] }) :
    r'.Paced period start := by
  have hperiod : period = some t.period := by rw [← h.ticker, ht]; rfl
  have hnext := h.next t ht
  obtain ⟨hbehind, hkept⟩ := kept_refresh (r := r)
    (h.streams s (by rw [streams_of_present hp]; simp)) hclosed (hnext.behind s hp) hperiod hdelays
    (x := ⟨t.due, r.now, r.account.stored⟩) rfl rfl
  have hresyncs : r'.resyncs = r.resyncs ++ [⟨t.due, r.now, r.account.stored⟩] := by
    rw [resyncs_of_present hp, resyncs_of_present hp', hpast, List.append_assoc]
  refine ⟨?_, fun t' ht' => ?_, fun x hx => ?_, fun p hp => ?_, fun s' hs' => ?_⟩
  · rw [hticker, hperiod]
    rfl
  · obtain rfl := Option.some.inj (hticker.symm.trans ht')
    rw [hresyncs, hp']
    exact hnext.refresh hdelays hdue hbehind
  · rw [hresyncs] at hx
    rcases List.mem_append.mp hx with hx | hx
    · exact h.resyncs x hx
    · obtain rfl := List.mem_singleton.mp hx
      exact ⟨hdue, t.period, hperiod, hnext.first⟩
  · rw [hresyncs]
    refine List.isChain_append.mpr ⟨h.apart p hp, List.isChain_singleton _, fun x hx y hy => ?_⟩
    obtain rfl := Option.some.inj hy
    obtain rfl := Option.some.inj (hperiod.symm.trans hp)
    exact (hnext.earliest x hx).trans (Nat.add_le_add_right hdue _)
  · rw [streams_of_present hp', hpast] at hs'
    rw [hnow]
    rcases List.mem_append.mp hs' with hs' | hs'
    · exact h.streams s' (List.mem_append_left _ hs')
    · rw [List.mem_singleton.mp hs']
      exact hkept

theorem paced_open (h : r.Paced period start) (hp : r.present = none) {r' : Redelivery α}
    (hticker : r'.patrol.reflector.resync = r.patrol.reflector.resync) (hnow : r'.now = r.now)
    (hpast : r'.past = r.past) (hp' : r'.present = some ⟨r.now, none, [], [], []⟩) :
    r'.Paced period start := by
  have hresyncs : r'.resyncs = r.resyncs := by
    rw [resyncs_of_none hp, resyncs_of_present hp', hpast]
    exact List.append_nil _
  refine ⟨hticker ▸ h.ticker, fun t ht => ?_, hresyncs ▸ h.resyncs, hresyncs ▸ h.apart,
    fun s' hs' => ?_⟩
  · rw [hresyncs]
    refine { h.next t (hticker ▸ ht) with behind := fun s' hs' _ => Or.inl ?_ }
    obtain rfl := Option.some.inj (hp'.symm.trans hs')
    rfl
  · rw [streams_of_present hp', hpast] at hs'
    rw [hnow]
    rcases List.mem_append.mp hs' with hs' | hs'
    · exact h.streams s' (List.mem_append_left _ hs')
    · rw [List.mem_singleton.mp hs']
      exact ⟨Nat.le_refl _, fun x hx => absurd hx List.not_mem_nil,
        fun p _ => Or.inl (Nat.zero_le 1)⟩

theorem paced_leave (h : r.Paced period start) (hp : r.present = some s)
    (hclosed : s.closed = none) {r' : Redelivery α}
    (hticker : r'.patrol.reflector.resync = r.patrol.reflector.resync) (hnow : r'.now = r.now)
    (hpast : r'.past = r.past ++ [r.leave sig s]) (hp' : r'.present = none) :
    r'.Paced period start := by
  have hresyncs : r'.resyncs = r.resyncs := by
    rw [resyncs_of_present hp, resyncs_of_none hp', hpast, List.flatMap_append,
      List.flatMap_singleton]
    rfl
  refine ⟨hticker ▸ h.ticker, fun t ht => ?_, hresyncs ▸ h.resyncs, hresyncs ▸ h.apart,
    fun s' hs' => ?_⟩
  · rw [hresyncs]
    exact { h.next t (hticker ▸ ht) with
      behind := fun s' hs' => absurd (hp'.symm.trans hs') (by simp) }
  · rw [streams_of_none hp', hpast] at hs'
    rw [hnow]
    rcases List.mem_append.mp hs' with hs' | hs'
    · exact h.streams s' (List.mem_append_left _ hs')
    · rw [List.mem_singleton.mp hs']
      have hs := h.streams s (by rw [streams_of_present hp]; simp)
      have huntil : s.readUntil r.now = r.now := by unfold WatchStream.readUntil; rw [hclosed]
      exact ⟨hs.opened.trans huntil.le,
        fun x hx => ⟨(hs.within x hx).1, (hs.within x hx).2.trans huntil.le⟩, hs.madeUp⟩

variable [Object α]

theorem paced_take (h : r.Paced period start) (hrecorded : r.Recorded)
    (hdelays : ∀ p, period = some p → Ticker.Delays p) {first : Bool}
    (ht : r.taken? first = some sig) :
    (r.take sig (r.patrol.turn r.now r.shutDown first).1).Paced period start := by
  obtain ⟨hnone, hsome⟩ := present_of_reading hrecorded.reading
  cases Patrol.crossing_turn ht with
  | opens hbefore _ hsame => exact paced_open h (hnone hbefore) hsame rfl rfl rfl
  | changes c hbefore _ hsame =>
    obtain ⟨s, hp⟩ := hsome hbefore
    refine h.of_like hsame (Nat.le_refl _) rfl (Or.inr ⟨s, _, hp, congrArg (Option.map _) hp, ?_⟩)
    exact ⟨rfl, rfl, rfl⟩
  | ticks now hbefore _ hticker =>
    obtain ⟨s, hp⟩ := hsome hbefore
    obtain ⟨rfl, -, t, hresync, hdue, hbegun⟩ := begun_of_resyncDue ht
    have hperiod : period = some t.period := by rw [← h.ticker, hresync]; rfl
    rw [hresync] at hticker
    have hresync? : r.resync? = some ⟨t.due, r.now, r.account.stored⟩ := hbegun
    have hp' : r.presentAfter (.resyncDue r.now) =
        some { s with resyncs := s.resyncs ++ [⟨t.due, r.now, r.account.stored⟩] } := by
      show Option.map (fun s : WatchStream α => _) r.present = _
      rw [hp, hresync?]
      rfl
    exact paced_refresh h hp (hrecorded.present s hp).closed hresync hdue
      (hdelays t.period hperiod) hticker rfl rfl hp'
  | leaves hbefore _ hsame hreads =>
    obtain ⟨s, hp⟩ := hsome hbefore
    obtain ⟨hpresent, hpast, -⟩ := r.after_of_not_reads hreads
    rw [hp] at hpast
    exact paced_leave h hp (hrecorded.present s hp).closed hsame rfl hpast hpresent
  | apart hbefore _ hsame hreads =>
    obtain ⟨hpresent, hpast, -⟩ := r.after_of_not_reads hreads
    have hp := hnone hbefore
    rw [hp] at hpast
    exact h.of_like hsame (Nat.le_refl _) (hpast.trans (List.append_nil _))
      (Or.inl (hpresent.trans hp.symm))

theorem paced_perform (h : r.Paced period start) (hrecorded : r.Recorded)
    (hdelays : ∀ p, period = some p → Ticker.Delays p) (a : Act α) :
    (r.perform a).Paced period start := by
  cases a with
  | pass time => exact h.of_like rfl (Nat.le_add_right ..) rfl (Or.inl rfl)
  | shutDown | request | proceed => exact h.of_like rfl (Nat.le_refl _) rfl (Or.inl rfl)
  | arrive news => exact paced_arrive h news
  | turn first =>
    have hturns := turns_perform r first
    generalize r.perform (.turn first) = r' at hturns ⊢
    cases hturns with
    | takes _ ht => exact paced_take h hrecorded hdelays ht
    | idles ht => exact paced_idle h ht
    | waits => exact h

end Paced

section Begin

variable [Object α]

theorem paced_begin (before : List Request) (resource : String) (policy : BackoffPolicy)
    (period : Option Nat) (now : Nat) :
    (begin before resource policy period now : Redelivery α).Paced period now := by
  refine ⟨?_, fun t ht => ?_, fun x hx => absurd hx List.not_mem_nil, fun p _ => .nil,
    fun s hs => absurd hs List.not_mem_nil⟩
  · show (period.map fun p => Ticker.mk (now + p) p).map Ticker.period = period
    rw [Option.map_map]
    exact Option.map_id' ..
  · obtain ⟨p, -, rfl⟩ := Option.map_eq_some_iff.mp ht
    exact ⟨Nat.le_refl _, fun x hx => absurd hx (by simp [resyncs, streams, begin]),
      Nat.le_refl _, fun s hs => absurd hs (by simp [begin])⟩

variable {before : List Request} {resource : String} {policy : BackoffPolicy}
  {period : Option Nat} {start : Nat}

theorem paced_run (hdelays : ∀ p, period = some p → Ticker.Delays p) (acts : List (Act α)) :
    (run before resource policy period start acts).Paced period start := by
  induction acts using List.reverseRecOn with
  | nil => exact paced_begin ..
  | append_singleton acts a ih =>
    rw [run_concat]
    exact paced_perform ih (recorded_run acts) hdelays a

end Begin

/-! ## What comes of a stream -/

/-- What comes on a stream is a change, or its end. -/
theorem news_cases {news : News α} (h : (Phase.watching false).awaits news.1 = true) :
    (∃ c : Change α, news = c.news) ∨ ∃ e, news.1.ending? = some e := by
  obtain ⟨sig, hnews⟩ := news
  cases sig with
  | changed c => exact Or.inl ⟨c, rfl⟩
  | streamFailed | streamEnded => exact Or.inr ⟨_, rfl⟩
  | shutdown | resyncDue => exact absurd hnews Bool.false_ne_true
  | _ => exact absurd h Bool.false_ne_true

/-- Whether an act is one of the loop and its deliveries. -/
def Act.isInner : Act α → Bool
  | .turn _ | .proceed => true
  | _ => false

/-- How much of a stream is left, and how late the ticker is. -/
def lag (r : Redelivery α) (s : WatchStream α) : Nat :=
  (s.sent.length - s.applied.length) +
    r.patrol.reflector.resync.elim 0 fun t => r.now + 1 - t.due

section Drains

variable [Object α]

/-- Without any more from elsewhere, everything is taken of a stream that comes before its end. -/
def Drains (r : Redelivery α) (s : WatchStream α) : Prop :=
  ∃ more s', (∀ a ∈ more, Act.isInner a = true) ∧ (r.after more).present = some s' ∧
    s'.opened = s.opened ∧ s'.sent = s.sent ∧ s'.Drained

theorem Drains.of_perform {a : Act α} (ha : a.isInner = true) {s' : WatchStream α}
    (hopened : s'.opened = s.opened) (hsent : s'.sent = s.sent) (h : (r.perform a).Drains s') :
    r.Drains s := by
  obtain ⟨more, s'', hinner, hp, ho, hs, hdrained⟩ := h
  exact ⟨a :: more, s'', List.forall_mem_cons.mpr ⟨ha, hinner⟩, hp, ho.trans hopened,
    hs.trans hsent, hdrained⟩

/-- Deliveries end, and they change nothing but the account. -/
theorem exists_atRest (r : Redelivery α) :
    ∃ n a, r.after (List.replicate n .proceed) = { r with account := a } ∧
      a.loop.session.AtRest := by
  obtain ⟨n, hn⟩ := comes_to_rest r.account.loop.session
  refine ⟨n, (List.replicate n Loop.Move.proceed).foldl Account.perform r.account, ?_, ?_⟩
  · clear hn
    induction n generalizing r with
    | zero => rfl
    | succ n ih => exact ih (r.perform .proceed)
  · rw [Account.loop_foldl]
    have hsession : ∀ (n : Nat) (l : Loop α),
        ((List.replicate n Loop.Move.proceed).foldl Loop.perform l).session =
          (List.replicate n Session.Act.proceed).foldl Session.perform l.session := by
      intro n l
      induction n generalizing l with
      | zero => rfl
      | succ n ih => exact ih (l.perform .proceed)
    rw [hsession]
    exact hn

theorem Drains.of_after {acts : List (Act α)} (hacts : ∀ a ∈ acts, a.isInner = true)
    (h : (r.after acts).Drains s) : r.Drains s := by
  obtain ⟨more, s', hinner, hp, hrest⟩ := h
  refine ⟨acts ++ more, s', fun a ha => ?_, ?_, hrest⟩
  · exact (List.mem_append.mp ha).elim (hacts a) (hinner a)
  · unfold after
    rw [List.foldl_append]
    exact hp

/-- What is due to a loop that reads a stream: a resync if it is time for one, and else whatever has
come. -/
theorem due?_of_present (h : r.Recorded) (hs : r.shutDown = false) (hp : r.present = some s)
    (first : Bool) : r.patrol.due? r.now r.shutDown first =
      if r.patrol.reflector.resync.any fun t => t.due ≤ r.now then some (.own (.resyncDue r.now))
      else if !r.patrol.inbox.isEmpty then some .arrival else none := by
  obtain ⟨received, hphase⟩ := Phase.exists_of_isWatching (h.watching hp)
  unfold Patrol.due? Reflector.due?
  rw [show r.patrol.reflector.phase = .watching received from hphase, hs]
  rfl

theorem taken?_of_due (h : r.Recorded) (hs : r.shutDown = false) (hp : r.present = some s)
    (hdue : (r.patrol.reflector.resync.any fun t => t.due ≤ r.now) = true) (first : Bool) :
    r.taken? first = some (.resyncDue r.now) := by
  unfold taken? Patrol.taken?
  rw [due?_of_present h hs hp, if_pos hdue]

/-- If it is not time for a resync, the loop takes the next change of its stream, unless the end of
the stream is next. -/
theorem taken?_of_not_due (h : r.Recorded) (hs : r.shutDown = false) (hp : r.present = some s)
    (hdue : (r.patrol.reflector.resync.any fun t => t.due ≤ r.now) = false) (first : Bool) :
    (∃ c, r.taken? first = some (.changed c)) ∨ s.Drained := by
  have hopen := h.present s hp
  unfold taken? Patrol.taken?
  rw [due?_of_present h hs hp, hdue]
  cases hi : r.patrol.inbox with
  | nil =>
    refine Or.inr ⟨[], ?_, fun _ hn => absurd hn (by simp)⟩
    rw [← hi]
    exact hopen.sent
  | cons news rest =>
    have ha := hopen.awaited news (by rw [hi]; exact List.mem_cons_self)
    rcases news_cases ha with ⟨c, rfl⟩ | ⟨e, he⟩
    · refine Or.inl ⟨c, ?_⟩
      have ha' : r.patrol.phase.awaits (.changed c) = true :=
        (Phase.awaits_of_isWatching (h.watching hp) _).trans ha
      exact if_pos ha'
    · refine Or.inr ⟨news :: rest, hi ▸ hopen.sent, fun n hn => ⟨e, ?_⟩⟩
      obtain rfl := Option.some.inj hn
      exact he

/-- A turn that takes something of a stream, and goes on to read it. -/
theorem turn_of_taken (hrest : r.account.loop.session.AtRest) {first : Bool}
    (ht : r.taken? first = some sig) :
    r.perform (.turn first) = r.take sig (r.patrol.turn r.now r.shutDown first).1 := by
  unfold perform turn
  dsimp only
  rw [if_pos (List.isEmpty_iff.mpr hrest), ht]

/-- A change that is taken is one less to be taken. -/
theorem lag_change (h : r.Recorded) (hp : r.present = some s)
    (hrest : r.account.loop.session.AtRest) {c : Change α}
    (ht : r.taken? false = some (.changed c)) :
    ∃ s', (r.perform (.turn false)).present = some s' ∧ s'.opened = s.opened ∧ s'.sent = s.sent ∧
      (r.perform (.turn false)).lag s' < r.lag s := by
  rw [turn_of_taken hrest ht]
  have hrecorded := recorded_take h ht hrest
  have hcross := Patrol.crossing_turn ht
  generalize (r.patrol.turn r.now r.shutDown false).1 = p at hrecorded hcross ⊢
  have hp' : (r.take (.changed c) p).present = some { s with applied := s.applied ++ [c] } :=
    congrArg (Option.map _) hp
  refine ⟨_, hp', rfl, rfl, ?_⟩
  have hsame : p.reflector.resync = r.patrol.reflector.resync := by
    cases hcross with
    | changes _ _ _ hsame => exact hsame
    | leaves _ _ _ hreads | apart _ _ _ hreads => exact absurd hreads (by simp [Signal.reads])
  have hlength := congrArg List.length (hrecorded.present _ hp').sent
  rw [List.length_append, List.length_map, List.length_append] at hlength
  have hlength : s.sent.length = s.applied.length + 1 + p.inbox.length := hlength
  unfold lag
  show s.sent.length - (s.applied ++ [c]).length + p.reflector.resync.elim 0 _ < _
  rw [hsame, List.length_append]
  exact Nat.add_lt_add_right (by simp only [List.length_singleton]; omega) _

/-- A resync lets the ticker catch up. -/
theorem lag_resync (hp : r.present = some s) (hrest : r.account.loop.session.AtRest) {t : Ticker}
    (hresync : r.patrol.reflector.resync = some t) (hdue : t.due ≤ r.now)
    (hperiod : 0 < t.period) (hdelays : Ticker.Delays t.period)
    (ht : r.taken? false = some (.resyncDue r.now)) :
    ∃ s', (r.perform (.turn false)).present = some s' ∧ s'.opened = s.opened ∧ s'.sent = s.sent ∧
      (r.perform (.turn false)).lag s' < r.lag s := by
  rw [turn_of_taken hrest ht]
  have hcross := Patrol.crossing_turn ht
  generalize (r.patrol.turn r.now r.shutDown false).1 = p at hcross ⊢
  have hp' : (r.take (.resyncDue r.now) p).present =
      some { s with resyncs := s.resyncs ++ r.resync?.toList } := congrArg (Option.map _) hp
  refine ⟨_, hp', rfl, rfl, ?_⟩
  have hticker : p.reflector.resync = some (t.take r.now) := by
    cases hcross with
    | ticks _ _ _ hticker => rw [hticker, hresync]; rfl
    | leaves _ _ _ hreads | apart _ _ _ hreads => exact absurd hreads (by simp [Signal.reads])
  have hlater : t.due < (t.take r.now).due := by
    rw [Ticker.due_take hdelays]
    split <;> omega
  unfold lag
  show _ + p.reflector.resync.elim 0 (fun t => r.now + 1 - t.due) < _
  rw [hticker, hresync]
  show s.sent.length - s.applied.length + (r.now + 1 - (t.take r.now).due) <
    s.sent.length - s.applied.length + (r.now + 1 - t.due)
  omega

/-- At rest a stream that is not drained becomes less by a turn. -/
theorem lag_turn (h : r.Recorded) (hs : r.shutDown = false) (hp : r.present = some s)
    (hrest : r.account.loop.session.AtRest)
    (hticker : ∀ t, r.patrol.reflector.resync = some t → 0 < t.period ∧ Ticker.Delays t.period) :
    s.Drained ∨ ∃ s', (r.perform (.turn false)).present = some s' ∧ s'.opened = s.opened ∧
      s'.sent = s.sent ∧ (r.perform (.turn false)).lag s' < r.lag s := by
  cases hdue : r.patrol.reflector.resync.any fun t => t.due ≤ r.now with
  | true =>
    obtain ⟨t, hresync, hle⟩ := (Option.any_eq_true ..).mp hdue
    obtain ⟨hperiod, hdelays⟩ := hticker t hresync
    exact Or.inr (lag_resync hp hrest hresync (of_decide_eq_true hle) hperiod hdelays
      (taken?_of_due h hs hp hdue false))
  | false =>
    exact (taken?_of_not_due h hs hp hdue false).symm.imp_right
      fun ⟨c, ht⟩ => lag_change h hp hrest ht

theorem shutDown_turn (r : Redelivery α) (first : Bool) :
    (r.perform (.turn first)).shutDown = r.shutDown := by
  have hturns := turns_perform r first
  generalize r.perform (.turn first) = r' at hturns ⊢
  cases hturns <;> rfl

theorem drains {period : Option Nat} {start : Nat}
    (hperiod : ∀ p, period = some p → 0 < p ∧ Ticker.Delays p) (h : r.Recorded)
    (hpaced : r.Paced period start) (hs : r.shutDown = false) (hp : r.present = some s) :
    r.Drains s := by
  -- a turn at rest lowers what is left, and to come to rest does not change that
  induction hn : r.lag s using Nat.strongRecOn generalizing r s with
  | ind n ih =>
    obtain ⟨k, a, hafter, hrest⟩ := exists_atRest r
    have hproceeds : ∀ a ∈ List.replicate k (Act.proceed (α := α)), a.isInner = true :=
      fun a ha => by rw [List.eq_of_mem_replicate ha]; rfl
    have hrecorded : ({ r with account := a } : Redelivery α).Recorded :=
      hafter ▸ recorded_after h _
    have hpaced : ({ r with account := a } : Redelivery α).Paced period start :=
      hpaced.of_like rfl (Nat.le_refl _) rfl (Or.inl rfl)
    have hticker : ∀ t, r.patrol.reflector.resync = some t →
        0 < t.period ∧ Ticker.Delays t.period := fun t ht =>
      hperiod _ (by rw [← hpaced.ticker]; exact congrArg (Option.map _) ht)
    refine Drains.of_after hproceeds (hafter ▸ ?_)
    rcases lag_turn hrecorded hs hp hrest hticker with hdrained | ⟨s', hp', hopened, hsent, hlag⟩
    · exact ⟨[], s, fun _ ha => absurd ha List.not_mem_nil, hp, rfl, rfl, hdrained⟩
    · refine Drains.of_perform (a := .turn false) rfl hopened hsent ?_
      exact ih _ (hn ▸ hlag) (recorded_perform hrecorded _)
        (paced_perform hpaced hrecorded (fun p hp => (hperiod p hp).2) _)
        ((shutDown_turn ..).trans hs) hp' rfl

/-- While a stream is read and nothing is being delivered, the next turn begins a resync once a
period has passed since the last one, or since the start. -/
def Prompt (period : Option Nat) (start : Nat) (r : Redelivery α) : Prop :=
  ∀ p s, period = some p → r.present = some s → r.shutDown = false →
    r.account.loop.session.AtRest → lastResync start r.resyncs + p ≤ r.now →
      ∀ first, ∃ x, (r.perform (.turn first)).resyncs = r.resyncs ++ [x]

theorem Recorded.prompt {period : Option Nat} {start : Nat} (h : r.Recorded)
    (hpaced : r.Paced period start) : r.Prompt period start := by
  intro p s hp hs hshut hrest hlate first
  obtain ⟨t, ht, rfl⟩ := Option.map_eq_some_iff.mp (hpaced.ticker.trans hp)
  have hdue : (r.patrol.reflector.resync.any fun t => t.due ≤ r.now) = true := by
    rw [ht]
    exact decide_eq_true ((hpaced.next t ht).latest.trans hlate)
  have htaken := taken?_of_due h hshut hs hdue first
  obtain ⟨-, -, ticker, -, -, hbegun⟩ := begun_of_resyncDue htaken
  refine ⟨⟨ticker.due, r.now, r.account.stored⟩, ?_⟩
  rw [turn_of_taken hrest htaken, (adds_take h.reading (Patrol.crossing_turn htaken)).resyncs,
    hbegun]
  rfl

end Drains

/-! ## Redelivery -/

/-- When the resyncs of a run come that has begun at `start`. -/
structure Timely (period : Option Nat) (start : Nat) (r : Redelivery α) : Prop where
  /-- They come while a stream is read. -/
  within : ∀ s ∈ r.streams, ∀ x ∈ s.resyncs, s.opened ≤ x.time ∧ x.time ≤ s.readUntil r.now
  first : ∀ p, period = some p → ∀ x ∈ r.resyncs, start + p ≤ x.time
  apart : ∀ p, period = some p →
    r.resyncs.IsChain fun x y => x.time + p ≤ y.time + Ticker.tolerance
  /-- Of the ticks that were missed before a stream, only those are made up on it that all were
  within the tolerance. -/
  madeUp : ∀ p, period = some p → ∀ s ∈ r.streams,
    Ticker.MadeUp p s.missed ∧ (Ticker.tolerance ≤ p → s.missed ≤ 1)
  none : period = none → r.resyncs = []

theorem Paced.timely {period : Option Nat} {start : Nat} (h : r.Paced period start) :
    r.Timely period start where
  within s hs := (h.streams s hs).within
  first p hp x hx := by
    obtain ⟨hdue, p', hp', hfirst⟩ := h.resyncs x hx
    obtain rfl := Option.some.inj (hp.symm.trans hp')
    exact hfirst.trans hdue
  apart := h.apart
  madeUp p hp s hs :=
    have hmade := (h.streams s hs).madeUp p hp
    ⟨hmade, hmade.le_one⟩
  none hp := List.eq_nil_iff_forall_not_mem.mpr fun x hx => by
    obtain ⟨-, p, hp', -⟩ := h.resyncs x hx
    exact absurd (hp.symm.trans hp') (by simp)

section Redelivers

variable [Object α]

/-- The resyncs that were begun are all that were told of.  Each is an update of everything that is
stored, by itself and in the order of the keys, and it is told as a whole. -/
structure Faithful (r : Redelivery α) : Prop where
  resyncs : r.account.resyncs = r.resyncs.map fun x => refreshed x.stored
  ordered : ∀ x ∈ r.resyncs, (x.stored.map keyOf).Pairwise fun a b => Text.bytes a < Text.bytes b
  session : r.account.transcript.session = r.account.loop.session
  orderly : r.account.transcript.Orderly
  cut : r.account.transcript.ledger.cut = []

/-- Of every stream all changes that come before its end are applied, once and in their order. -/
structure Lossless (r : Redelivery α) : Prop where
  past : ∀ s ∈ r.past, s.Over r.shutDown
  present : ∀ s, r.present = some s → s.Open r.patrol.inbox
  applied : r.account.loop.taken.filterMap Signal.change? = r.streams.flatMap WatchStream.applied
  stored : r.account.loop.session.informer.store.items = replica r.account.loop.taken
  drains : ∀ s, r.present = some s → r.shutDown = false → r.Drains s

theorem Recorded.faithful (h : r.Recorded) : r.Faithful :=
  ⟨h.resyncs, h.ordered, h.account.session, h.account.calm.kept.orderly, h.account.calm.cut⟩

/-- **Resyncs tell of what is stored, at their times, and no change is lost to them.**  Take an
informer that is run with resyncs or without, and whatever happens meanwhile.  It begins a resync
only while it reads a stream, and with that it tells of everything stored once more, in the order of
the keys, and leaves the store as it is.  The first one comes a period after the start or later, and
two of them are a period apart, but for the tolerance of the ticker; while a stream is read, the
next one does not wait for longer than a period.  Of the ticks that were missed before a stream one
at most is made up on it, or several if all of them were due within the tolerance.  The changes of
each stream are made one after the other, and until the shutdown all of them are made that come
before its end. -/
theorem redelivers (before : List Request) (resource : String) (policy : BackoffPolicy)
    {period : Option Nat} (hperiod : ∀ p, period = some p → 0 < p ∧ Ticker.Delays p) (start : Nat)
    (acts : List (Act α)) :
    let r := run before resource policy period start acts
    r.Timely period start ∧ r.Prompt period start ∧ r.Faithful ∧ r.Lossless ∧
      ∀ x ∈ r.resyncs, ∃ pre first rest, acts = pre ++ .turn first :: rest ∧
        Refreshes x (run before resource policy period start pre)
          (run before resource policy period start (pre ++ [.turn first])) := by
  intro r
  have hrecorded : r.Recorded := recorded_run acts
  have hpaced : r.Paced period start := paced_run (fun p hp => (hperiod p hp).2) acts
  refine ⟨hpaced.timely, hrecorded.prompt hpaced, hrecorded.faithful, ?_, exists_refreshes acts⟩
  exact ⟨hrecorded.past, hrecorded.present, hrecorded.changes, hrecorded.replicates.items,
    fun s hp hs => drains hperiod hrecorded hpaced hs hp⟩

end Redelivers

/-- One retry, at once, and a second for the list. -/
def oneRetry : BackoffPolicy := ⟨1, 1000, 0, 0⟩

def pod (name : String) : Scenario.Obj := .item ⟨none, name, 1, []⟩

/-- The source has one object, the list of it takes so long, and the watch is opened at once. -/
def lateList (millis : Nat) : List (Act Scenario.Obj) :=
  [.proceed, .turn false, .pass (Duration.ofMillis millis), .arrive ⟨.listed [pod "x"] "1", rfl⟩,
    .turn false, .proceed, .proceed, .turn false, .arrive ⟨.opened, rfl⟩, .turn false, .turn false,
    .proceed, .proceed, .turn false]

/-- A change that is ready together with a tick. -/
def changeWithTick : List (Act Scenario.Obj) :=
  [.pass (Duration.ofMillis 10), .arrive (Change.added (pod "y")).news, .turn false, .proceed,
    .proceed, .turn false]

/-- Three ticks pass without a stream, and one resync makes up for them.  The change is made after
the resync that is due with it, which tells of the first object only. -/
theorem redelivers_late_list :
    let period := Duration.ofMillis 10
    let r := run [.addHandler .direct] "pods" oneRetry (some period) 0
      (lateList 35 ++ changeWithTick)
    (r.resyncs.map fun x => (x.time, x.stored)) =
        [(Duration.ofMillis 35, [pod "x"]), (Duration.ofMillis 45, [pod "x"])] ∧
      (r.streams.map fun s => (s.missed, s.applied.length)) = [(1, 1)] ∧
      r.Timely (some period) 0 ∧ r.Prompt (some period) 0 ∧ r.Faithful ∧ r.Lossless := by
  intro period r
  have hperiod : ∀ p, some period = some p → 0 < p ∧ Ticker.Delays p := fun p hp =>
    Option.some.inj hp ▸ ⟨by decide, Ticker.delays_of_le (by decide)⟩
  obtain ⟨htimely, hprompt, hfaithful, hlossless, -⟩ := redelivers [.addHandler .direct] "pods"
    oneRetry hperiod 0 (lateList 35 ++ changeWithTick)
  exact ⟨by decide +kernel, by decide +kernel, htimely, hprompt, hfaithful, hlossless⟩

/-- With a period of two milliseconds two ticks that were missed are both made up. -/
theorem two_missed_ticks :
    let period := Duration.ofMillis 2
    let r := run [.addHandler .direct] "pods" oneRetry (some period) 0 (lateList 5)
    0 < period ∧ Ticker.Delays period ∧
      (r.resyncs.map fun x => (x.due, x.time)) =
        [(Duration.ofMillis 2, Duration.ofMillis 5), (Duration.ofMillis 4, Duration.ofMillis 5)] ∧
      (r.streams.map fun s => (s.opened, s.missed)) = [(Duration.ofMillis 5, 2)] := by
  intro period r
  exact ⟨by decide, Ticker.delays_of_le (by decide), by decide +kernel, by decide +kernel⟩

end Redelivery

end InformerHub
