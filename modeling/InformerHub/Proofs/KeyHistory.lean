import Mathlib.Data.List.Nodup
import Mathlib.Logic.Function.Basic
import InformerHub.Proofs.Roster

/-!
# Keys that are never used twice

The name that a dynamic handler asks for is free text: others may have it too, it may be empty, and
it may end like a key, as `a-1` does.  Still no two handlers of a fan-out ever have the same key,
nor keys that read the same.

`KeyHistory` is a fan-out with a record of all keys that it has given out, and of those that were
taken away, while anything happens to its informer.

> The handler that comes after `k` others gets the epoch `k`, and whoever is refused uses up none
> (`keys_never_recur`).

So the epochs alone tell the keys of a fan-out apart.  The texts of any two keys differ as well
(`text_injective`): an epoch is written in digits, so it is what follows the last dash.

An epoch is a number without a bound.  A count in 64 bits, which no run lives to fill, gives the
same epochs to the first 2^64 handlers (`epoch_of_countUp`).
-/

namespace InformerHub

open Informer Session

namespace HandlerKey

/-! ## The text of a key -/

/-- What stands before and behind a dash, if none comes after it. -/
theorem eq_of_append_dash {xs xs' ys ys' : List Char} (h : xs ++ '-' :: ys = xs' ++ '-' :: ys')
    (hys : '-' ∉ ys) (hys' : '-' ∉ ys') : xs = xs' ∧ ys = ys' := by
  -- the longer of the two beginnings would reach into the other end
  rcases List.append_eq_append_iff.mp h with ⟨as, rfl, has⟩ | ⟨as, rfl, has⟩
  · cases as with
    | nil => exact ⟨(List.append_nil xs).symm, (List.cons.inj has).2⟩
    | cons a as =>
      obtain ⟨-, rfl⟩ := List.cons.inj has
      exact absurd (List.mem_append_right as List.mem_cons_self) hys
  · cases as with
    | nil => exact ⟨List.append_nil xs', (List.cons.inj has).2.symm⟩
    | cons a as =>
      obtain ⟨-, rfl⟩ := List.cons.inj has
      exact absurd (List.mem_append_right as List.mem_cons_self) hys'

/-- A number is told by its digits. -/
theorem eq_of_toDigits {m n : Nat} (h : Nat.toDigits 10 m = Nat.toDigits 10 n) : m = n := by
  calc
    m = Nat.ofDigitChars 10 (Nat.toDigits 10 m) 0 := Nat.ofDigitChars_ten_toDigits.symm
    _ = Nat.ofDigitChars 10 (Nat.toDigits 10 n) 0 := by rw [h]
    _ = n := Nat.ofDigitChars_ten_toDigits

theorem dash_not_mem_toDigits (n : Nat) : '-' ∉ Nat.toDigits 10 n := by
  intro h
  have hdigit := Nat.isDigit_of_mem_toDigits (by omega) (by omega) h
  exact absurd hdigit (by decide)

theorem toList_text (k : HandlerKey) :
    k.text.toList = k.name.toList ++ '-' :: Nat.toDigits 10 k.epoch := by
  unfold text
  rw [String.toList_append, String.toList_append, Nat.toString_eq_repr, Nat.toList_repr,
    List.append_assoc]
  rfl

/-- The text of a key tells its name and its epoch, whatever the name is. -/
theorem text_injective : Function.Injective text := by
  intro k k' h
  have hlists := congrArg String.toList h
  rw [toList_text, toList_text] at hlists
  obtain ⟨hname, hdigits⟩ := eq_of_append_dash hlists (dash_not_mem_toDigits k.epoch)
    (dash_not_mem_toDigits k'.epoch)
  have hn : k.name = k'.name := String.toList_inj.mp hname
  have he : k.epoch = k'.epoch := eq_of_toDigits hdigits
  cases k
  cases k'
  exact congrArg₂ HandlerKey.mk hn he

end HandlerKey

variable {α : Type}

/-- A fan-out on an informer, and the keys of its handlers. -/
structure KeyHistory (α : Type) where
  session : Session α
  index : Nat
  /-- The keys that have been given out, the first one first. -/
  given : List HandlerKey
  /-- The keys that have been taken away. -/
  removed : List HandlerKey

namespace KeyHistory

inductive Act (α : Type) where
  /-- Somebody wants to add a handler, with a scope and a token that may be cancelled, inside a
  runtime or not. -/
  | attempt (name : String) (scopeCancelled tokenCancelled inside : Bool)
  /-- A key is to be taken away, if it is there. -/
  | remove (key : HandlerKey)
  /-- Anything else happens to the informer. -/
  | onSession (a : Session.Act α)

/-- The keys that are behind the fan-out. -/
def keys (s : KeyHistory α) : List HandlerKey := s.session.informer.handlerKeys s.index

section Run

variable [Object α]

/-- An attempt to add a handler.  The second part is its key, if it is let in. -/
def attempt (s : KeyHistory α) (name : String) (scopeCancelled tokenCancelled inside : Bool) :
    KeyHistory α × Option HandlerKey :=
  match Refusal.find? scopeCancelled tokenCancelled inside with
  | some _ => (s, none)
  | none =>
    match s.session.informer.join? s.index name s.session.arrivals with
    | some (_, key) =>
      ({ s with
          session := s.session.perform (.request (.join s.index name))
          given := s.given ++ [key] }, some key)
    | none => (s, none)

def remove (s : KeyHistory α) (key : HandlerKey) : KeyHistory α :=
  { s with
    session := s.session.perform (.request (.leave s.index key))
    removed := if (s.session.informer.leave s.index key).2 then s.removed ++ [key]
      else s.removed }

def perform (s : KeyHistory α) : Act α → KeyHistory α
  | .attempt name scopeCancelled tokenCancelled inside =>
    (s.attempt name scopeCancelled tokenCancelled inside).1
  | .remove key => s.remove key
  | .onSession a =>
    if Roster.reserved s.index a then s else { s with session := s.session.perform a }

def run (s : KeyHistory α) (acts : List (Act α)) : KeyHistory α := acts.foldl perform s

/-- A fan-out that is added to an informer after some acts. -/
def begin (before : List (Session.Act α)) : KeyHistory α where
  session := Session.run (before ++ [.request (.addFanOut .direct)])
  index := (Session.run before).informer.fanOuts.length
  given := []
  removed := []

end Run

/-! ## The fan-out and its record -/

/-- The next epoch is the number of keys that were given out, and the keys that are there are those
of them that were not taken away. -/
structure Records (s : KeyHistory α) (f : FanOut Nat) : Prop where
  found : s.session.informer.fanOuts[s.index]? = some f
  next : f.nextEpoch = s.given.length
  live : ∀ key, key ∈ f.handlers.keys ↔ key ∈ s.given ∧ key ∉ s.removed
  past : ∀ key ∈ s.removed, key ∈ s.given

structure Kept (s : KeyHistory α) : Prop where
  recorded : ∃ f, s.Records f
  numbered : s.given.map HandlerKey.epoch = List.range s.given.length

variable {s : KeyHistory α}

theorem Records.mem_keys_iff {f : FanOut Nat} (h : s.Records f) {key : HandlerKey} :
    key ∈ s.keys ↔ key ∈ s.given ∧ key ∉ s.removed := by
  unfold keys handlerKeys
  rw [h.found]
  exact h.live key

/-- The epoch of a key that was given out is below the number of all of them. -/
theorem Kept.epoch_lt (h : s.Kept) {key : HandlerKey} (hkey : key ∈ s.given) :
    key.epoch < s.given.length := by
  have hmem : key.epoch ∈ s.given.map HandlerKey.epoch := List.mem_map_of_mem hkey
  rw [h.numbered] at hmem
  exact List.mem_range.mp hmem

theorem Kept.nodup (h : s.Kept) : s.given.Nodup := by
  have hepochs : (s.given.map HandlerKey.epoch).Nodup := h.numbered ▸ List.nodup_range
  exact hepochs.of_map

/-! ## What an act does -/

variable [Object α]

theorem attempt_of_refused {scopeCancelled tokenCancelled inside : Bool}
    (h : scopeCancelled = true ∨ tokenCancelled = true ∨ inside = false) (s : KeyHistory α)
    (name : String) : s.attempt name scopeCancelled tokenCancelled inside = (s, none) := by
  unfold attempt Refusal.find?
  rcases h with rfl | rfl | rfl
  · rfl
  · cases scopeCancelled <;> rfl
  · cases scopeCancelled <;> cases tokenCancelled <;> rfl

/-- A handler that is let in, under the next epoch. -/
def letIn (s : KeyHistory α) (name : String) : KeyHistory α :=
  { s with
    session := s.session.perform (.request (.join s.index name))
    given := s.given ++ [⟨name, s.given.length⟩] }

theorem attempt_of_admitted {f : FanOut Nat} (h : s.Records f) (name : String) :
    s.attempt name false false true = (s.letIn name, some ⟨name, s.given.length⟩) := by
  unfold attempt letIn join?
  rw [h.found, ← h.next]
  rfl

theorem attempt_cases {f : FanOut Nat} (h : s.Records f) (name : String)
    (scopeCancelled tokenCancelled inside : Bool) :
    (s.attempt name scopeCancelled tokenCancelled inside).1 = s ∨
      (s.attempt name scopeCancelled tokenCancelled inside).1 = s.letIn name := by
  cases scopeCancelled with
  | true => exact Or.inl (congrArg _ (attempt_of_refused (Or.inl rfl) s name))
  | false =>
    cases tokenCancelled with
    | true => exact Or.inl (congrArg _ (attempt_of_refused (Or.inr (Or.inl rfl)) s name))
    | false =>
      cases inside with
      | false => exact Or.inl (congrArg _ (attempt_of_refused (Or.inr (Or.inr rfl)) s name))
      | true => exact Or.inr (congrArg _ (attempt_of_admitted h name))

/-- The newcomer's key is there besides the others, as nobody has had its epoch. -/
theorem Kept.records_letIn (h : s.Kept) {f : FanOut Nat} (hf : s.Records f) (name : String) :
    (s.letIn name).Records (f.join name s.session.arrivals).1 := by
  have hfresh : (⟨name, s.given.length⟩ : HandlerKey) ∉ s.given :=
    fun hmem => Nat.lt_irrefl _ (h.epoch_lt hmem)
  refine ⟨(fanOut_carryOut hf.found _ _).trans (congrArg some (if_pos rfl)), ?_, ?_, ?_⟩
  · show f.nextEpoch + 1 = (s.given ++ [_]).length
    rw [hf.next, List.length_append, List.length_singleton]
  · intro key
    show key ∈ (f.handlers.insert ⟨name, f.nextEpoch⟩ s.session.arrivals).keys ↔
      key ∈ s.given ++ [⟨name, s.given.length⟩] ∧ key ∉ s.removed
    rw [SortedMap.mem_keys_insert, hf.live, hf.next, List.mem_append, List.mem_singleton]
    constructor
    · rintro (rfl | ⟨hgiven, hthere⟩)
      · exact ⟨Or.inr rfl, fun hgone => hfresh (hf.past _ hgone)⟩
      · exact ⟨Or.inl hgiven, hthere⟩
    · rintro ⟨hgiven | hnew, hthere⟩
      · exact Or.inr ⟨hgiven, hthere⟩
      · exact Or.inl hnew
  · intro key hkey
    exact List.mem_append_left _ (hf.past key hkey)

theorem Kept.letIn (h : s.Kept) (name : String) : (s.letIn name).Kept := by
  obtain ⟨f, hf⟩ := h.recorded
  refine ⟨⟨_, h.records_letIn hf name⟩, ?_⟩
  show (s.given ++ [_]).map HandlerKey.epoch = List.range (s.given ++ [_]).length
  rw [List.map_append, h.numbered, List.length_append, List.length_singleton, List.range_succ]
  rfl

/-- A key that is taken away was there, or nothing happens. -/
theorem Records.remove {f : FanOut Nat} (hf : s.Records f) (key : HandlerKey) :
    (s.remove key).Records (f.leave key).1 := by
  have hanswer : (s.session.informer.leave s.index key).2 = true ↔ key ∈ f.handlers.keys := by
    unfold Informer.leave
    rw [hf.found, SortedMap.mem_keys_iff]
    exact Option.isSome_iff_exists
  have hremoved : ∀ k, k ∈ (s.remove key).removed ↔
      k ∈ s.removed ∨ k = key ∧ key ∈ f.handlers.keys := by
    intro k
    unfold KeyHistory.remove
    dsimp only
    split
    next h => simp [hanswer.mp h]
    next h =>
      have hno : key ∉ f.handlers.keys := fun hkey => h (hanswer.mpr hkey)
      simp [hno]
  refine ⟨(fanOut_carryOut hf.found _ _).trans (congrArg some (if_pos rfl)), hf.next, ?_, ?_⟩
  · intro k
    show k ∈ (f.handlers.erase key).keys ↔ k ∈ s.given ∧ k ∉ (s.remove key).removed
    rw [SortedMap.mem_keys_erase, hremoved, hf.live]
    constructor
    · rintro ⟨⟨hgiven, hthere⟩, hne⟩
      exact ⟨hgiven, fun hgone => hgone.elim hthere fun heq => hne heq.1⟩
    · rintro ⟨hgiven, hthere⟩
      have hlive : k ∈ f.handlers.keys :=
        (hf.live k).mpr ⟨hgiven, fun hgone => hthere (Or.inl hgone)⟩
      exact ⟨(hf.live k).mp hlive, fun heq => hthere (Or.inr ⟨heq, heq ▸ hlive⟩)⟩
  · intro k hk
    rcases (hremoved k).mp hk with hgone | ⟨rfl, hlive⟩
    · exact hf.past k hgone
    · exact ((hf.live k).mp hlive).1

theorem kept_perform (h : s.Kept) (a : Act α) : (s.perform a).Kept := by
  obtain ⟨f, hf⟩ := h.recorded
  cases a with
  | attempt name scopeCancelled tokenCancelled inside =>
    show (s.attempt name scopeCancelled tokenCancelled inside).1.Kept
    rcases attempt_cases hf name scopeCancelled tokenCancelled inside with he | he
    · rwa [he]
    · rw [he]
      exact h.letIn name
  | remove key => exact ⟨⟨_, hf.remove key⟩, h.numbered⟩
  | onSession a =>
    show Kept (if Roster.reserved s.index a then s else { s with session := s.session.perform a })
    split
    next => exact h
    next ha =>
      have hfound := Roster.found_perform (Bool.eq_false_iff.mpr ha) hf.found
      exact ⟨⟨f, hfound, hf.next, hf.live, hf.past⟩, h.numbered⟩

theorem kept_run (acts : List (Act α)) : ∀ {s : KeyHistory α}, s.Kept → (s.run acts).Kept := by
  induction acts with
  | nil => exact fun h => h
  | cons a acts ih => exact fun h => ih (kept_perform h a)

theorem kept_begin (before : List (Session.Act α)) : (begin before).Kept := by
  refine ⟨⟨.new (Session.run before).informer.nextId, fanOut_added before, rfl, ?_, ?_⟩, rfl⟩
  · intro key
    exact ⟨fun hkey => absurd hkey List.not_mem_nil, fun hkey => absurd hkey.1 List.not_mem_nil⟩
  · intro key hkey
    exact absurd hkey List.not_mem_nil

/-- The epoch of a handler is what a word tells that counts those before it, if there are fewer than
a word can count. -/
theorem epoch_of_countUp (before : List (Session.Act α)) (acts : List (Act α)) {i : Nat}
    {key : HandlerKey} (hkey : ((begin before).run acts).given[i]? = some key)
    (hroom : i < UInt64.size) :
    (countUp (((begin before).run acts).given.take i)).toNat = key.epoch :=
  toNat_countUp_take (kept_run acts (kept_begin before)).numbered hkey hroom

/-! ## What the rest of the program sees -/

/-- What is true of the keys of a fan-out at any time. -/
structure Distinct (s : KeyHistory α) : Prop where
  /-- The handler that came after `k` others was given the epoch `k`. -/
  numbered : s.given.map HandlerKey.epoch = List.range s.given.length
  /-- Whoever is refused is given no key, and changes nothing at all. -/
  refused : ∀ name scopeCancelled tokenCancelled inside,
    scopeCancelled = true ∨ tokenCancelled = true ∨ inside = false →
      s.attempt name scopeCancelled tokenCancelled inside = (s, none)
  /-- Anybody else is let in with his name and the next epoch, and his key is there at once. -/
  admitted : ∀ name, ∃ s', s.attempt name false false true = (s', some ⟨name, s.given.length⟩) ∧
    s'.given = s.given ++ [⟨name, s.given.length⟩] ∧ s'.removed = s.removed ∧
    ⟨name, s.given.length⟩ ∈ s'.keys
  /-- The keys that are there are those that were given out and not taken away. -/
  live : ∀ key, key ∈ s.keys ↔ key ∈ s.given ∧ key ∉ s.removed
  /-- No key is given out twice, whether it is still there or not. -/
  once : s.given.Nodup
  /-- Nor do two of them read the same. -/
  apart : (s.given.map HandlerKey.text).Nodup

theorem Kept.distinct (h : s.Kept) : s.Distinct := by
  obtain ⟨f, hf⟩ := h.recorded
  refine ⟨h.numbered, ?_, ?_, fun key => hf.mem_keys_iff, h.nodup,
    h.nodup.map HandlerKey.text_injective⟩
  · intro name scopeCancelled tokenCancelled inside hc
    exact attempt_of_refused hc s name
  · intro name
    refine ⟨_, attempt_of_admitted hf name, rfl, rfl, ?_⟩
    rw [(h.records_letIn hf name).mem_keys_iff]
    refine ⟨List.mem_append_right _ List.mem_cons_self, ?_⟩
    intro hgone
    exact Nat.lt_irrefl _ (h.epoch_lt (hf.past _ hgone))

/-- **Keys are never used twice.**  Take a fan-out that is added to an informer after any acts, and
whatever happens then: handlers come under any names, are refused, and are taken away, and the
informer does what it does.  The epochs count the handlers that were let in, so no two of them ever
have the same key or keys that read the same.  No two keys at all read the same. -/
theorem keys_never_recur (before : List (Session.Act α)) (acts : List (Act α)) :
    ((begin before).run acts).Distinct ∧ Function.Injective HandlerKey.text :=
  ⟨(kept_run acts (kept_begin before)).distinct, HandlerKey.text_injective⟩

end KeyHistory

end InformerHub
