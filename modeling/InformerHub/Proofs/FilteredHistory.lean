import InformerHub.Proofs.Difference
import InformerHub.Proofs.FilteredView

/-!
# Histories behind a filter

A filter judges each event by itself, and yet what it lets through is a history again:

> an exact history over a map becomes an exact history over the accepted part of this map, and after
> every beginning of it the handler behind the filter holds the accepted items and no others
> (`exact_filtered`).

Nothing is remembered from one event to the next.  It is enough that an update and a delete carry
the version that is there: this version was judged when it came, by the same predicate, so the
judgement tells whether the handler holds it (`get?_accepted`).  One event is a matter of cases
(`passes_filtered`); a history is one event after the other.
-/

namespace InformerHub

variable {α : Type} {accepts : α → Bool} {m : SortedMap String α}

namespace History

/-! ## The accepted part of a map -/

/-- The items of a map that a filter accepts. -/
def accepted (accepts : α → Bool) (m : SortedMap String α) : SortedMap String α :=
  m.filter fun _ a => accepts a

theorem get?_accepted (k : String) :
    (accepted accepts m).get? k = (m.get? k).filter accepts :=
  SortedMap.get?_filter ..

theorem get?_accepted_of_true {k : String} {a : α} (h : m.get? k = some a)
    (ha : accepts a = true) : (accepted accepts m).get? k = some a := by
  rw [get?_accepted, h, Option.filter_some_pos ha]

theorem get?_accepted_of_false {k : String} {a : α} (h : m.get? k = some a)
    (ha : accepts a = false) : (accepted accepts m).get? k = none := by
  rw [get?_accepted, h, Option.filter_some_neg ha]

theorem get?_accepted_of_none {k : String} (h : m.get? k = none) :
    (accepted accepts m).get? k = none := by
  rw [get?_accepted, h]
  rfl

theorem accepted_insert_of_true (k : String) {a : α} (ha : accepts a = true) :
    accepted accepts (m.insert k a) = (accepted accepts m).insert k a := by
  refine SortedMap.ext_get? fun k' => ?_
  by_cases hk : k' = k
  · subst hk
    rw [SortedMap.get?_insert_self, get?_accepted_of_true (SortedMap.get?_insert_self ..) ha]
  · rw [SortedMap.get?_insert_of_ne hk, get?_accepted, get?_accepted,
      SortedMap.get?_insert_of_ne hk]

theorem accepted_insert_of_false (k : String) {a : α} (ha : accepts a = false) :
    accepted accepts (m.insert k a) = (accepted accepts m).erase k := by
  refine SortedMap.ext_get? fun k' => ?_
  by_cases hk : k' = k
  · subst hk
    rw [SortedMap.get?_erase_self, get?_accepted_of_false (SortedMap.get?_insert_self ..) ha]
  · rw [SortedMap.get?_erase_of_ne hk, get?_accepted, get?_accepted,
      SortedMap.get?_insert_of_ne hk]

theorem accepted_erase (k : String) :
    accepted accepts (m.erase k) = (accepted accepts m).erase k := by
  refine SortedMap.ext_get? fun k' => ?_
  by_cases hk : k' = k
  · subst hk
    rw [SortedMap.get?_erase_self, get?_accepted_of_none (SortedMap.get?_erase_self ..)]
  · rw [SortedMap.get?_erase_of_ne hk, get?_accepted, get?_accepted,
      SortedMap.get?_erase_of_ne hk]

end History

/-! ## One event -/

namespace Event

open History

/-- An add that is let through is the very one that came, or an update of a version that the filter
did not accept. -/
theorem filtered_eq_add {e : Event α} {a : α} {initial : Bool}
    (h : e.filtered accepts = some (.add a initial)) :
    e = .add a initial ∨ initial = false ∧ ∃ old, e = .update old a ∧ accepts old = false := by
  cases e with
  | add b i =>
    simp only [filtered, Option.ite_none_right_eq_some, Option.some.injEq] at h
    exact Or.inl h.2
  | update old b =>
    cases ho : accepts old <;> cases hb : accepts b <;> simp [filtered, ho, hb] at h
    exact Or.inr ⟨h.2.symm ▸ rfl, old, h.1 ▸ rfl, ho⟩
  | delete b => simp [filtered] at h

variable [Object α]

/-- What a filter makes of an event is right for one that holds the accepted part of the map: it
names what is held there, and leads to the accepted part of the map after the event. -/
def Passes (accepts : α → Bool) (m : SortedMap String α) (e : Event α) : Prop :=
  match e.filtered accepts with
  | some told =>
    told.Matches (accepted accepts m) ∧
      told.applyTo (accepted accepts m) = accepted accepts (e.applyTo m)
  | none => accepted accepts (e.applyTo m) = accepted accepts m

theorem passes_add {a : α} {initial : Bool} (he : (Event.add a initial).Matches m) :
    (Event.add a initial).Passes accepts m := by
  have hnone : m.get? (keyOf a) = none := he
  cases ha : accepts a with
  | true =>
    simp only [Passes, filtered, ha]
    exact ⟨get?_accepted_of_none hnone, (accepted_insert_of_true _ ha).symm⟩
  | false =>
    simp only [Passes, filtered, ha]
    show accepted accepts (m.insert (keyOf a) a) = _
    rw [accepted_insert_of_false _ ha, SortedMap.erase_eq_self (get?_accepted_of_none hnone)]

theorem passes_update (hm : Keyed m) {old a : α} (he : (Event.update old a).Matches m) :
    (Event.update old a).Passes accepts m := by
  have hold : m.get? (keyOf a) = some old := he
  have hkey : keyOf old = keyOf a := hm _ _ hold
  cases ho : accepts old with
  | true =>
    have hin := get?_accepted_of_true hold ho
    cases ha : accepts a with
    | true =>
      simp only [Passes, filtered, ho, ha]
      exact ⟨hin, (accepted_insert_of_true _ ha).symm⟩
    | false =>
      -- the item moves out: it is deleted in the version that is held
      simp only [Passes, filtered, ho, ha]
      refine ⟨?_, ?_⟩
      · show (accepted accepts m).get? (keyOf old) = some old
        rw [hkey]
        exact hin
      · show (accepted accepts m).erase (keyOf old) = accepted accepts (m.insert (keyOf a) a)
        rw [hkey, accepted_insert_of_false _ ha]
  | false =>
    have hout := get?_accepted_of_false hold ho
    cases ha : accepts a with
    | true =>
      -- the item moves in
      simp only [Passes, filtered, ho, ha]
      exact ⟨hout, (accepted_insert_of_true _ ha).symm⟩
    | false =>
      simp only [Passes, filtered, ho, ha]
      show accepted accepts (m.insert (keyOf a) a) = _
      rw [accepted_insert_of_false _ ha, SortedMap.erase_eq_self hout]

theorem passes_delete {a : α} (he : (Event.delete a).Matches m) :
    (Event.delete a).Passes accepts m := by
  have hget : m.get? (keyOf a) = some a := he
  cases ha : accepts a with
  | true =>
    simp only [Passes, filtered, ha]
    exact ⟨get?_accepted_of_true hget ha, (accepted_erase _).symm⟩
  | false =>
    simp only [Passes, filtered, ha]
    show accepted accepts (m.erase (keyOf a)) = _
    rw [accepted_erase, SortedMap.erase_eq_self (get?_accepted_of_false hget ha)]

/-- **One event.**  Whether or not it is let through, the handler behind the filter ends up with the
accepted part of the map. -/
theorem passes_filtered (hm : Keyed m) {e : Event α} (he : e.Matches m) : e.Passes accepts m := by
  cases e with
  | add a initial => exact passes_add he
  | update old a => exact passes_update hm he
  | delete a => exact passes_delete he

end Event

/-! ## Histories -/

namespace History

/-- What a filter lets through of some events. -/
def forwarded (accepts : α → Bool) (es : List (Event α)) : List (Event α) :=
  es.filterMap (Event.filtered accepts)

variable [Object α]

theorem keyed_view (es : List (Event α)) : ∀ {m : SortedMap String α}, Keyed m →
    Keyed (view m es) := by
  induction es with
  | nil => intro m hm; exact hm
  | cons e es ih => intro m hm; exact ih (keyed_applyTo hm e)

theorem forwarded_spec (es : List (Event α)) : ∀ {m : SortedMap String α}, Keyed m → Exact m es →
    Exact (accepted accepts m) (forwarded accepts es) ∧
      view (accepted accepts m) (forwarded accepts es) = accepted accepts (view m es) := by
  induction es with
  | nil => intro m _ _; exact ⟨trivial, rfl⟩
  | cons e es ih =>
    intro m hm hes
    obtain ⟨hexact, hview⟩ := ih (keyed_applyTo hm e) hes.2
    have hpass : e.Passes accepts m := Event.passes_filtered hm hes.1
    unfold forwarded at hexact hview ⊢
    cases htold : e.filtered accepts with
    | some told =>
      rw [Event.Passes, htold] at hpass
      obtain ⟨hmatches, hstep⟩ := hpass
      rw [List.filterMap_cons_some htold]
      rw [← hstep] at hexact hview
      exact ⟨⟨hmatches, hexact⟩, hview⟩
    | none =>
      rw [Event.Passes, htold] at hpass
      rw [List.filterMap_cons_none htold]
      rw [hpass] at hexact hview
      exact ⟨hexact, hview⟩

/-- **A filter makes exact histories of exact histories.**  Take any map of items by their keys, any
history whose adds come where nothing is and whose updates and deletes carry the version that is
there, and any predicate.  At every point of the history the handler behind the filter, which
started with the accepted items of the map, holds the accepted items of the map at this point, and
what it is told next, if anything, is an add of a key that it does not hold, or an update or a
delete that carries the version that it holds.  An add that it is told is the add that came, with
its mark of an initial item, or it stands for an update from a version that is not accepted and has
no such mark. -/
theorem exact_filtered (accepts : α → Bool) (m : SortedMap String α) (es : List (Event α))
    (hm : Keyed m) (hes : Exact m es) :
    Exact (accepted accepts m) (forwarded accepts es) ∧
    (∀ before after, es = before ++ after →
      view (accepted accepts m) (forwarded accepts before) = accepted accepts (view m before)) ∧
    (∀ before e after told, es = before ++ e :: after → e.filtered accepts = some told →
      told.Matches (view (accepted accepts m) (forwarded accepts before)) ∧
      ∀ a initial, told = .add a initial →
        e = .add a initial ∨
          initial = false ∧ ∃ old, e = .update old a ∧ accepts old = false) := by
  refine ⟨(forwarded_spec es hm hes).1, fun before after h => ?_,
    fun before e after told h htold => ⟨?_, fun a initial hadd => ?_⟩⟩
  · subst h
    exact (forwarded_spec before hm (exact_append.mp hes).1).2
  · -- what comes after the point is an exact history over what is held at the point
    subst h
    obtain ⟨hbefore, hafter⟩ := exact_append.mp hes
    rw [(forwarded_spec before hm hbefore).2]
    have hpass : e.Passes accepts (view m before) :=
      Event.passes_filtered (keyed_view before hm) hafter.1
    rw [Event.Passes, htold] at hpass
    exact hpass.1
  · subst hadd
    exact Event.filtered_eq_add htold

/-! ## An item that moves in and out -/

instance [DecidableEq α] (m : SortedMap String α) : (e : Event α) → Decidable (e.Matches m)
  | .add a _ => inferInstanceAs (Decidable (m.get? (keyOf a) = none))
  | .update old a => inferInstanceAs (Decidable (m.get? (keyOf a) = some old))
  | .delete a => inferInstanceAs (Decidable (m.get? (keyOf a) = some a))

/-- Whether a history is exact can be found out by going through it. -/
def decideExact [DecidableEq α] : (m : SortedMap String α) → (es : List (Event α)) →
    Decidable (Exact m es)
  | _, [] => .isTrue trivial
  | m, e :: es =>
    have := decideExact (e.applyTo m) es
    inferInstanceAs (Decidable (e.Matches m ∧ Exact (e.applyTo m) es))

instance [DecidableEq α] (m : SortedMap String α) (es : List (Event α)) : Decidable (Exact m es) :=
  decideExact m es

open Session

/-- Two items of which one is accepted. -/
def halfMarked : SortedMap String Scenario.Obj :=
  view ∅ [.add (marked "a" ["x"]) true, .add (marked "b" []) true]

/-- One item moves out of the filter and in again, the other one moves in, changes there and is
deleted, and a third one is added. -/
def crossings : List (Event Scenario.Obj) :=
  [.update (marked "a" ["x"]) (marked "a" []), .update (marked "b" []) (marked "b" ["x"]),
    .update (marked "a" []) (marked "a" ["y"]), .update (marked "a" ["y"]) (marked "a" ["x"]),
    .update (marked "b" ["x"]) (marked "b" ["x", "y"]), .delete (marked "b" ["x", "y"]),
    .add (marked "c" ["x"]) true]

theorem exact_crossings :
    forwarded isMarked crossings =
      [.delete (marked "a" ["x"]), .add (marked "b" ["x"]) false, .add (marked "a" ["x"]) false,
        .update (marked "b" ["x"]) (marked "b" ["x", "y"]), .delete (marked "b" ["x", "y"]),
        .add (marked "c" ["x"]) true] ∧
    Exact (accepted isMarked halfMarked) (forwarded isMarked crossings) ∧
    view (accepted isMarked halfMarked) (forwarded isMarked crossings) =
      accepted isMarked (view halfMarked crossings) := by
  obtain ⟨hexact, hview, -⟩ := exact_filtered isMarked halfMarked crossings
    (keyed_view _ keyed_empty) (by decide +kernel)
  exact ⟨by decide +kernel, hexact, hview crossings [] (List.append_nil _).symm⟩

end History

end InformerHub
