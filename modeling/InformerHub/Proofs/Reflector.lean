import InformerHub.Reflector

/-!
# Steps of the list and watch loop

What a signal can do to the loop.  Each phase waits for some of the signals; another one changes
nothing (`step_of_not_awaits`).  Of those that are taken

> only a list and a change ever touch the store: all other signals are `Quiet`

(`step_listed`, `step_changed`, `step_other`).  A change is taken only past a list: a round begins
before its list (`nextRound_spec`), and nothing but a list leads past it.
-/

namespace InformerHub.Reflector

variable {α : Type}

/-! ## Phases -/

/-- Whether a phase waits for a signal. -/
def Phase.awaits : Phase → Signal α → Bool
  | .ended _, _ => false
  | _, .shutdown => true
  | .backingOff _, .backoffOver => true
  | .listing, .listed .. | .listing, .listFailed _ | .listing, .listTimedOut => true
  | .opening _, .opened | .opening _, .openFailed _ => true
  | .watching _, .changed _ | .watching _, .streamFailed _ | .watching _, .streamEnded
  | .watching _, .resyncDue _ => true
  | _, _ => false

/-- Whether a phase comes after the list of its round. -/
def Phase.hasListed : Phase → Bool
  | .opening _ | .watching _ => true
  | _ => false

/-! ## Effects -/

/-- Effects that leave the store alone. -/
def Quiet (effects : List (Effect α)) : Prop :=
  ∀ e ∈ effects, e = .resync ∨ ∃ r, e = .log r

theorem quiet_nil : Quiet ([] : List (Effect α)) := fun _ h => absurd h (by simp)

theorem quiet_log (r : LogRecord) {effects : List (Effect α)} (h : Quiet effects) :
    Quiet (.log r :: effects) := by
  intro e he
  rcases List.mem_cons.mp he with rfl | he
  · exact Or.inr ⟨r, rfl⟩
  · exact h e he

/-- A round begins before its list, and quietly. -/
theorem nextRound_spec (r : Reflector) :
    Quiet (nextRound (α := α) r).2 ∧ (nextRound (α := α) r).1.phase.hasListed = false := by
  unfold nextRound
  split
  next => exact ⟨quiet_nil, rfl⟩
  next =>
    split
    next => exact ⟨quiet_nil, rfl⟩
    next => exact ⟨quiet_log _ quiet_nil, rfl⟩

theorem roundFailed_spec (r : Reflector) (record : LogRecord) :
    Quiet (roundFailed (α := α) r record).2 ∧
      (roundFailed (α := α) r record).1.phase.hasListed = false := by
  unfold roundFailed
  split
  next =>
    obtain ⟨hq, hp⟩ := nextRound_spec (α := α) { r with failures := r.failures + 1 }
    exact ⟨quiet_log _ hq, hp⟩
  next => exact ⟨quiet_log _ quiet_nil, rfl⟩

/-- A run begins before its first list, and quietly. -/
theorem begin_spec (resource : String) (policy : BackoffPolicy) (period : Option Nat) (now : Nat) :
    Quiet (Reflector.begin (α := α) resource policy period now).2 ∧
      (Reflector.begin (α := α) resource policy period now).1.phase.hasListed = false := by
  refine ⟨quiet_log _ quiet_nil, ?_⟩
  unfold Reflector.begin
  dsimp only
  split <;> rfl

/-! ## Steps -/

/-- A signal that the phase does not wait for is ignored. -/
theorem step_of_not_awaits {r : Reflector} {sig : Signal α} (h : r.phase.awaits sig = false) :
    r.step sig = (r, []) := by
  unfold step
  split
  case h_1 => rfl
  case h_13 => rfl
  all_goals simp_all [Phase.awaits]

/-- A list that the loop waits for is stored. -/
theorem step_listed {r : Reflector} {items : List α} {version : String}
    (h : r.phase.awaits (.listed items version) = true) :
    r.step (.listed items version) = ({ r with phase := .opening version }, [.relist items]) := by
  cases hp : r.phase with
  | listing => simp only [step, hp]
  | _ =>
    rw [hp] at h
    exact (Bool.false_ne_true h).elim

/-- A change that the loop waits for is made, and it comes after a list. -/
theorem step_changed {r : Reflector} {c : Change α} (h : r.phase.awaits (.changed c) = true) :
    r.phase.hasListed = true ∧
      r.step (.changed c) = ({ r with phase := .watching true }, [.change c]) := by
  cases hp : r.phase with
  | watching received => exact ⟨rfl, by simp only [step, hp]⟩
  | _ =>
    rw [hp] at h
    exact (Bool.false_ne_true h).elim

/-- Any other signal leaves the store alone, and the loop is past the list of a round afterwards
only if it was before. -/
theorem step_other (r : Reflector) {sig : Signal α}
    (hl : ∀ items version, sig ≠ .listed items version) (hc : ∀ c, sig ≠ .changed c) :
    Quiet (r.step sig).2 ∧ ((r.step sig).1.phase.hasListed = true → r.phase.hasListed = true) := by
  have before : ∀ {r' : Reflector} {P : Prop}, r'.phase.hasListed = false →
      r'.phase.hasListed = true → P := by
    intro r' P hf ht
    rw [hf] at ht
    exact (Bool.false_ne_true ht).elim
  have failed : ∀ record : LogRecord, Quiet (r.roundFailed (α := α) record).2 ∧
      ((r.roundFailed (α := α) record).1.phase.hasListed = true → r.phase.hasListed = true) := by
    intro record
    obtain ⟨hq, hp⟩ := roundFailed_spec (α := α) r record
    exact ⟨hq, before hp⟩
  unfold step
  split
  -- nothing more after the end, and a shutdown is one
  next => exact ⟨quiet_nil, id⟩
  next => exact ⟨quiet_log _ quiet_nil, before rfl⟩
  next => exact ⟨quiet_nil, before rfl⟩
  -- the list: not this signal, or one of its failures
  next items version _ => exact absurd rfl (hl items version)
  next => exact failed _
  next => exact failed _
  -- the watch: opening comes after a list, and so does all that follows
  next hp => exact ⟨quiet_nil, fun _ => by rw [hp]; rfl⟩
  next => exact failed _
  next c _ => exact absurd rfl (hc c)
  next => exact failed _
  next received hp =>
    refine ⟨?_, fun _ => by rw [hp]; rfl⟩
    dsimp only
    split
    next => exact quiet_log _ (nextRound_spec _).1
    next => exact (failed _).1
  next => exact ⟨fun e he => Or.inl (List.mem_singleton.mp he), id⟩
  next => exact ⟨quiet_nil, id⟩

end InformerHub.Reflector
