import Mathlib.Data.List.Nodup
import InformerHub.Proofs.Cancellation
import InformerHub.Proofs.Registrations
import InformerHub.Scenario.Object

/-!
# Who is behind a fan-out

A dynamic handler comes with a token and leaves when the token or the scope of the fan-out is
cancelled.  It does not leave by itself: a task of its own waits for the two and takes its key away.
`Roster` is a session with the tokens and these tasks, in which anything may happen in any order:
tokens are made, cancelled and given up, handlers come, from inside callbacks or not, tasks take
their turns, and the informer does what it does.

> Whenever all tasks wait, the keys are those that were given out with a token that is not
> cancelled, unless the scope is cancelled (`keys_exact`).

All that an act can do is listed in `Step`, and the invariant that every step keeps is `Kept`: there
is a key for every task and a task for every key, and a task that is over had reason to be.
`Tokens.isCancelled_iff` says which tokens are cancelled.
-/

namespace InformerHub

open Informer Session

variable {α : Type}

/-- A handler that was let in, and its token.  While it is behind the fan-out, this is what its task
knows. -/
structure Cleanup where
  key : HandlerKey
  token : Nat
  deriving DecidableEq, Repr

/-- A fan-out, and what decides who is behind it. -/
structure Roster (α : Type) where
  session : Session α
  tokens : Tokens
  /-- The token of the fan-out itself. -/
  scope : Nat
  index : Nat
  /-- The tasks that are not over. -/
  tasks : List Cleanup
  /-- All handlers that were let in, the first one first. -/
  granted : List Cleanup

namespace Roster

inductive Act (α : Type) where
  | onTokens (a : Tokens.Act)
  /-- Somebody wants to add a handler, inside a runtime or not. -/
  | enter (name : String) (token : Nat) (inside : Bool)
  /-- The task of a handler takes a turn. -/
  | clean (task : Cleanup)
  | onSession (a : Session.Act α)

def keys (s : Roster α) : List HandlerKey := s.session.informer.handlerKeys s.index

/-- Whether a handler is to leave. -/
def due (s : Roster α) (c : Cleanup) : Bool :=
  s.tokens.isCancelled c.token || s.tokens.isCancelled s.scope

/-- All tasks wait. -/
def Waiting (s : Roster α) : Prop := ∀ task ∈ s.tasks, s.due task = false

instance (s : Roster α) : Decidable s.Waiting := inferInstanceAs (Decidable (∀ task ∈ s.tasks, _))

/-- The scope and the tokens that tasks wait for are not given up. -/
def allows (s : Roster α) : Tokens.Act → Bool
  | .release t => t != s.scope && s.tasks.all fun task => t != task.token
  | _ => true

/-- Nobody else lets handlers in or takes them away. -/
def reserved (index : Nat) : Session.Act α → Bool
  | .request (.join k _) => k == index
  | .request (.leave k _) => k == index
  | _ => false

section Run

variable [Object α]

/-- A handler is let in, and a task is made for it. -/
def accept (s : Roster α) (name : String) (key : HandlerKey) (token : Nat) : Roster α :=
  { s with
    session := s.session.perform (.request (.join s.index name))
    tasks := s.tasks ++ [⟨key, token⟩]
    granted := s.granted ++ [⟨key, token⟩] }

/-- A task takes the key of its handler away, and is over. -/
def dismiss (s : Roster α) (task : Cleanup) : Roster α :=
  { s with
    session := s.session.perform (.request (.leave s.index task.key))
    tasks := s.tasks.erase task }

/-- An attempt to add a handler.  The second part is its key, if it is let in. -/
def enter (s : Roster α) (name : String) (token : Nat) (inside : Bool) :
    Roster α × Option HandlerKey :=
  match Refusal.find? (s.tokens.isCancelled s.scope) (s.tokens.isCancelled token) inside with
  | some _ => (s, none)
  | none =>
    match s.session.informer.join? s.index name s.session.arrivals with
    | some (_, key) => (s.accept name key token, some key)
    | none => (s, none)

def clean (s : Roster α) (task : Cleanup) : Roster α :=
  if task ∈ s.tasks ∧ s.due task then s.dismiss task else s

def perform (s : Roster α) : Act α → Roster α
  | .onTokens a => if s.allows a then { s with tokens := s.tokens.perform a } else s
  | .enter name token inside => if s.tokens.Held token then (s.enter name token inside).1 else s
  | .clean task => s.clean task
  | .onSession a => if reserved s.index a then s else { s with session := s.session.perform a }

def run (s : Roster α) (acts : List (Act α)) : Roster α := acts.foldl perform s

/-- A fan-out that is added to an informer after some acts, with a token as its scope. -/
def begin (before : List (Session.Act α)) (tokens : List Tokens.Act) (scope : Nat) : Roster α where
  session := Session.run (before ++ [.request (.addFanOut .direct)])
  tokens := Tokens.run tokens
  scope := scope
  index := (Session.run before).informer.fanOuts.length
  tasks := []
  granted := []

end Run

/-! ## The fan-out -/

/-- The fan-out is there, with a key for every task. -/
structure Staffed (s : Roster α) (f : FanOut Nat) : Prop where
  found : s.session.informer.fanOuts[s.index]? = some f
  keyed : ∀ key, key ∈ f.handlers.keys ↔ ∃ task ∈ s.tasks, task.key = key
  /-- No key that was given out will be again. -/
  past : ∀ c ∈ s.granted, c.key.epoch < f.nextEpoch

structure Kept (s : Roster α) : Prop where
  sound : s.tokens.Sound
  scope : s.tokens.Held s.scope
  held : ∀ task ∈ s.tasks, s.tokens.Held task.token
  staffed : ∃ f, s.Staffed f
  known : s.tasks.Sublist s.granted
  distinct : (s.granted.map Cleanup.key).Nodup
  /-- A task that is over had reason to be. -/
  gone : ∀ c ∈ s.granted, c ∉ s.tasks → s.due c = true

variable {s : Roster α}

theorem Staffed.keys {f : FanOut Nat} (h : s.Staffed f) : s.keys = f.handlers.keys := by
  unfold Roster.keys handlerKeys
  rw [h.found]

theorem Kept.mem_keys_iff (h : s.Kept) {key : HandlerKey} :
    key ∈ s.keys ↔ ∃ task ∈ s.tasks, task.key = key := by
  obtain ⟨f, hf⟩ := h.staffed
  rw [hf.keys]
  exact hf.keyed key

theorem Kept.keys_increasing (h : s.Kept) :
    s.keys.Pairwise fun a b => compare a b = .lt := by
  obtain ⟨f, hf⟩ := h.staffed
  rw [hf.keys]
  exact SortedMap.keys_increasing f.handlers

/-! ## One act -/

variable [Object α] {s' : Roster α}

/-- All that an act can do. -/
inductive Step (s : Roster α) : Roster α → Prop
  | idle : Step s s
  | tokens {a : Tokens.Act} (ha : s.allows a = true) :
    Step s { s with tokens := s.tokens.perform a }
  | enters {f : FanOut Nat} (hf : s.Staffed f) (name : String) {token : Nat}
      (hheld : s.tokens.Held token) (hscope : s.tokens.isCancelled s.scope = false)
      (htoken : s.tokens.isCancelled token = false) :
    Step s (s.accept name ⟨name, f.nextEpoch⟩ token)
  | leaves {task : Cleanup} (htask : task ∈ s.tasks) (hdue : s.due task = true) :
    Step s (s.dismiss task)
  | session {a : Session.Act α} (ha : reserved s.index a = false) :
    Step s { s with session := s.session.perform a }

/-- Nobody is let in once the scope or the handler's own token is cancelled. -/
theorem enter_of_cancelled {token : Nat}
    (hc : s.tokens.isCancelled s.scope = true ∨ s.tokens.isCancelled token = true) (name : String)
    (inside : Bool) : s.enter name token inside = (s, none) := by
  unfold enter Refusal.find?
  rcases hc with hc | hc
  · rw [if_pos hc]
  · rw [if_pos hc]
    cases s.tokens.isCancelled s.scope <;> rfl

theorem enter_of_outside (name : String) (token : Nat) : s.enter name token false = (s, none) := by
  unfold enter Refusal.find?
  cases s.tokens.isCancelled s.scope <;> cases s.tokens.isCancelled token <;> rfl

/-- Everybody else is, under the next key. -/
theorem enter_of_live {f : FanOut Nat} (hf : s.Staffed f) {token : Nat}
    (hscope : s.tokens.isCancelled s.scope = false) (htoken : s.tokens.isCancelled token = false)
    (name : String) : s.enter name token true =
      (s.accept name ⟨name, f.nextEpoch⟩ token, some ⟨name, f.nextEpoch⟩) := by
  have hjoin : ∃ inf, s.session.informer.join? s.index name s.session.arrivals =
      some (inf, ⟨name, f.nextEpoch⟩) := by
    unfold join?
    rw [hf.found]
    exact ⟨_, rfl⟩
  obtain ⟨inf, hinf⟩ := hjoin
  simp only [enter, Refusal.find?, hscope, htoken, hinf, Bool.false_eq_true, if_false, if_true]

theorem step_enter (h : s.Kept) (name : String) {token : Nat} (hheld : s.tokens.Held token)
    (inside : Bool) : Step s (s.enter name token inside).1 := by
  cases hscope : s.tokens.isCancelled s.scope with
  | true =>
    rw [enter_of_cancelled (Or.inl hscope)]
    exact .idle
  | false =>
    cases htoken : s.tokens.isCancelled token with
    | true =>
      rw [enter_of_cancelled (Or.inr htoken)]
      exact .idle
    | false =>
      cases inside with
      | false =>
        rw [enter_of_outside]
        exact .idle
      | true =>
        obtain ⟨f, hf⟩ := h.staffed
        rw [enter_of_live hf hscope htoken]
        exact .enters hf name hheld hscope htoken

theorem step_clean (s : Roster α) (task : Cleanup) : Step s (s.clean task) := by
  unfold clean
  split
  next hc => exact .leaves hc.1 hc.2
  next => exact .idle

theorem tasks_clean (s : Roster α) (task : Cleanup) : (s.clean task).tasks.Sublist s.tasks := by
  unfold clean
  split
  next => exact List.erase_sublist
  next => exact List.Sublist.refl _

theorem step_perform (h : s.Kept) (a : Act α) : Step s (s.perform a) := by
  cases a with
  | onTokens a =>
    show Step s (if s.allows a then { s with tokens := s.tokens.perform a } else s)
    split
    next ha => exact .tokens ha
    next => exact .idle
  | enter name token inside =>
    show Step s (if s.tokens.Held token then (s.enter name token inside).1 else s)
    split
    next hheld => exact step_enter h name hheld inside
    next => exact .idle
  | clean task => exact step_clean s task
  | onSession a =>
    show Step s (if reserved s.index a then s else { s with session := s.session.perform a })
    split
    next => exact .idle
    next ha => exact .session (Bool.eq_false_iff.mpr ha)

/-! ## What an act keeps -/

omit [Object α] in
/-- Different tasks have different keys. -/
theorem Kept.eq_of_key (h : s.Kept) {c c' : Cleanup} (hc : c ∈ s.granted) (hc' : c' ∈ s.granted)
    (hk : c.key = c'.key) : c = c' :=
  List.inj_on_of_nodup_map h.distinct hc hc' hk

omit [Object α] in
theorem Kept.tasks_nodup (h : s.Kept) : s.tasks.Nodup := h.known.nodup h.distinct.of_map

omit [Object α] in
theorem Kept.due_tokens (h : s.Kept) (a : Tokens.Act) {c : Cleanup} (hc : s.due c = true) :
    due { s with tokens := s.tokens.perform a } c = true := by
  unfold due at hc ⊢
  rcases Bool.or_eq_true_iff.mp hc with hc | hc
  · exact Bool.or_eq_true_iff.mpr (Or.inl (Tokens.isCancelled_perform h.sound a hc))
  · exact Bool.or_eq_true_iff.mpr (Or.inr (Tokens.isCancelled_perform h.sound a hc))

omit [Object α] in
theorem Kept.tokens (h : s.Kept) {a : Tokens.Act} (ha : s.allows a = true) :
    Kept { s with tokens := s.tokens.perform a } := by
  have hscope : a ≠ .release s.scope := by
    rintro rfl
    simp [allows] at ha
  have hheld : ∀ task ∈ s.tasks, a ≠ .release task.token := by
    rintro task htask rfl
    simp only [allows, Bool.and_eq_true, List.all_eq_true] at ha
    simpa using ha.2 task htask
  obtain ⟨f, hf⟩ := h.staffed
  exact ⟨Tokens.sound_perform h.sound a, Tokens.held_perform h.scope hscope,
    fun task htask => Tokens.held_perform (h.held task htask) (hheld task htask),
    ⟨f, hf.found, hf.keyed, hf.past⟩, h.known, h.distinct,
    fun c hc hno => h.due_tokens a (h.gone c hc hno)⟩

/-- The newcomer's key is there besides the others. -/
theorem Staffed.accept {f : FanOut Nat} (hf : s.Staffed f) (name : String) (token : Nat) :
    (s.accept name ⟨name, f.nextEpoch⟩ token).Staffed (f.join name s.session.arrivals).1 := by
  refine ⟨(fanOut_carryOut hf.found _ _).trans (congrArg some (if_pos rfl)), fun key => ?_,
    fun c hc => ?_⟩
  · show key ∈ (f.handlers.insert ⟨name, f.nextEpoch⟩ s.session.arrivals).keys ↔
      ∃ task ∈ s.tasks ++ [⟨⟨name, f.nextEpoch⟩, token⟩], task.key = key
    rw [SortedMap.mem_keys_insert, hf.keyed]
    simp only [List.mem_append, List.mem_singleton, or_and_right, exists_or, exists_eq_left]
    rw [or_comm, eq_comm]
  · rcases List.mem_append.mp hc with hc | hc
    · exact Nat.lt_succ_of_lt (hf.past c hc)
    · rw [List.mem_singleton.mp hc]
      exact Nat.lt_succ_self _

theorem Kept.accept (h : s.Kept) {f : FanOut Nat} (hf : s.Staffed f) (name : String) {token : Nat}
    (hheld : s.tokens.Held token) : (s.accept name ⟨name, f.nextEpoch⟩ token).Kept := by
  refine ⟨h.sound, h.scope, fun task htask => ?_, ⟨_, hf.accept name token⟩,
    h.known.append_right _, ?_, fun c hc hno => ?_⟩
  · rcases List.mem_append.mp htask with htask | htask
    · exact h.held task htask
    · rw [List.mem_singleton.mp htask]
      exact hheld
  · show ((s.granted ++ [(⟨⟨name, f.nextEpoch⟩, token⟩ : Cleanup)]).map Cleanup.key).Nodup
    rw [List.map_append]
    refine h.distinct.append (List.nodup_singleton _) (List.disjoint_singleton.mpr fun hmem => ?_)
    -- its epoch is later than all
    obtain ⟨c, hc, hkey⟩ := List.mem_map.mp hmem
    have hpast := hf.past c hc
    rw [hkey] at hpast
    exact Nat.lt_irrefl _ hpast
  · rcases List.mem_append.mp hc with hold | hnew
    · exact h.gone c hold fun hm => hno (List.mem_append_left _ hm)
    · exact absurd (List.mem_append_right _ hnew) hno

/-- A task that cleans up takes away the key that it was made for. -/
theorem Staffed.dismiss {f : FanOut Nat} (h : s.Kept) (hf : s.Staffed f) {task : Cleanup}
    (htask : task ∈ s.tasks) : (s.dismiss task).Staffed (f.leave task.key).1 := by
  refine ⟨(fanOut_carryOut hf.found _ _).trans (congrArg some (if_pos rfl)), fun key => ?_,
    hf.past⟩
  show key ∈ (f.handlers.erase task.key).keys ↔ ∃ t ∈ s.tasks.erase task, t.key = key
  rw [SortedMap.mem_keys_erase, hf.keyed]
  constructor
  · rintro ⟨⟨t, ht, rfl⟩, hne⟩
    exact ⟨t, h.tasks_nodup.mem_erase_iff.mpr ⟨fun he => hne (congrArg Cleanup.key he), ht⟩, rfl⟩
  · rintro ⟨t, ht, rfl⟩
    obtain ⟨hne, ht⟩ := h.tasks_nodup.mem_erase_iff.mp ht
    exact ⟨⟨t, ht, rfl⟩, fun he =>
      hne (h.eq_of_key (h.known.subset ht) (h.known.subset htask) he)⟩

theorem Kept.dismiss (h : s.Kept) {task : Cleanup} (htask : task ∈ s.tasks)
    (hdue : s.due task = true) : (s.dismiss task).Kept := by
  obtain ⟨f, hf⟩ := h.staffed
  refine ⟨h.sound, h.scope, fun t ht => h.held t (List.mem_of_mem_erase ht),
    ⟨_, hf.dismiss h htask⟩, List.erase_sublist.trans h.known, h.distinct, fun c hc hno => ?_⟩
  by_cases heq : c = task
  · rw [heq]
    exact hdue
  · exact h.gone c hc fun hm => hno ((List.mem_erase_of_ne heq).mpr hm)

/-- No other request changes the fan-out. -/
theorem found_perform {session : Session α} {index : Nat} {a : Session.Act α}
    (ha : reserved index a = false) {f : FanOut Nat}
    (hf : session.informer.fanOuts[index]? = some f) :
    (session.perform a).informer.fanOuts[index]? = some f := by
  rcases steady_perform session a with ⟨r, rfl⟩ | hs
  · have hsame : r.onFanOut session.arrivals index f = f := by
      cases r with
      | join k name => exact if_neg fun hk => by simp [reserved, hk] at ha
      | leave k key => exact if_neg fun hk => by simp [reserved, hk] at ha
      | addHandler | removeHandler | addFanOut | dropFanOut => rfl
    exact (fanOut_carryOut hf _ r).trans (congrArg some hsame)
  · rw [hs.fanOuts]
    exact hf

theorem kept_step (h : s.Kept) (hs : Step s s') : s'.Kept := by
  cases hs with
  | idle => exact h
  | tokens ha => exact h.tokens ha
  | enters hf name hheld _ _ => exact h.accept hf name hheld
  | leaves htask hdue => exact h.dismiss htask hdue
  | session ha =>
    obtain ⟨f, hf⟩ := h.staffed
    exact ⟨h.sound, h.scope, h.held, ⟨f, found_perform ha hf.found, hf.keyed, hf.past⟩, h.known,
      h.distinct, h.gone⟩

theorem Step.scope_eq (hs : Step s s') : s'.scope = s.scope := by
  cases hs <;> rfl

/-- The scope stays cancelled. -/
theorem Step.stopped (hs : Step s s') (h : s.Kept) (hstop : s.tokens.isCancelled s.scope = true) :
    s'.tokens.isCancelled s'.scope = true := by
  cases hs with
  | tokens ha => exact Tokens.isCancelled_perform h.sound _ hstop
  | idle | enters | leaves | session => exact hstop

/-- Nobody comes once the scope is cancelled. -/
theorem Step.tasks_of_stopped (hs : Step s s') (hstop : s.tokens.isCancelled s.scope = true) :
    s'.tasks.Sublist s.tasks := by
  cases hs with
  | leaves htask hdue => exact List.erase_sublist
  | enters hf name hheld hscope _ => exact absurd (hscope.symm.trans hstop) (by simp)
  | idle | tokens | session => exact List.Sublist.refl _

theorem kept_run (acts : List (Act α)) : ∀ {s : Roster α}, s.Kept → (s.run acts).Kept := by
  induction acts with
  | nil => exact fun h => h
  | cons a acts ih => exact fun h => ih (kept_step h (step_perform h a))

theorem kept_begin (before : List (Session.Act α)) {tokens : List Tokens.Act} {scope : Nat}
    (hscope : (Tokens.run tokens).Held scope) : (begin before tokens scope).Kept := by
  refine ⟨Tokens.sound_run tokens, hscope, fun _ ht => absurd ht List.not_mem_nil, ?_,
    List.Sublist.refl _, List.nodup_nil, fun _ hc => absurd hc List.not_mem_nil⟩
  exact ⟨.new (Session.run before).informer.nextId, fanOut_added before,
    fun _ => ⟨fun hk => absurd hk List.not_mem_nil, fun ⟨_, ht, _⟩ => absurd ht List.not_mem_nil⟩,
    fun _ hc => absurd hc List.not_mem_nil⟩

/-! ## What the rest of the program sees -/

omit [Object α] in
/-- While all tasks wait, nobody is behind the fan-out who is to leave, and everybody else is. -/
theorem Kept.mem_keys_of_waiting (h : s.Kept) (hw : s.Waiting) {key : HandlerKey} :
    key ∈ s.keys ↔ ∃ c ∈ s.granted, c.key = key ∧ s.due c = false := by
  rw [h.mem_keys_iff]
  constructor
  · rintro ⟨task, htask, rfl⟩
    exact ⟨task, h.known.subset htask, rfl, hw task htask⟩
  · rintro ⟨c, hc, rfl, hdue⟩
    refine ⟨c, ?_, rfl⟩
    by_contra hno
    exact absurd (h.gone c hc hno) (Bool.eq_false_iff.mp hdue)

/-- A task takes nobody's key away but its own. -/
theorem Kept.keys_clean (h : s.Kept) (task : Cleanup) : (s.clean task).keys ⊆ s.keys ∧
    ∀ key ∈ s.keys, key ≠ task.key → key ∈ (s.clean task).keys := by
  have hmem : ∀ key, key ∈ (s.clean task).keys ↔ _ :=
    fun key => (kept_step h (step_clean s task)).mem_keys_iff
  refine ⟨fun key hkey => ?_, fun key hkey hne => ?_⟩
  · obtain ⟨t, ht, rfl⟩ := (hmem key).mp hkey
    exact h.mem_keys_iff.mpr ⟨t, (tasks_clean s task).subset ht, rfl⟩
  · obtain ⟨t, ht, rfl⟩ := h.mem_keys_iff.mp hkey
    refine (hmem _).mpr ⟨t, ?_, rfl⟩
    unfold clean
    split
    next => exact (List.mem_erase_of_ne fun he => hne (congrArg Cleanup.key he)).mpr ht
    next => exact ht

/-! ## After the scope is cancelled -/

theorem tasks_run (acts : List (Act α)) : ∀ {s : Roster α}, s.Kept →
    s.tokens.isCancelled s.scope = true → (s.run acts).tasks.Sublist s.tasks := by
  induction acts with
  | nil => exact fun _ _ => List.Sublist.refl _
  | cons a acts ih =>
    intro s h hstop
    have hs := step_perform h a
    exact (ih (kept_step h hs) (hs.stopped h hstop)).trans (hs.tasks_of_stopped hstop)

/-- A task that is to clean up and takes its turn is over. -/
theorem not_mem_tasks_clean (h : s.Kept) {task : Cleanup} (hdue : s.due task = true) :
    task ∉ (s.clean task).tasks := by
  unfold clean
  split
  next => exact h.tasks_nodup.not_mem_erase
  next hno => exact fun hm => hno ⟨hm, hdue⟩

theorem not_mem_tasks_run (acts : List (Act α)) {task : Cleanup} : ∀ {s : Roster α}, s.Kept →
    s.tokens.isCancelled s.scope = true → .clean task ∈ acts → task ∉ (s.run acts).tasks := by
  induction acts with
  | nil => exact fun _ _ hm => absurd hm List.not_mem_nil
  | cons a acts ih =>
    intro s h hstop hm
    have hs := step_perform h a
    have h' := kept_step h hs
    have hstop' := hs.stopped h hstop
    rcases List.mem_cons.mp hm with rfl | hm
    · have hdue : s.due task = true := Bool.or_eq_true_iff.mpr (Or.inr hstop)
      exact fun hmem => not_mem_tasks_clean h hdue ((tasks_run acts h' hstop').subset hmem)
    · exact ih h' hstop' hm

/-- Once the scope is cancelled, nobody comes any more, and when every task has taken a turn,
everybody has left. -/
theorem Kept.drains (h : s.Kept) (hstop : s.tokens.isCancelled s.scope = true)
    (acts : List (Act α)) : (s.run acts).keys ⊆ s.keys ∧
      ((∀ task ∈ s.tasks, .clean task ∈ acts) → (s.run acts).keys = []) := by
  have hkept := kept_run acts h
  have hfewer := tasks_run acts h hstop
  constructor
  · intro key hkey
    obtain ⟨task, htask, rfl⟩ := hkept.mem_keys_iff.mp hkey
    exact h.mem_keys_iff.mpr ⟨task, hfewer.subset htask, rfl⟩
  · intro hall
    refine List.eq_nil_iff_forall_not_mem.mpr fun key hkey => ?_
    obtain ⟨task, htask, -⟩ := hkept.mem_keys_iff.mp hkey
    exact not_mem_tasks_run acts h hstop (hall task (hfewer.subset htask)) htask

/-! ## Coming to wait -/

theorem due_clean (s : Roster α) (task c : Cleanup) :
    (s.clean task).due c = s.due c := by
  unfold clean
  split <;> rfl

theorem tasks_of_cleaned (turns : List Cleanup) {task : Cleanup} : ∀ {s : Roster α}, s.Kept →
    task ∈ (s.run (turns.map .clean)).tasks →
      task ∈ s.tasks ∧ (s.run (turns.map .clean)).due task = s.due task ∧
        (task ∈ turns → s.due task = false) := by
  induction turns with
  | nil => exact fun _ hm => ⟨hm, rfl, fun ht => absurd ht List.not_mem_nil⟩
  | cons turn turns ih =>
    intro s h hm
    obtain ⟨hmem, hdue, hlive⟩ := ih (kept_step h (step_clean s turn)) hm
    rw [due_clean] at hdue hlive
    refine ⟨(tasks_clean s turn).subset hmem, hdue, fun ht => ?_⟩
    rcases List.mem_cons.mp ht with rfl | ht
    · by_contra hno
      exact not_mem_tasks_clean h (Bool.of_not_eq_false hno) hmem
    · exact hlive ht

/-- When every task has taken a turn, in whatever order, all of them wait. -/
theorem Kept.comes_to_wait (h : s.Kept) {turns : List Cleanup} (hall : s.tasks ⊆ turns) :
    (s.run (turns.map .clean)).Waiting := by
  intro task htask
  obtain ⟨hmem, hdue, hlive⟩ := tasks_of_cleaned turns h htask
  rw [hdue]
  exact hlive (hall hmem)

/-! ## Whole runs -/

/-- Those behind a fan-out are the ones that ought to be. -/
structure Exact (s : Roster α) : Prop where
  /-- By name, then by epoch. -/
  ordered : s.keys.Pairwise fun a b => compare a b = .lt
  /-- No key is given out twice. -/
  distinct : (s.granted.map Cleanup.key).Nodup
  /-- Whenever all tasks wait, there are the keys of those whose token is not cancelled, unless the
  scope is. -/
  faithful : s.Waiting → ∀ key, key ∈ s.keys ↔ ∃ c ∈ s.granted, c.key = key ∧
    s.tokens.isCancelled c.token = false ∧ s.tokens.isCancelled s.scope = false
  /-- All tasks wait when each has taken a turn, in whatever order. -/
  settles : ∀ turns : List Cleanup, s.tasks ⊆ turns → (s.run (turns.map .clean)).Waiting
  /-- An attempt is in vain if one of the two is cancelled, and changes nothing at all. -/
  refused : ∀ name token inside,
    s.tokens.isCancelled s.scope = true ∨ s.tokens.isCancelled token = true →
      s.enter name token inside = (s, none)
  /-- Any other attempt inside a runtime succeeds, with a key of a later epoch than all before. -/
  admitted : ∀ name token,
    s.tokens.isCancelled s.scope = false → s.tokens.isCancelled token = false →
      ∃ key, (s.enter name token true).2 = some key ∧ key.name = name ∧
        (∀ c ∈ s.granted, c.key.epoch < key.epoch) ∧
          (s.enter name token true).1.granted = s.granted ++ [⟨key, token⟩]
  /-- Once the scope is cancelled, no key comes any more, and none is left as soon as each task has
  taken a turn. -/
  drained : s.tokens.isCancelled s.scope = true → ∀ more : List (Act α),
    (s.run more).keys ⊆ s.keys ∧
      ((∀ task ∈ s.tasks, .clean task ∈ more) → (s.run more).keys = [])
  /-- A task takes away no key but its own. -/
  own : ∀ task : Cleanup, (s.clean task).keys ⊆ s.keys ∧
    ∀ key ∈ s.keys, key ≠ task.key → key ∈ (s.clean task).keys
  /-- A token is cancelled with those that it descends from. -/
  inherited : ∀ t, s.tokens.Held t →
    (s.tokens.isCancelled t = true ↔ ∃ a ∈ s.tokens.named, Descends s.tokens.origins a t)

theorem Kept.exact (h : s.Kept) : s.Exact where
  ordered := h.keys_increasing
  distinct := h.distinct
  faithful hw key := by
    simp only [h.mem_keys_of_waiting hw, due, Bool.or_eq_false_iff]
  settles _ hall := h.comes_to_wait hall
  refused name _ inside hc := enter_of_cancelled hc name inside
  admitted name _ hs ht := by
    obtain ⟨f, hf⟩ := h.staffed
    rw [enter_of_live hf hs ht]
    exact ⟨_, rfl, rfl, hf.past, rfl⟩
  drained hstop more := h.drains hstop more
  own task := h.keys_clean task
  inherited t ht := h.sound.exact t ht

theorem scope_run (acts : List (Act α)) : ∀ {s : Roster α}, s.Kept →
    (s.run acts).scope = s.scope := by
  induction acts with
  | nil => exact fun _ => rfl
  | cons a acts ih =>
    intro s h
    have hs := step_perform h a
    exact (ih (kept_step h hs)).trans hs.scope_eq

/-- **Dynamic handlers neither leak nor vanish.**  Take any acts of an informer and a fan-out that
is added to it, with a token as its scope.  Whatever happens to the tokens, whoever wants to add a
handler, and in whatever order the tasks take their turns, the keys are what they ought to be.  A
handler counts from the moment at which it is let in, so it does not matter whether its replay is
over. -/
theorem keys_exact (before : List (Session.Act α)) (tokens : List Tokens.Act) {scope : Nat}
    (hscope : (Tokens.run tokens).Held scope) (acts : List (Act α)) :
    ((begin before tokens scope).run acts).scope = scope ∧
      ((begin before tokens scope).run acts).Exact :=
  ⟨scope_run acts (kept_begin before hscope), (kept_run acts (kept_begin before hscope)).exact⟩

/-- A scope, a token with another one below it, and one for itself. -/
def family : List Tokens.Act := [.fresh, .fresh, .child 1, .fresh]

/-- Three handlers come, two of them with a token that is cancelled then, or with the one below it.
Their tasks take their turns, and somebody comes too late. -/
def turnover : List (Act Scenario.Obj) :=
  [.enter "b" 1 true, .enter "a" 3 true, .enter "a" 2 true, .onTokens (.cancel 1),
    .clean ⟨⟨"a", 2⟩, 2⟩, .enter "c" 2 true, .clean ⟨⟨"b", 0⟩, 1⟩]

/-- One of the two handlers of a name is left. -/
theorem keys_exact_of_turnover :
    let s := (begin [] family 0).run turnover
    (Tokens.run family).Held 0 ∧ s.scope = 0 ∧ s.Exact ∧ s.Waiting ∧ s.keys = [⟨"a", 1⟩] ∧
      s.granted = [⟨⟨"b", 0⟩, 1⟩, ⟨⟨"a", 1⟩, 3⟩, ⟨⟨"a", 2⟩, 2⟩] := by
  have hscope : (Tokens.run family).Held 0 := by decide
  obtain ⟨hsame, hexact⟩ := keys_exact [] family hscope turnover
  exact ⟨hscope, hsame, hexact, by decide, by decide, by decide⟩

end Roster

end InformerHub
