import InformerHub.Proofs.Registrations

/-!
# The ledger of a session

A ledger numbers all that is delivered: batches, replays, and what fan-outs pass on.  It says which
deliveries are under way, and writes down every call with the number of the delivery that made it.
So although deliveries are made inside one another, one can say what each of them has told.

> The calls of a delivery are made in their order, and all of them unless a panic cuts it short
> (`Kept.made_prefix`, `Kept.full`).  Once a batch has made a call, no earlier delivery makes
> another one (`Kept.serial`).

`Delivers` lists all that an act can do to the deliveries; `delivers_perform` is where the informer
is opened.
-/

namespace InformerHub

open Informer Session

variable {α : Type}

/-- Something to deliver, and to whom. -/
inductive Occasion (α : Type) where
  /-- A batch with its events, for those who are registered when it begins. -/
  | batch (b : Batch α) (events : List (Event α)) (audience : List (Registration Nat))
  /-- What is stored when somebody is registered. -/
  | replay (r : Registration Nat) (stock : List α)
  /-- Something for handlers behind a fan-out. -/
  | aside (calls : List (Call α Nat))

namespace Occasion

/-- The calls to make. -/
def calls : Occasion α → List (Call α Nat)
  | .batch _ events audience => callsOf events (audience.map Registration.target)
  | .replay r stock => callsOf (Event.replay stock) [r.target]
  | .aside calls => calls

def isBatch : Occasion α → Bool
  | .batch .. => true
  | _ => false

/-- The items of a full list. -/
def list? : Occasion α → Option (List α)
  | .batch (.relist items) .. => some items
  | _ => none

end Occasion

/-! ## What an act does to the deliveries -/

namespace Session

/-- What becomes of the innermost delivery. -/
inductive Deed (α : Type) where
  | call (c : Call α Nat)
  | finish

/-- The calls that were made by it. -/
def Deed.made : Deed α → List (Call α Nat)
  | .call c => [c]
  | .finish => []

/-- What an act does with the innermost delivery. -/
def deed? (s : Session α) : Act α → Option (Deed α)
  | .proceed =>
    match s.informer.deliveries with
    | [] => none
    | ⟨[], _⟩ :: _ => some .finish
    | ⟨c :: _, _⟩ :: _ => some (.call c)
  | _ => none

/-- Who is registered by an act. -/
def newcomer? (s : Session α) : Act α → Option (Target Nat)
  | .request (.addHandler .direct) => some (.handler s.arrivals)
  | .request (.addFanOut .direct) => some (.fanOut s.informer.fanOuts.length)
  | _ => none

variable [Object α]

/-- Whether a batch has nothing to tell, and does not begin. -/
def Batch.isVoid (inf : Informer α Nat) : Batch α → Bool
  | .change c => (relate inf.store c).2.isNone
  | _ => false

/-- What begins to be delivered by an act. -/
def occasion? (s : Session α) : Act α → Option (Occasion α)
  | .batch b =>
    if s.informer.deliveries.isEmpty && !b.isVoid s.informer then
      some (.batch b (b.events s.informer) s.informer.registrations)
    else none
  | .request (.join index _) => s.informer.fanOuts[index]?.map fun _ =>
      .aside (callsOf (Event.replay s.informer.store.list) [.handler s.arrivals])
  | .request r => (s.newcomer? (.request r)).map fun t =>
      .replay ⟨s.informer.nextId, t⟩ s.informer.store.list
  | .proceed =>
    match s.deed? .proceed with
    | some (.call ⟨.fanOut index, e⟩) => some (.aside (callsOf [e] (s.informer.joined index)))
    | _ => none

/-- All that can happen to the deliveries under way. -/
inductive Delivers (inf inf' : Informer α Nat) : Option (Deed α) → Option (Occasion α) → Prop
  | rests (hds : inf'.deliveries = inf.deliveries) (hsynced : inf'.synced = inf.synced) :
    Delivers inf inf' none none
  | begins {o : Occasion α} (hbatch : o.isBatch = true → inf.deliveries = [])
    (hds : inf'.deliveries = ⟨o.calls, o.list?.isSome && !inf.synced⟩ :: inf.deliveries)
    (hsynced : inf'.synced = inf.synced) : Delivers inf inf' none (some o)
  | calls {c : Call α Nat} {cs : List (Call α Nat)} {completes : Bool} {ds : List (Delivery α Nat)}
    (hbefore : inf.deliveries = ⟨c :: cs, completes⟩ :: ds)
    (hds : inf'.deliveries = ⟨cs, completes⟩ :: ds) (hsynced : inf'.synced = inf.synced) :
    Delivers inf inf' (some (.call c)) none
  /-- A call makes a fan-out pass something on. -/
  | forwards {c : Call α Nat} {cs calls : List (Call α Nat)} {completes : Bool}
    {ds : List (Delivery α Nat)} (hbefore : inf.deliveries = ⟨c :: cs, completes⟩ :: ds)
    (hds : inf'.deliveries = ⟨calls, false⟩ :: ⟨cs, completes⟩ :: ds)
    (hsynced : inf'.synced = inf.synced) : Delivers inf inf' (some (.call c)) (some (.aside calls))
  | finishes {completes : Bool} {ds : List (Delivery α Nat)}
    (hbefore : inf.deliveries = ⟨[], completes⟩ :: ds) (hds : inf'.deliveries = ds)
    (hsynced : inf'.synced = (inf.synced || completes)) : Delivers inf inf' (some .finish) none

theorem delivers_batch (s : Session α) (b : Batch α) :
    Delivers s.informer (s.perform (.batch b)).informer none (s.occasion? (.batch b)) := by
  by_cases hr : s.AtRest
  · have hd : s.informer.deliveries = [] := hr
    rw [perform_batch_of_atRest hr]
    simp only [occasion?, hd, List.isEmpty_nil, Bool.true_and]
    cases b with
    | relist items => exact .begins (fun _ => hd) rfl rfl
    | resync => exact .begins (fun _ => hd) rfl rfl
    | change c =>
      obtain ⟨store, e, hc⟩ : ∃ store e, relate s.informer.store c = (store, e) := ⟨_, _, rfl⟩
      simp only [Batch.begin, Batch.isVoid, Batch.events, change, hc]
      cases e with
      | some e => exact .begins (fun _ => hd) rfl rfl
      | none => exact .rests rfl rfl
  · have hd : s.informer.deliveries.isEmpty = false :=
      Bool.eq_false_iff.mpr fun he => hr (List.isEmpty_iff.mp he)
    rw [perform_batch_of_not_atRest hr]
    simp only [occasion?, hd]
    exact .rests rfl rfl

theorem delivers_request (s : Session α) (r : Request) :
    Delivers s.informer (s.perform (.request r)).informer none (s.occasion? (.request r)) := by
  show Delivers s.informer (r.carryOut s.informer s.arrivals) none _
  have noBatch : ∀ {o : Occasion α}, o.isBatch = false → o.isBatch = true →
      s.informer.deliveries = [] := fun hf ht => absurd (hf.symm.trans ht) Bool.false_ne_true
  cases r with
  | addHandler a =>
    cases a with
    | direct => exact .begins (noBatch rfl) rfl rfl
    | dynamic => exact .rests rfl rfl
  | removeHandler a id => cases a <;> exact .rests rfl rfl
  | addFanOut a =>
    cases a with
    | direct => exact .begins (noBatch rfl) rfl rfl
    | dynamic => exact .rests rfl rfl
  | dropFanOut index =>
    show Delivers s.informer (s.informer.dropFanOut index) none none
    unfold dropFanOut
    split <;> exact .rests rfl rfl
  | join index name =>
    simp only [Request.carryOut, join?, occasion?]
    cases s.informer.fanOuts[index]? with
    | none => exact .rests rfl rfl
    | some f => exact .begins (noBatch rfl) rfl rfl
  | leave index key =>
    show Delivers s.informer (s.informer.leave index key).1 none none
    unfold leave
    split <;> exact .rests rfl rfl

theorem delivers_proceed (s : Session α) :
    Delivers s.informer (s.perform .proceed).informer (s.deed? .proceed)
      (s.occasion? .proceed) := by
  unfold perform occasion? deed?
  cases hds : s.informer.deliveries with
  | nil =>
    simp only [next?, close, hds]
    exact .rests rfl rfl
  | cons d ds =>
    obtain ⟨pending, completes⟩ := d
    cases pending with
    | nil =>
      simp only [next?, close, hds]
      exact .finishes hds rfl rfl
    | cons c cs =>
      obtain ⟨t, e⟩ := c
      simp only [next?, hds, pass]
      cases t with
      | handler n => exact .calls hds rfl rfl
      | fanOut index => exact .forwards hds rfl rfl

/-- An act does one of the things that are listed. -/
theorem delivers_perform (s : Session α) (a : Act α) :
    Delivers s.informer (s.perform a).informer (s.deed? a) (s.occasion? a) := by
  cases a with
  | batch b => exact delivers_batch s b
  | request r => exact delivers_request s r
  | proceed => exact delivers_proceed s

theorem calls_perform (s : Session α) (a : Act α) :
    (s.perform a).calls = s.calls ++ (s.deed? a).elim [] Deed.made := by
  cases a with
  | batch b =>
    unfold perform
    dsimp only
    split <;> exact (List.append_nil _).symm
  | request r => exact (List.append_nil _).symm
  | proceed =>
    unfold perform deed?
    cases hds : s.informer.deliveries with
    | nil =>
      simp only [next?, hds]
      exact (List.append_nil _).symm
    | cons d ds =>
      obtain ⟨_ | ⟨c, cs⟩, completes⟩ := d
      · simp only [next?, hds]
        exact (List.append_nil _).symm
      · simp only [next?, hds]
        rfl

end Session

/-! ## Numbers -/

/-- All that has begun to be delivered, numbered, and what has become of it. -/
structure Ledger (α : Type) where
  occasions : List (Occasion α)
  /-- What is being delivered, the innermost delivery first. -/
  underWay : List Nat
  /-- What a panic has cut short. -/
  cut : List Nat
  /-- The calls that were made, each with the number of its delivery. -/
  log : List (Nat × Call α Nat)

namespace Ledger

def new : Ledger α := ⟨[], [], [], []⟩

/-- The calls of a delivery that were made. -/
def made (l : Ledger α) (n : Nat) : List (Call α Nat) :=
  (l.log.filter fun x => x.1 == n).map Prod.snd

/-- A delivery is over, and has not been cut short. -/
def Over (l : Ledger α) (n : Nat) : Prop := n ∉ l.underWay ∧ n ∉ l.cut

instance (l : Ledger α) (n : Nat) : Decidable (l.Over n) := inferInstanceAs (Decidable (_ ∧ _))

/-- The innermost delivery makes a call. -/
def call (l : Ledger α) (c : Call α Nat) : Ledger α :=
  { l with log := l.log ++ (l.underWay.head?.map fun n => (n, c)).toList }

/-- The innermost delivery ends. -/
def finish (l : Ledger α) : Ledger α := { l with underWay := l.underWay.tail }

/-- A delivery begins inside those under way. -/
def begin (l : Ledger α) (o : Occasion α) : Ledger α :=
  { l with occasions := l.occasions ++ [o], underWay := l.occasions.length :: l.underWay }

/-- The innermost `n` deliveries end where they are. -/
def abandon (l : Ledger α) (n : Nat) : Ledger α :=
  { l with underWay := l.underWay.drop n, cut := l.cut ++ l.underWay.take n }

/-- What is written down when the innermost delivery does something, and another one begins. -/
def note (l : Ledger α) (deed : Option (Deed α)) (o : Option (Occasion α)) : Ledger α :=
  let l := match deed with
    | some (.call c) => l.call c
    | some .finish => l.finish
    | none => l
  match o with
  | some o => l.begin o
  | none => l

/-- The ledger is right about the deliveries that are under way. -/
structure Kept (l : Ledger α) (ds : List (Delivery α Nat)) : Prop where
  length : l.underWay.length = ds.length
  aligned : ∀ x ∈ l.underWay.zip ds, ∃ o, l.occasions[x.1]? = some o ∧
    l.made x.1 ++ x.2.pending = o.calls
  nested : l.underWay.Pairwise (· > ·)
  known : ∀ n ∈ l.underWay, n < l.occasions.length
  begun : ∀ x ∈ l.log, x.1 < l.occasions.length
  made_prefix : ∀ n o, l.occasions[n]? = some o → l.made n <+: o.calls
  full : ∀ n o, l.occasions[n]? = some o → l.Over n → l.made n = o.calls
  /-- A batch is the outermost delivery, so none that is under way is older. -/
  floor : ∀ m o, l.occasions[m]? = some o → o.isBatch = true → ∀ n ∈ l.underWay, m ≤ n
  serial : l.log.Pairwise fun x y =>
    ∀ o, l.occasions[x.1]? = some o → o.isBatch = true → x.1 ≤ y.1

section Kept

variable {l : Ledger α} {d : Delivery α Nat} {ds : List (Delivery α Nat)}

theorem kept_new : (new : Ledger α).Kept [] where
  length := rfl
  aligned x hx := absurd hx List.not_mem_nil
  nested := .nil
  known n hn := absurd hn List.not_mem_nil
  begun x hx := absurd hx List.not_mem_nil
  made_prefix n o ho := absurd ho (by simp [new])
  full n o ho := absurd ho (by simp [new])
  floor m o ho := absurd ho (by simp [new])
  serial := .nil

/-- The innermost delivery has a number, and so have those around it. -/
theorem Kept.cons_cases (h : l.Kept (d :: ds)) : ∃ n ns o, l.underWay = n :: ns ∧
    l.occasions[n]? = some o ∧ l.made n ++ d.pending = o.calls ∧ n ∉ ns := by
  cases hu : l.underWay with
  | nil => exact absurd (hu ▸ h.length) (by simp)
  | cons n ns =>
    obtain ⟨o, ho, hmade⟩ := h.aligned (n, d) (by rw [hu]; exact List.mem_cons_self)
    refine ⟨n, ns, o, rfl, ho, hmade, fun hn => ?_⟩
    have hnested := h.nested
    rw [hu] at hnested
    exact Nat.lt_irrefl n ((List.pairwise_cons.mp hnested).1 n hn)

theorem made_call {n : Nat} {ns : List Nat} (hu : l.underWay = n :: ns) (c : Call α Nat)
    (m : Nat) : (l.call c).made m = l.made m ++ if n = m then [c] else [] := by
  unfold made call
  rw [hu, List.filter_append, List.map_append]
  by_cases hm : n = m <;> simp [hm]

theorem Kept.call {c : Call α Nat} {cs : List (Call α Nat)} {completes : Bool}
    (h : l.Kept (⟨c :: cs, completes⟩ :: ds)) : (l.call c).Kept (⟨cs, completes⟩ :: ds) := by
  obtain ⟨n, ns, o, hu, ho, hmade, hn⟩ := h.cons_cases
  have hcall := made_call hu c
  have hlog : (l.call c).log = l.log ++ [(n, c)] := by
    unfold Ledger.call
    rw [hu]
    rfl
  have hother : ∀ {m}, n ≠ m → (l.call c).made m = l.made m := fun hm => by
    rw [hcall, if_neg hm, List.append_nil]
  have hown : (l.call c).made n ++ cs = o.calls := by
    rw [hcall, if_pos rfl, List.append_assoc]
    exact hmade
  refine ⟨h.length, fun x hx => ?_, h.nested, h.known, fun x hx => ?_, fun m o' ho' => ?_,
    fun m o' ho' hover => ?_, h.floor, ?_⟩
  · have hx : x ∈ l.underWay.zip (⟨cs, completes⟩ :: ds) := hx
    rw [hu, List.zip_cons_cons] at hx
    rcases List.mem_cons.mp hx with rfl | hx
    · exact ⟨o, ho, hown⟩
    · obtain ⟨o', ho', hmade'⟩ := h.aligned x (by
        rw [hu, List.zip_cons_cons]
        exact List.mem_cons_of_mem _ hx)
      have hne : n ≠ x.1 := fun he => hn (he ▸ (List.of_mem_zip hx).1)
      exact ⟨o', ho', hother hne ▸ hmade'⟩
  · rw [hlog] at hx
    rcases List.mem_append.mp hx with hx | hx
    · exact h.begun x hx
    · rw [List.mem_singleton.mp hx]
      exact h.known n (hu ▸ List.mem_cons_self)
  · by_cases hm : n = m
    · subst hm
      obtain rfl := Option.some.inj (ho.symm.trans ho')
      exact ⟨cs, hown⟩
    · rw [hother hm]
      exact h.made_prefix m o' ho'
  · have hm : n ≠ m := fun he => hover.1 (he ▸ hu ▸ List.mem_cons_self)
    rw [hother hm]
    exact h.full m o' ho' hover
  · -- the delivery that makes the call is under way, so no batch is younger
    rw [hlog]
    refine List.pairwise_append.mpr ⟨h.serial, List.pairwise_singleton _ _, ?_⟩
    intro x hx y hy o' ho' hbatch
    rw [List.mem_singleton.mp hy]
    exact h.floor x.1 o' ho' hbatch n (hu ▸ List.mem_cons_self)

theorem Kept.finish {completes : Bool} (h : l.Kept (⟨[], completes⟩ :: ds)) :
    l.finish.Kept ds := by
  obtain ⟨n, ns, o, hu, ho, hmade, hn⟩ := h.cons_cases
  have htail : l.finish.underWay = ns := by
    unfold Ledger.finish
    rw [hu]
    rfl
  refine ⟨?_, fun x hx => ?_, ?_, fun m hm => ?_, h.begun, h.made_prefix,
    fun m o' ho' hover => ?_, fun m o' ho' hbatch k hk => ?_, h.serial⟩
  · have hlength := h.length
    rw [hu, List.length_cons, List.length_cons] at hlength
    rw [htail]
    exact Nat.succ.inj hlength
  · refine h.aligned x ?_
    rw [hu, List.zip_cons_cons]
    exact List.mem_cons_of_mem _ (htail ▸ hx)
  · exact h.nested.sublist (List.tail_sublist _)
  · exact h.known m (List.mem_of_mem_tail hm)
  · by_cases hm : m = n
    · subst hm
      obtain rfl := Option.some.inj (ho.symm.trans ho')
      rw [List.append_nil] at hmade
      exact hmade
    · refine h.full m o' ho' ⟨fun hmem => ?_, hover.2⟩
      rw [hu] at hmem
      rcases List.mem_cons.mp hmem with rfl | hmem
      · exact hm rfl
      · exact hover.1 (htail ▸ hmem)
  · exact h.floor m o' ho' hbatch k (List.mem_of_mem_tail hk)

/-- No call has been made for what has yet to begin. -/
theorem Kept.made_next (h : l.Kept ds) : l.made l.occasions.length = [] := by
  unfold made
  rw [List.map_eq_nil_iff, List.filter_eq_nil_iff]
  intro x hx heq
  exact Nat.ne_of_lt (h.begun x hx) (eq_of_beq heq)

theorem Kept.begin (h : l.Kept ds) (o : Occasion α) (hbatch : o.isBatch = true → ds = [])
    (completes : Bool) : (l.begin o).Kept (⟨o.calls, completes⟩ :: ds) := by
  have hold : ∀ {m : Nat} {o' : Occasion α}, l.occasions[m]? = some o' →
      (l.occasions ++ [o])[m]? = some o' := fun ho => getElem?_concat_eq_some.mpr (Or.inl ho)
  have hnew : (l.occasions ++ [o])[l.occasions.length]? = some o :=
    getElem?_concat_eq_some.mpr (Or.inr ⟨rfl, rfl⟩)
  have hlength : (l.begin o).occasions.length = l.occasions.length + 1 := List.length_append
  refine ⟨congrArg (· + 1) h.length, fun x hx => ?_, ?_, fun m hm => ?_, fun x hx => ?_,
    fun m o' ho' => ?_, fun m o' ho' hover => ?_, fun m o' ho' hb k hk => ?_, ?_⟩
  · have hx : x ∈ (l.occasions.length :: l.underWay).zip (⟨o.calls, completes⟩ :: ds) := hx
    rw [List.zip_cons_cons] at hx
    rcases List.mem_cons.mp hx with rfl | hx
    · refine ⟨o, hnew, ?_⟩
      show l.made l.occasions.length ++ o.calls = o.calls
      rw [h.made_next, List.nil_append]
    · obtain ⟨o', ho', hmade⟩ := h.aligned x hx
      exact ⟨o', hold ho', hmade⟩
  · exact List.pairwise_cons.mpr ⟨h.known, h.nested⟩
  · rw [hlength]
    rcases List.mem_cons.mp hm with rfl | hm
    · exact Nat.lt_succ_self _
    · exact Nat.lt_succ_of_lt (h.known m hm)
  · rw [hlength]
    exact Nat.lt_succ_of_lt (h.begun x hx)
  · show l.made m <+: o'.calls
    rcases getElem?_concat_eq_some.mp ho' with ho' | ⟨rfl, rfl⟩
    · exact h.made_prefix m o' ho'
    · rw [h.made_next]
      exact List.nil_prefix
  · rcases getElem?_concat_eq_some.mp ho' with ho' | ⟨rfl, -⟩
    · exact h.full m o' ho' ⟨fun hm => hover.1 (List.mem_cons_of_mem _ hm), hover.2⟩
    · exact absurd List.mem_cons_self hover.1
  · rcases getElem?_concat_eq_some.mp ho' with ho' | ⟨rfl, rfl⟩
    · rcases List.mem_cons.mp hk with rfl | hk
      · exact Nat.le_of_lt (List.getElem?_eq_some_iff.mp ho').1
      · exact h.floor m o' ho' hb k hk
    · -- the batch is alone
      have hnone : l.underWay = [] := List.length_eq_zero_iff.mp (by rw [h.length, hbatch hb]; rfl)
      have hk : k ∈ l.occasions.length :: l.underWay := hk
      rw [hnone, List.mem_singleton] at hk
      exact Nat.le_of_eq hk.symm
  · refine h.serial.imp_of_mem fun {x y} hx _ hxy o' ho' hb => hxy o' ?_ hb
    rcases getElem?_concat_eq_some.mp ho' with ho' | ⟨hlast, -⟩
    · exact ho'
    · exact absurd hlast (Nat.ne_of_lt (h.begun x hx))

theorem Kept.abandon (h : l.Kept ds) (n : Nat) : (l.abandon n).Kept (ds.drop n) := by
  refine ⟨?_, fun x hx => ?_, h.nested.drop, fun m hm => h.known m (List.mem_of_mem_drop hm),
    h.begun, h.made_prefix, fun m o ho hover => ?_,
    fun m o ho hb k hk => h.floor m o ho hb k (List.mem_of_mem_drop hk), h.serial⟩
  · show (l.underWay.drop n).length = _
    rw [List.length_drop, List.length_drop, h.length]
  · refine h.aligned x (List.mem_of_mem_drop (i := n) ?_)
    rw [List.zip_eq_zipWith, List.drop_zipWith]
    exact hx
  · obtain ⟨hdrop, hcut⟩ := hover
    have hcut : m ∉ l.cut ++ l.underWay.take n := hcut
    refine h.full m o ho ⟨fun hm => ?_, fun hm => hcut (List.mem_append_left _ hm)⟩
    rw [← List.take_append_drop n l.underWay] at hm
    rcases List.mem_append.mp hm with hm | hm
    · exact hcut (List.mem_append_right _ hm)
    · exact hdrop hm

/-- The ledger stays right, whatever happens to the deliveries. -/
theorem Kept.note {inf inf' : Informer α Nat} (h : l.Kept inf.deliveries)
    {deed : Option (Deed α)} {o : Option (Occasion α)} (hd : Delivers inf inf' deed o) :
    (l.note deed o).Kept inf'.deliveries := by
  cases hd with
  | rests hds =>
    rw [hds]
    exact h
  | begins hbatch hds =>
    rw [hds]
    exact h.begin _ hbatch _
  | calls hbefore hds =>
    rw [hds]
    exact Kept.call (hbefore ▸ h)
  | forwards hbefore hds =>
    rw [hds]
    exact (Kept.call (hbefore ▸ h)).begin _ (fun hb => absurd hb (by simp [Occasion.isBatch])) _
  | finishes hbefore hds =>
    rw [hds]
    exact Kept.finish (hbefore ▸ h)

theorem occasions_note (l : Ledger α) (deed : Option (Deed α)) (o : Option (Occasion α)) :
    (l.note deed o).occasions = l.occasions ++ o.toList := by
  rcases deed with _ | c | _ <;> rcases o with _ | o <;> simp [note, begin, call, finish]

theorem cut_note (l : Ledger α) (deed : Option (Deed α)) (o : Option (Occasion α)) :
    (l.note deed o).cut = l.cut := by
  rcases deed with _ | c | _ <;> rcases o with _ | o <;> rfl

/-- The calls in the log are those that were made. -/
theorem Kept.calls_note {inf inf' : Informer α Nat} (h : l.Kept inf.deliveries)
    {deed : Option (Deed α)} {o : Option (Occasion α)} (hd : Delivers inf inf' deed o) :
    (l.note deed o).log.map Prod.snd = l.log.map Prod.snd ++ deed.elim [] Deed.made := by
  have hcall : ∀ {c cs completes ds}, inf.deliveries = ⟨c :: cs, completes⟩ :: ds →
      (l.call c).log.map Prod.snd = l.log.map Prod.snd ++ [c] := by
    intro c cs completes ds hbefore
    obtain ⟨n, ns, o, hu, -⟩ := Kept.cons_cases (hbefore ▸ h)
    unfold Ledger.call
    rw [hu]
    exact List.map_append
  cases hd with
  | rests | begins | finishes => exact (List.append_nil _).symm
  | calls hbefore => exact hcall hbefore
  | forwards hbefore => exact hcall hbefore

/-- Every call that was made is one of its delivery. -/
theorem Kept.mem_calls (h : l.Kept ds) {n : Nat} {c : Call α Nat} (hc : (n, c) ∈ l.log) :
    ∃ o, l.occasions[n]? = some o ∧ c ∈ o.calls := by
  have hn := h.begun _ hc
  refine ⟨_, List.getElem?_eq_getElem hn, ?_⟩
  refine (h.made_prefix n _ (List.getElem?_eq_getElem hn)).subset ?_
  exact List.mem_map.mpr ⟨(n, c), List.mem_filter.mpr ⟨hc, beq_self_eq_true n⟩, rfl⟩

end Kept

end Ledger

end InformerHub
