import Mathlib.Data.List.Infix
import InformerHub.Proofs.Overlay

/-!
# Settings as whole documents

A document that has all settings is read number by number: no default of a section or of a policy
is asked for (`Settings.ofDocument_eq`).  The settings of a process are such a document
(`Settings.at?_toDocument`) unless a number is too great for a layer.
-/

namespace InformerHub

/-! ## One result after the other -/

theorem mapM_ok {ε α β : Type} {f : α → Except ε β} {g : α → β} {l : List α}
    (h : ∀ a ∈ l, f a = .ok (g a)) : l.mapM f = .ok (l.map g) := by
  induction l with
  | nil => rfl
  | cons a l ih =>
    rw [List.mapM_cons, h a (List.mem_cons_self ..), ih fun b hb => h b (List.mem_cons_of_mem a hb)]
    rfl

/-- If parts fail in one way only, then all fails that way. -/
theorem mapM_error {ε α β : Type} {f : α → Except ε β} {e : ε} {l : List α}
    (h : ∀ a ∈ l, (∃ b, f a = .ok b) ∨ f a = .error e) (he : ∃ a ∈ l, f a = .error e) :
    l.mapM f = .error e := by
  induction l with
  | nil =>
    obtain ⟨a, ha, -⟩ := he
    exact absurd ha List.not_mem_nil
  | cons a l ih =>
    rw [List.mapM_cons]
    rcases h a (List.mem_cons_self ..) with ⟨b, hb⟩ | hb
    · have he' : ∃ a ∈ l, f a = .error e := by
        obtain ⟨c, hc, hce⟩ := he
        rcases List.mem_cons.mp hc with rfl | hc
        · exact absurd (hb.symm.trans hce) (by simp)
        · exact ⟨c, hc, hce⟩
      rw [hb, ih (fun c hc => h c (List.mem_cons_of_mem a hc)) he']
      rfl
    · rw [hb]
      rfl

/-! ## Reading a whole document -/

namespace Reading

variable {ε : Type} (r : Reading ε) {d value : Document} {n : String} {ns : List String}

/-- The section that a path begins with. -/
theorem exists_section (h : d.at? (n :: ns) = some value) :
    ∃ inner : Document, Document.lookup? n d.entries = some inner ∧
      ∀ ns, d.at? (n :: ns) = inner.at? ns := by
  obtain ⟨inner, hinner, -⟩ := Document.exists_of_at? (by rw [h]; rfl)
  exact ⟨inner, hinner, fun ns => by rw [Document.at?_cons, hinner]; rfl⟩

theorem fields_of_at? (h : d.at? (n :: ns) = some value) (expected : String)
    (names : List String) : r.fields expected names d = pure d.entries := by
  obtain ⟨inner, hinner, -⟩ := exists_section h
  cases d with
  | table es => rfl
  | null | bool | integer | float | text | list =>
    exact absurd hinner (by simp [Document.entries, Document.lookup?])

theorem wordOr_of_at? (h : d.at? [n] = some value) (default : UInt64) :
    r.wordOr default n d.entries = r.word value := by
  obtain ⟨inner, hinner, hat⟩ := exists_section h
  obtain rfl : inner = value := Option.some.inj ((hat []).symm.trans h)
  unfold wordOr
  rw [hinner]

theorem sectionOr_of_lookup? {α : Type} {es : List (String × Document)}
    (h : Document.lookup? n es = some d) (default : α) (read : Document → Except ε α) :
    sectionOr default read n es = read d := by
  unfold sectionOr
  rw [h]

theorem word_integer_of_integerWord? {n : Int} {w : UInt64} (h : integerWord? n = some w) :
    lenient.word (.integer n) = .ok w := by
  unfold lenient
  dsimp only
  rw [h]

theorem word_text (t : String) : lenient.word (.text t) =
    match textWord? t with
    | some w => .ok w
    | none => .error .wrongType := rfl

/-- A number is read, or the document has a wrong type. -/
theorem lenient_word_cases (d : Document) :
    (∃ w, lenient.word d = .ok w) ∨ lenient.word d = .error .wrongType := by
  unfold lenient
  dsimp only
  split
  · split
    · exact Or.inl ⟨_, rfl⟩
    · exact Or.inr rfl
  · exact Or.inl ⟨_, rfl⟩
  · exact Or.inl ⟨_, rfl⟩
  · split
    · exact Or.inl ⟨_, rfl⟩
    · exact Or.inr rfl
  · exact Or.inr rfl

end Reading

theorem BackoffPolicy.ofDocument_eq {ε : Type} (r : Reading ε) {d v₁ v₂ v₃ v₄ : Document}
    (h₁ : d.at? ["max_retries"] = some v₁) (h₂ : d.at? ["timeout_ms"] = some v₂)
    (h₃ : d.at? ["base_delay_ms"] = some v₃) (h₄ : d.at? ["max_delay_ms"] = some v₄) :
    BackoffPolicy.ofDocument r d = do
      return ⟨← r.word v₁, ← r.word v₂, ← r.word v₃, ← r.word v₄⟩ := by
  unfold BackoffPolicy.ofDocument
  rw [r.fields_of_at? h₁]
  simp only [pure_bind, r.wordOr_of_at? h₁, r.wordOr_of_at? h₂, r.wordOr_of_at? h₃,
    r.wordOr_of_at? h₄]

namespace Settings

/-- The paths of all settings, in the order of the sections. -/
def paths : List (List String) := standard.leaves.map Prod.fst

theorem map_fst_leaves (s : Settings) : s.leaves.map Prod.fst = paths := rfl

theorem mem_paths {s : Settings} {l : List String × UInt64} (hl : l ∈ s.leaves) : l.1 ∈ paths :=
  map_fst_leaves s ▸ List.mem_map_of_mem hl

/-- Settings from their numbers, in the order of the sections. -/
def ofWords : List UInt64 → Settings
  | [a, b, c, d, e, f, g, h, i, j, k, l] => ⟨⟨a, b⟩, ⟨c⟩, ⟨d⟩, ⟨e, f, g, h⟩, ⟨i, j, k, l⟩⟩
  | _ => standard

theorem ofWords_leaves (s : Settings) : ofWords (s.leaves.map Prod.snd) = s := rfl

theorem leaves_ofWords (s : Settings) (word : List String × UInt64 → UInt64) :
    (ofWords (s.leaves.map word)).leaves = s.leaves.map fun l => (l.1, word l) := rfl

/-- Reading a document that has all settings is reading their numbers one after the other. -/
theorem ofDocument_eq {ε : Type} (r : Reading ε) (s : Settings) {d : Document}
    {value : List String × UInt64 → Document}
    (h : ∀ l ∈ s.leaves, d.at? l.1 = some (value l)) :
    Settings.ofDocument r d = ofWords <$> s.leaves.mapM fun l => r.word (value l) := by
  simp only [leaves, BackoffPolicy.entries, List.map_cons, List.map_nil, List.cons_append,
    List.nil_append] at h ⊢
  simp only [List.forall_mem_cons] at h
  obtain ⟨h₁, h₂, h₃, h₄, h₅, h₆, h₇, h₈, h₉, h₁₀, h₁₁, h₁₂, -⟩ := h
  -- the sections, and the settings within each of them
  obtain ⟨heartbeat, rheartbeat, hheartbeat⟩ := Reading.exists_section h₁
  obtain ⟨informer, rinformer, hinformer⟩ := Reading.exists_section h₃
  obtain ⟨controllers, rcontrollers, hcontrollers⟩ := Reading.exists_section h₄
  obtain ⟨retry, rretry, hretry⟩ := Reading.exists_section h₅
  rw [hheartbeat] at h₁ h₂
  rw [hinformer] at h₃
  rw [hcontrollers] at h₄
  rw [hretry] at h₅ h₆ h₇ h₈ h₉ h₁₀ h₁₁ h₁₂
  obtain ⟨relist, rrelist, hrelist⟩ := Reading.exists_section h₅
  obtain ⟨statusUpdate, rstatus, hstatus⟩ := Reading.exists_section h₉
  rw [hrelist] at h₅ h₆ h₇ h₈
  rw [hstatus] at h₉ h₁₀ h₁₁ h₁₂
  unfold Settings.ofDocument
  rw [r.fields_of_at? (hheartbeat [])]
  simp only [pure_bind, Reading.sectionOr_of_lookup? rheartbeat, HeartbeatSettings.ofDocument,
    r.fields_of_at? h₁, r.wordOr_of_at? h₁, r.wordOr_of_at? h₂,
    Reading.sectionOr_of_lookup? rinformer, InformerSettings.ofDocument, r.fields_of_at? h₃,
    r.wordOr_of_at? h₃, Reading.sectionOr_of_lookup? rcontrollers, ControllerSettings.ofDocument,
    r.fields_of_at? h₄, r.wordOr_of_at? h₄, Reading.sectionOr_of_lookup? rretry,
    RetrySettings.ofDocument, r.fields_of_at? (hrelist []), Reading.sectionOr_of_lookup? rrelist,
    Reading.sectionOr_of_lookup? rstatus, BackoffPolicy.ofDocument_eq r h₅ h₆ h₇ h₈,
    BackoffPolicy.ofDocument_eq r h₉ h₁₀ h₁₁ h₁₂]
  simp only [List.mapM_cons, List.mapM_nil, bind_assoc, pure_bind, map_bind, map_pure, ofWords]

/-! ## The base -/

theorem at?_toDocument (s : Settings) :
    ∀ l ∈ s.leaves, s.toDocument.at? l.1 = some (.integer l.2.toNat) := by
  simp only [leaves, BackoffPolicy.entries, List.map_cons, List.map_nil, List.cons_append,
    List.nil_append, List.forall_mem_cons]
  refine ⟨rfl, rfl, rfl, rfl, rfl, rfl, rfl, rfl, rfl, rfl, rfl, rfl, fun l h => ?_⟩
  exact absurd h List.not_mem_nil

/-- Settings that a layer can hold. -/
def Holdable (s : Settings) : Prop := ∀ l ∈ s.leaves, l.2.toNat ≤ maxLeaf

theorem asLayer_of_holdable {s : Settings} (h : s.Holdable) : s.asLayer = .ok s.toDocument := by
  have hnone : (s.leaves.find? fun l => maxLeaf < l.2.toNat) = none :=
    List.find?_eq_none.mpr fun l hl => by
      have hle := h l hl
      rw [decide_eq_true_iff]
      omega
  unfold asLayer
  rw [hnone]

/-- No setting stands above another one. -/
theorem paths_apart :
    ∀ path ∈ paths, ∀ other ∈ paths, path <+: other ∨ other <+: path → path = other := by
  decide +kernel

end Settings

end InformerHub
