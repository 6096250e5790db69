import InformerHub.Proofs.WholeDocument

/-!
# What the environment says

Variables speak of settings in capital letters, with two underscores between the names of sections.

> Where all variables under the root have numbers for settings or are empty, the layer of the
> environment says of each setting what its last variable does, and nothing else
> (`Layer.said?_variables`).
-/

namespace InformerHub

open Text

/-! ## Numerals -/

theorem toLower_digit {c : Char} (h : c.isDigit = true) : c.toLower = c := by
  unfold Char.isDigit at h
  have hlt : ¬(c.val ≥ 'A'.val ∧ c.val ≤ 'Z'.val) := by
    simp only [ge_iff_le, Bool.and_eq_true, decide_eq_true_eq, UInt32.le_iff_toNat_le] at h ⊢
    have h9 : '9'.val.toNat = 57 := rfl
    have hA : 'A'.val.toNat = 65 := rfl
    omega
  unfold Char.toLower
  rw [dif_neg hlt]

/-- What a numeral begins with. -/
theorem exists_cons_of_natural? {cs : List Char} {n : Nat} (h : natural? cs = some n) :
    ∃ c rest, cs = c :: rest ∧ c.isDigit = true := by
  unfold natural? at h
  split at h
  · next hcs =>
    cases cs with
    | nil => exact absurd hcs (by simp)
    | cons c rest =>
      rw [Bool.and_eq_true, List.all_cons, Bool.and_eq_true] at hcs
      exact ⟨c, rest, rfl, hcs.2.1⟩
  · exact absurd h (by simp)

/-- A signed numeral begins with a sign or a digit. -/
theorem exists_cons_of_signed? {text : String} {n : Int} (h : signed? text = some n) :
    ∃ c rest, text.toList = c :: rest ∧ (c = '-' ∨ c = '+' ∨ c.isDigit = true) := by
  unfold signed? at h
  dsimp only at h
  split at h
  · next hcs => exact ⟨_, _, hcs, Or.inl rfl⟩
  · next hcs => exact ⟨_, _, hcs, Or.inr (Or.inl rfl)⟩
  · next cs _ _ =>
    cases hn : natural? text.toList with
    | none => exact absurd h (by simp [hn])
    | some m =>
      obtain ⟨c, rest, hcs, hc⟩ := exists_cons_of_natural? hn
      exact ⟨c, rest, hcs, Or.inr (Or.inr hc)⟩

/-- A numeral is no word for a truth value. -/
theorem lowercase_ne_of_signed? {text word : String} {n : Int} (h : signed? text = some n)
    (hword : ∀ c rest, word.toList = c :: rest → c ≠ '-' ∧ c ≠ '+' ∧ c.isDigit = false) :
    lowercase text ≠ word := by
  rintro rfl
  obtain ⟨c, rest, htext, hc⟩ := exists_cons_of_signed? h
  obtain ⟨h₁, h₂, h₃⟩ := hword _ _ (by rw [lowercase, String.toList_map, htext, List.map_cons])
  rcases hc with rfl | rfl | hc
  · exact h₁ rfl
  · exact h₂ rfl
  · split at h₃
    · next hk => exact absurd hc (by subst hk; decide)
    · rw [toLower_digit hc] at h₃
      exact absurd (hc.symm.trans h₃) (by simp)

theorem variableValue_of_signed? {text : String} {n : Int} (h : signed? text = some n) :
    Layer.variableValue text = .integer n := by
  have htrue : lowercase text ≠ "true" := lowercase_ne_of_signed? h fun c rest hc => by
    obtain ⟨rfl, -⟩ := List.cons.inj (hc : 't' :: _ = c :: rest)
    decide
  have hfalse : lowercase text ≠ "false" := lowercase_ne_of_signed? h fun c rest hc => by
    obtain ⟨rfl, -⟩ := List.cons.inj (hc : 'f' :: _ = c :: rest)
    decide
  unfold Layer.variableValue
  rw [if_neg htrue, if_neg hfalse, h]

/-- A number that fits in a signed word. -/
theorem le_maxLeaf_of_signed? {text : String} {n : Nat} (h : signed? text = some (n : Int)) :
    n ≤ Settings.maxLeaf := by
  unfold signed? at h
  dsimp only at h
  obtain ⟨m, -, hm⟩ := Option.bind_eq_some_iff.mp h
  split at hm
  · next hfits =>
    obtain rfl : m = n := Option.some.inj hm
    have hlt := (of_decide_eq_true hfits).2
    unfold Settings.maxLeaf
    omega
  · exact absurd hm (by simp)

/-! ## Variables -/

namespace Layer

variable {root name text : String} {env : List (String × String)} {path : List String}

/-- Whether a variable's name leads to a setting. -/
def Names (root name : String) (path : List String) : Prop :=
  (lowercase name).toList =
    (lowercase root).toList ++ ['_', '_'] ++ ("__".intercalate path).toList

instance : Decidable (Names root name path) := inferInstanceAs (Decidable (_ = _))

/-- The number that the environment has for a setting: that of the last variable of the setting's
name that is not empty. -/
def assigned? (root : String) (env : List (String × String)) (path : List String) : Option Int :=
  env.reverse.findSome? fun v => if v.2 ≠ "" ∧ Names root v.1 path then signed? v.2 else none

/-- Every variable under the root is empty or has a number for a setting. -/
def VariablesSet (root : String) (env : List (String × String)) : Prop :=
  ∀ v ∈ env, v.2 ≠ "" → (lowercase root).toList ++ ['_', '_'] <+: (lowercase v.1).toList →
    ∃ path ∈ Settings.paths, Names root v.1 path ∧ ∃ n : Nat, signed? v.2 = some (n : Int)

/-- The names of the settings need no case, and no two of them are spelled alike. -/
theorem ofName_dotted : ∀ path ∈ Settings.paths,
    SettingPath.ofName (String.ofList (dotted ("__".intercalate path).toList)) =
      path.map PathStep.name := by
  decide +kernel

theorem lowercase_of_mem_paths : ∀ path ∈ Settings.paths, ∀ name ∈ path, lowercase name = name := by
  decide +kernel

theorem intercalate_inj : ∀ path ∈ Settings.paths, ∀ other ∈ Settings.paths,
    ("__".intercalate path).toList = ("__".intercalate other).toList → path = other := by
  decide +kernel

theorem placed_of_lowercase (value : Document) (hvalue : value.isTable = false) :
    ∀ {name : String} {names : List String}, (∀ n ∈ name :: names, lowercase n = n) →
      placed (SettingPath.named name names) value = [(name :: names, value)]
  | name, [], h => by
    show Document.under (lowercase name) value.leaves = _
    rw [h name (List.mem_singleton_self _), Document.leaves_of_not_table hvalue]
    rfl
  | name, next :: names, h => by
    rw [placed_cons,
      placed_of_lowercase value hvalue fun n hn => h n (List.mem_cons_of_mem _ hn)]
    rfl

/-- The layer of a number for a setting. -/
theorem ofVariables_singleton_of_names (htext : text ≠ "") (hpath : Names root name path) {n : Nat}
    (hn : signed? text = some (n : Int)) : ofVariables root [(name, text)] =
      [(String.ofList (dotted ("__".intercalate path).toList), .integer n)] := by
  unfold ofVariables
  dsimp only
  rw [List.filterMap_cons, hpath, List.filterMap_nil]
  have hif : (text ≠ "" && ((lowercase root).toList ++ ['_', '_']).isPrefixOf
      ((lowercase root).toList ++ ['_', '_'] ++ ("__".intercalate path).toList)) = true := by
    simp [htext]
  rw [if_pos hif, List.drop_left, variableValue_of_signed? hn]

theorem ofVariables_singleton_of_not (h : ¬(text ≠ "" ∧
      (lowercase root).toList ++ ['_', '_'] <+: (lowercase name).toList)) :
    ofVariables root [(name, text)] = [] := by
  unfold ofVariables
  dsimp only
  rw [List.filterMap_cons, List.filterMap_nil, if_neg]
  rw [Bool.and_eq_true, decide_eq_true_iff, List.isPrefixOf_iff_prefix]
  exact h

theorem ofVariables_cons (v : String × String) :
    ofVariables root (v :: env) = ofVariables root [v] ++ ofVariables root env := by
  unfold ofVariables
  rw [← List.filterMap_append]
  rfl

/-- A variable with a number for a setting says that number of it, and nothing else. -/
theorem leaves_singleton_of_names (htext : text ≠ "") (hnames : Names root name path)
    (hpath : path ∈ Settings.paths) {n : Nat} (hn : signed? text = some (n : Int)) :
    Plain (ofVariables root [(name, text)]) ∧
      leaves (ofVariables root [(name, text)]) = [(path, .integer n)] := by
  obtain ⟨first, rest, rfl⟩ : ∃ first rest, path = first :: rest :=
    List.exists_cons_of_ne_nil (by rintro rfl; exact absurd hpath (by decide +kernel))
  rw [ofVariables_singleton_of_names htext hnames hn]
  constructor
  · rintro e he
    obtain rfl := List.mem_singleton.mp he
    exact ⟨first, rest, ofName_dotted _ hpath⟩
  · rw [leaves, List.flatMap_singleton, ofName_dotted _ hpath]
    exact placed_of_lowercase _ rfl (lowercase_of_mem_paths _ hpath)

/-- What one variable says is in its layer. -/
theorem said?_singleton_variable (h : VariablesSet root [(name, text)]) :
    Plain (ofVariables root [(name, text)]) ∧ ∀ path ∈ Settings.paths,
      Fits (leaves (ofVariables root [(name, text)])) path ∧
      said? (leaves (ofVariables root [(name, text)])) path =
        (assigned? root [(name, text)] path).map .integer := by
  have hassigned : ∀ path, assigned? root [(name, text)] path =
      if text ≠ "" ∧ Names root name path then signed? text else none :=
    fun path => List.findSome?_singleton
  by_cases hv : text ≠ "" ∧ (lowercase root).toList ++ ['_', '_'] <+: (lowercase name).toList
  · obtain ⟨other, hother, hnames, n, hn⟩ := h _ (List.mem_singleton_self _) hv.1 hv.2
    obtain ⟨hplain, hleaves⟩ := leaves_singleton_of_names hv.1 hnames hother hn
    rw [hleaves]
    refine ⟨hplain, fun path hpath => ⟨?_, ?_⟩⟩
    · rintro l hl hcmp
      obtain rfl := List.mem_singleton.mp hl
      exact Or.inl (Settings.paths_apart _ hother _ hpath hcmp)
    · rw [said?_singleton, hassigned]
      by_cases heq : other = path
      · subst heq
        rw [if_pos ⟨rfl, rfl⟩, if_pos ⟨hv.1, hnames⟩, hn]
        rfl
      · have hne : ¬Names root name path := fun hnames' => heq <|
          intercalate_inj _ hother _ hpath (List.append_cancel_left (hnames.symm.trans hnames'))
        rw [if_neg fun h => heq h.1, if_neg fun h => hne h.2]
        rfl
  · rw [ofVariables_singleton_of_not hv]
    refine ⟨fun _ he => absurd he List.not_mem_nil, fun path _ =>
      ⟨fun _ hl => absurd hl List.not_mem_nil, ?_⟩⟩
    have hne : ¬(text ≠ "" ∧ Names root name path) := fun h =>
      hv ⟨h.1, h.2 ▸ List.prefix_append _ _⟩
    rw [hassigned, if_neg hne]
    rfl

/-- What the environment says is in its layer. -/
theorem said?_variables : ∀ {env : List (String × String)}, VariablesSet root env →
    Plain (ofVariables root env) ∧ ∀ path ∈ Settings.paths,
      Fits (leaves (ofVariables root env)) path ∧
      said? (leaves (ofVariables root env)) path = (assigned? root env path).map .integer
  | [], _ => ⟨fun _ he => absurd he List.not_mem_nil,
      fun _ _ => ⟨fun _ hl => absurd hl List.not_mem_nil, rfl⟩⟩
  | v :: env, h => by
    have hv : VariablesSet root [v] :=
      fun w hw => h w (List.mem_cons.mpr (Or.inl (List.mem_singleton.mp hw)))
    have henv : VariablesSet root env := fun w hw => h w (List.mem_cons_of_mem v hw)
    obtain ⟨hplain, hone⟩ := said?_singleton_variable hv
    obtain ⟨hplain', hrest⟩ := said?_variables henv
    rw [ofVariables_cons, leaves, List.flatMap_append]
    refine ⟨fun e he => (List.mem_append.mp he).elim (hplain e) (hplain' e),
      fun path hpath => ?_⟩
    obtain ⟨hfits, hsaid⟩ := hone path hpath
    obtain ⟨hfits', hsaid'⟩ := hrest path hpath
    have hassigned : assigned? root (v :: env) path =
        (assigned? root env path).or (assigned? root [v] path) := by
      unfold assigned?
      rw [List.reverse_cons, List.findSome?_append]
      rfl
    refine ⟨fits_append.mpr ⟨hfits, hfits'⟩, ?_⟩
    rw [said?_append, hassigned, Option.map_or]
    exact congrArg₂ Option.or hsaid' hsaid

/-- A number that the environment has for a setting is one that a layer can hold. -/
theorem assigned?_cases (h : VariablesSet root env) (path : List String) :
    assigned? root env path = none ∨
      ∃ n : Nat, n ≤ Settings.maxLeaf ∧ assigned? root env path = some (n : Int) := by
  cases ha : assigned? root env path with
  | none => exact Or.inl rfl
  | some m =>
    obtain ⟨v, hv, hm⟩ := List.exists_of_findSome?_eq_some ha
    split at hm
    · next hnamed =>
      obtain ⟨other, hother, hnames, n, hn⟩ := h v (List.mem_reverse.mp hv) hnamed.1
        (hnamed.2 ▸ List.prefix_append _ _)
      obtain rfl : (n : Int) = m := Option.some.inj (hn.symm.trans hm)
      exact Or.inr ⟨n, le_maxLeaf_of_signed? hn, rfl⟩
    · exact absurd hm (by simp)

end Layer

end InformerHub
