import InformerHub.Proofs.Environment

/-!
# Settings from layers

Settings are read from a document that is put together of layers: a base, which has all settings, a
file over it, and the environment over both.

> Each of the settings is what its variable says, else what the file says, else the base's.  They
> can be read unless the file has a text in place of a number and no variable stands over it
> (`settled_leaf_by_leaf`).

Layers merge leaf by leaf (`Layer.apply_spec`), so the document that is read has all settings again,
and what the file leaves out of a policy is not taken from anywhere else.
-/

namespace InformerHub

open Text

/-! ## Files -/

/-- Numbers and texts that count as a number which a layer can hold, or as none. -/
inductive Document.IsLeaf : Document → Prop
  | integer {n : Nat} : n ≤ Settings.maxLeaf → IsLeaf (.integer n)
  | text {t : String} : (∀ w, Reading.textWord? t = some w → w.toNat ≤ Settings.maxLeaf) →
      IsLeaf (.text t)

/-- Of the settings, a layer says numbers and texts, and there is nothing but tables above them. -/
def Layer.SettingsSet (entries : List (String × Document)) : Prop :=
  Plain entries ∧ ∀ l ∈ leaves entries, ∀ path ∈ Settings.paths, l.1 <+: path ∨ path <+: l.1 →
    l.1 = path ∧ l.2.IsLeaf ∨ l.2.isTable = true ∧ l.1 <+: path

namespace Layer.SettingsSet

variable {entries : List (String × Document)} {path : List String}

theorem fits (h : SettingsSet entries) (hpath : path ∈ Settings.paths) :
    Fits (leaves entries) path :=
  fun l hl hcmp => (h.2 l hl path hpath hcmp).imp And.left id

theorem isLeaf_of_said? (h : SettingsSet entries) (hpath : path ∈ Settings.paths) {d : Document}
    (hd : said? (leaves entries) path = some d) : d.IsLeaf := by
  obtain ⟨l, hl, hld⟩ := List.exists_of_findSome?_eq_some hd
  split at hld
  · next hcond =>
    obtain rfl := Option.some.inj hld
    rcases h.2 l (List.mem_reverse.mp hl) path hpath (Or.inl (hcond.1 ▸ List.prefix_rfl)) with
      h | h
    · exact h.2
    · exact absurd (hcond.2.symm.trans h.1) (by simp)
  · exact absurd hld (by simp)

end Layer.SettingsSet

/-! ## What the layers add up to -/

namespace Settings

variable (around : Surroundings) (entries : List (String × Document))

/-- Whether the file has a text for a setting that counts as no number, with no variable over it. -/
def Unreadable (path : List String) : Prop :=
  Layer.assigned? around.root around.env path = none ∧
    ∃ t, said? (Layer.leaves entries) path = some (.text t) ∧ Reading.textWord? t = none

/-- A setting's number: that of its variable, else that of the file, else that of the base. -/
def wordOf (l : List String × UInt64) : UInt64 :=
  match Layer.assigned? around.root around.env l.1 with
  | some n => UInt64.ofNat n.toNat
  | none => match said? (Layer.leaves entries) l.1 with
    | some (.integer n) => UInt64.ofNat n.toNat
    | some (.text t) => (Reading.textWord? t).getD l.2
    | _ => l.2

/-- What stands for a setting once all layers are merged. -/
def valueOf (l : List String × UInt64) : Document :=
  (((Layer.assigned? around.root around.env l.1).map .integer).or
    (said? (Layer.leaves entries) l.1)).getD (.integer l.2.toNat)

variable {around entries}

theorem maxLeaf_lt_size : maxLeaf < UInt64.size := by
  have hsize : 0 < UInt64.size := Nat.zero_lt_succ _
  unfold maxLeaf signedBound
  omega

theorem word_integer {n : Int} (hn : 0 ≤ n) (h : n ≤ maxLeaf) :
    Reading.lenient.word (.integer n) = .ok (UInt64.ofNat n.toNat) := by
  have hlt : n < UInt64.size := Int.lt_of_le_of_lt h (Int.ofNat_lt.mpr maxLeaf_lt_size)
  apply Reading.word_integer_of_integerWord?
  unfold Reading.integerWord?
  rw [if_pos ⟨hn, hlt⟩]

/-- Who has the last word on a setting. -/
inductive Source (around : Surroundings) (entries : List (String × Document))
    (path : List String) : Prop
  | environment (n : Nat) : n ≤ maxLeaf →
      Layer.assigned? around.root around.env path = some (n : Int) → Source around entries path
  | file (d : Document) : d.IsLeaf → Layer.assigned? around.root around.env path = none →
      said? (Layer.leaves entries) path = some d → Source around entries path
  | base : Layer.assigned? around.root around.env path = none →
      said? (Layer.leaves entries) path = none → Source around entries path

theorem source (henv : Layer.VariablesSet around.root around.env)
    (hfile : Layer.SettingsSet entries) {path : List String} (hpath : path ∈ paths) :
    Source around entries path := by
  rcases Layer.assigned?_cases henv path with ha | ⟨n, hn, ha⟩
  · cases hd : said? (Layer.leaves entries) path with
    | none => exact .base ha hd
    | some d => exact .file d (hfile.isLeaf_of_said? hpath hd) ha hd
  · exact .environment n hn ha

/-- What is read for a setting. -/
theorem word_valueOf (henv : Layer.VariablesSet around.root around.env)
    (hfile : Layer.SettingsSet entries) {l : List String × UInt64} (hpath : l.1 ∈ paths)
    (hbase : l.2.toNat ≤ maxLeaf) :
    (¬Unreadable around entries l.1 →
      Reading.lenient.word (valueOf around entries l) = .ok (wordOf around entries l)) ∧
    (Unreadable around entries l.1 →
      Reading.lenient.word (valueOf around entries l) = .error .wrongType) := by
  unfold valueOf wordOf Unreadable
  cases source henv hfile hpath with
  | environment n hn ha =>
    rw [ha]
    dsimp only [Option.map_some, Option.some_or, Option.getD_some]
    refine ⟨fun _ => ?_, fun h => absurd h.1 (by simp)⟩
    exact word_integer (Int.natCast_nonneg _) (Int.ofNat_le.mpr hn)
  | file d hd ha hs =>
    rw [ha, hs]
    dsimp only [Option.map_none, Option.none_or, Option.getD_some]
    cases hd with
    | integer hn =>
      refine ⟨fun _ => ?_, fun h => absurd h.2 (by simp)⟩
      exact word_integer (Int.natCast_nonneg _) (Int.ofNat_le.mpr hn)
    | @text t =>
      rw [Reading.word_text]
      cases ht : Reading.textWord? t with
      | none => exact ⟨fun h => absurd ⟨rfl, t, rfl, ht⟩ h, fun _ => rfl⟩
      | some w =>
        exact ⟨fun _ => by simp only [ht, Option.getD_some], fun h => absurd h.2 (by simp [ht])⟩
  | base ha hs =>
    rw [ha, hs]
    dsimp only [Option.map_none, Option.none_or, Option.getD_none]
    refine ⟨fun _ => ?_, fun h => absurd h.2 (by simp)⟩
    rw [word_integer (Int.natCast_nonneg _) (by omega), Int.toNat_natCast, UInt64.ofNat_toNat]

/-- All layers over a base. -/
theorem exists_merged (henv : Layer.VariablesSet around.root around.env)
    (hfile : Layer.SettingsSet entries) (base : Settings) :
    ∃ middle top, Layer.apply base.toDocument entries = .ok middle ∧
      Layer.apply middle (Layer.ofVariables around.root around.env) = .ok top ∧
      ∀ l ∈ base.leaves, top.at? l.1 = some (valueOf around entries l) := by
  obtain ⟨middle, hmiddle, hat⟩ := Layer.apply_spec hfile.1 base.toDocument
  obtain ⟨hplain, hvariables⟩ := Layer.said?_variables henv
  obtain ⟨top, htop, hat'⟩ := Layer.apply_spec hplain middle
  refine ⟨middle, top, hmiddle, htop, fun l hl => ?_⟩
  have hpath : l.1 ∈ paths := mem_paths hl
  obtain ⟨hfits, hsaid⟩ := hvariables l.1 hpath
  have hbottom := at?_toDocument base l hl
  have h := hat l.1 (by rw [hbottom]; rfl) (hfile.fits hpath)
  have hsome : (middle.at? l.1).isSome = true := by
    rw [h, hbottom, Option.isSome_or, Option.isSome_some, Bool.or_true]
  rw [hat' l.1 hsome hfits, hsaid, h, hbottom, valueOf, ← Option.or_assoc]
  cases ((Layer.assigned? around.root around.env l.1).map Document.integer).or
    (said? (Layer.leaves entries) l.1) <;> rfl

/-- Settings that come of a base, a file and the environment. -/
structure Merged (around : Surroundings) (entries : List (String × Document)) (base : Settings)
    (result : Except ConfigError Settings) : Prop where
  /-- Each setting is what its variable says, else what the file says, else the base's. -/
  settled : (∀ path ∈ paths, ¬Unreadable around entries path) → ∃ s, result = .ok s ∧
    s.leaves = base.leaves.map fun l => (l.1, wordOf around entries l)
  /-- A text that is no number is in the way, unless a variable stands over it. -/
  refused : (∃ path ∈ paths, Unreadable around entries path) → result = .error .wrongType

/-- Whether all settings stay of which neither the file nor the environment speaks, whatever else
they say of their sections. -/
def Keeps (around : Surroundings) (entries : List (String × Document)) (base s : Settings) : Prop :=
  ∀ l ∈ base.leaves, Layer.assigned? around.root around.env l.1 = none →
    said? (Layer.leaves entries) l.1 = none → l ∈ s.leaves

theorem Merged.not_unreadable {base s : Settings} (h : Merged around entries base (.ok s)) :
    ∀ path ∈ paths, ¬Unreadable around entries path :=
  fun path hpath hun => absurd (h.refused ⟨path, hpath, hun⟩) (by simp)

theorem Merged.leaves_of_ok {base s : Settings} (h : Merged around entries base (.ok s)) :
    s.leaves = base.leaves.map fun l => (l.1, wordOf around entries l) := by
  obtain ⟨s', hs', hleaves⟩ := h.settled h.not_unreadable
  obtain rfl := Except.ok.inj hs'
  exact hleaves

/-- What neither the file nor the environment speaks of is as it was. -/
theorem Merged.keeps {base s : Settings} (h : Merged around entries base (.ok s)) :
    Keeps around entries base s := by
  intro l hl hvariable hfile
  have hword : wordOf around entries l = l.2 := by
    unfold wordOf
    rw [hvariable, hfile]
  rw [h.leaves_of_ok]
  exact List.mem_map.mpr ⟨l, hl, by rw [hword]⟩

/-- Reading the merged layers. -/
theorem merged_ofDocument (henv : Layer.VariablesSet around.root around.env)
    (hfile : Layer.SettingsSet entries) {base : Settings} (hbase : base.Holdable) {top : Document}
    (htop : ∀ l ∈ base.leaves, top.at? l.1 = some (valueOf around entries l)) :
    Merged around entries base (Settings.ofDocument .lenient top) := by
  have hread : ∀ l ∈ base.leaves, _ := fun l hl =>
    word_valueOf henv hfile (mem_paths hl) (hbase l hl)
  rw [ofDocument_eq .lenient base htop]
  constructor
  · intro hnone
    refine ⟨ofWords (base.leaves.map (wordOf around entries)), ?_, leaves_ofWords ..⟩
    rw [mapM_ok fun l hl => (hread l hl).1 (hnone l.1 (mem_paths hl))]
    rfl
  · rintro ⟨path, hpath, hun⟩
    obtain ⟨l, hl, rfl⟩ := List.mem_map.mp (map_fst_leaves base ▸ hpath)
    rw [mapM_error (e := ConfigError.wrongType) ?_ ⟨l, hl, (hread l hl).2 hun⟩]
    · rfl
    · exact fun k _ => Reading.lenient_word_cases _

/-- The layer of a file, if there is one. -/
def FileSays (files : List (String × String)) (file? : Option String)
    (entries : List (String × Document)) : Prop :=
  match file? with
  | some file => Layer.ofFile files file = .ok entries
  | none => entries = []

theorem merged_layered (henv : Layer.VariablesSet around.root around.env) {file? : Option String}
    (hlayer : FileSays around.files file? entries) (hfile : Layer.SettingsSet entries)
    {base : Settings} (hbase : base.Holdable) :
    Merged around entries base (layered around base file?) := by
  obtain ⟨middle, top, hmiddle, htop, hat⟩ := exists_merged henv hfile base
  have hlayered : layered around base file? = Settings.ofDocument .lenient top := by
    unfold layered
    cases file? with
    | none =>
      obtain rfl : entries = [] := hlayer
      obtain rfl : base.toDocument = middle := Except.ok.inj hmiddle
      simp only [asLayer_of_holdable hbase, htop, bind, Except.bind]
    | some file =>
      have hread : Layer.ofFile around.files file = .ok entries := hlayer
      simp only [asLayer_of_holdable hbase, hread, hmiddle, htop, bind, Except.bind]
  rw [hlayered]
  exact merged_ofDocument henv hfile hbase hat

/-! ## The same layers once more -/

theorem toNat_wordOf_le (henv : Layer.VariablesSet around.root around.env)
    (hfile : Layer.SettingsSet entries) {l : List String × UInt64} (hpath : l.1 ∈ paths)
    (hbase : l.2.toNat ≤ maxLeaf) : (wordOf around entries l).toNat ≤ maxLeaf := by
  have hofNat : ∀ n ≤ maxLeaf, (UInt64.ofNat n).toNat ≤ maxLeaf := fun n hn =>
    Nat.le_trans (Nat.mod_le _ _) hn
  unfold wordOf
  cases source henv hfile hpath with
  | environment n hn ha =>
    rw [ha]
    exact hofNat _ hn
  | file d hd ha hs =>
    rw [ha, hs]
    cases hd with
    | integer hn => exact hofNat _ hn
    | @text t ht =>
      dsimp only
      cases hw : Reading.textWord? t with
      | none => exact hbase
      | some w => exact ht w hw
  | base ha hs =>
    rw [ha, hs]
    exact hbase

/-- A layer says the same over what it has said. -/
theorem wordOf_wordOf (l : List String × UInt64) :
    wordOf around entries (l.1, wordOf around entries l) = wordOf around entries l := by
  unfold wordOf
  dsimp only
  cases Layer.assigned? around.root around.env l.1 with
  | some n => rfl
  | none =>
    cases said? (Layer.leaves entries) l.1 with
    | none => rfl
    | some d =>
      cases d with
      | text t =>
        cases h : Reading.textWord? t <;> simp only [h, Option.getD_none, Option.getD_some]
      | null | bool | integer | float | list | table => rfl

/-- Merging the same layers once more changes nothing. -/
theorem merged_again (henv : Layer.VariablesSet around.root around.env)
    (hfile : Layer.SettingsSet entries) {base s : Settings} (hbase : base.Holdable)
    (h : Merged around entries base (.ok s)) {result : Except ConfigError Settings}
    (hagain : s.Holdable → Merged around entries s result) : result = .ok s := by
  have hholdable : s.Holdable := by
    intro l hl
    rw [h.leaves_of_ok] at hl
    obtain ⟨k, hk, rfl⟩ := List.mem_map.mp hl
    exact toNat_wordOf_le henv hfile (mem_paths hk) (hbase k hk)
  obtain ⟨s', hs', hleaves⟩ := (hagain hholdable).settled h.not_unreadable
  have hsame : s'.leaves = s.leaves := by
    rw [hleaves, h.leaves_of_ok, List.map_map]
    exact List.map_congr_left fun l _ => congrArg (Prod.mk l.1) (wordOf_wordOf l)
  rw [hs', ← ofWords_leaves s', hsame, ofWords_leaves]

/-- Over a base, the file and the environment settle every setting for itself: by its variable, else
by the file, else by the base.  A text that is no number makes this fail with a wrong type if and
only if no variable stands over it.  Once more with the same layers, nothing changes.  The settings
of a process come about in the same way, with the defaults as the base. -/
theorem settled_leaf_by_leaf (around : Surroundings)
    (henv : Layer.VariablesSet around.root around.env) :
    (∀ (base : Settings) (file : String) (entries : List (String × Document)), base.Holdable →
      Layer.ofFile around.files file = .ok entries → Layer.SettingsSet entries →
        Merged around entries base (base.withOverride around file) ∧
        ∀ s, base.withOverride around file = .ok s →
          Keeps around entries base s ∧ s.withOverride around file = .ok s) ∧
    (∀ entries : List (String × Document),
      FileSays around.files
        ((around.env.find? fun v => v.1 = around.pathVariable).map Prod.snd) entries →
      Layer.SettingsSet entries → Merged around entries .standard (load around) ∧
        ∀ s, load around = .ok s → Keeps around entries .standard s) := by
  constructor
  · intro base file entries hbase hlayer hfile
    have hsome : FileSays around.files (some file) entries := hlayer
    have hmerged : ∀ {s : Settings}, s.Holdable →
        Merged around entries s (s.withOverride around file) :=
      fun hs => merged_layered henv hsome hfile hs
    refine ⟨hmerged hbase, fun s hs => ?_⟩
    have hs' : Merged around entries base (.ok s) := hs ▸ hmerged hbase
    exact ⟨hs'.keeps, merged_again henv hfile hbase hs' hmerged⟩
  · intro entries hlayer hfile
    have hmerged : Merged around entries .standard (load around) :=
      merged_layered henv hlayer hfile (by unfold Holdable; decide +kernel)
    refine ⟨hmerged, fun s hs => ?_⟩
    exact Merged.keeps (hs ▸ hmerged)

/-- A file with one field of a policy, and one variable. -/
def oneField : Surroundings where
  files := [("override.toml", "[retry.relist]\nmax_retries = 7\n")]
  env := [("KONNECTOR__HEARTBEAT__INTERVAL_IN_SECS", "60"), ("CONFIG_PATH", "override.toml")]
  root := "KONNECTOR"
  pathVariable := "CONFIG_PATH"

def oneFieldEntries : List (String × Document) :=
  [("retry", .table [("relist", .table [("max_retries", .integer 7)])])]

/-- The names and the number in a table that says one number, two tables down.  Whether two
documents are equal cannot be decided, as they may hold floats, but these parts can be compared. -/
def loneNumber? : List (String × Document) → Option (String × String × String × Int)
  | [(outer, .table [(inner, .table [(name, .integer n)])])] => some (outer, inner, name, n)
  | _ => none

theorem eq_of_loneNumber? {entries : List (String × Document)} {outer inner name : String}
    {n : Int} (h : loneNumber? entries = some (outer, inner, name, n)) :
    entries = [(outer, .table [(inner, .table [(name, .integer n)])])] := by
  unfold loneNumber? at h
  split at h
  next =>
    cases h
    rfl
  next => exact absurd h (Option.some_ne_none _).symm

theorem ofFile_oneField : Layer.ofFile oneField.files "override.toml" = .ok oneFieldEntries := by
  have hread : (Layer.ofFile oneField.files "override.toml").toOption.bind loneNumber? =
      some ("retry", "relist", "max_retries", 7) := by
    decide +kernel
  cases h : Layer.ofFile oneField.files "override.toml" with
  | error e =>
    rw [h] at hread
    exact absurd hread (Option.some_ne_none _).symm
  | ok entries =>
    rw [h] at hread
    exact congrArg Except.ok (eq_of_loneNumber? hread)

theorem leaves_oneField :
    Layer.leaves oneFieldEntries = [(["retry", "relist", "max_retries"], .integer 7)] := by
  have hpath : SettingPath.ofName "retry" = [.name "retry"] := by decide +kernel
  have hlower : ∀ name ∈ ["retry", "relist", "max_retries"], lowercase name = name := by
    decide +kernel
  rw [List.forall_mem_cons, List.forall_mem_cons, List.forall_mem_singleton] at hlower
  obtain ⟨hretry, hrelist, hmax⟩ := hlower
  unfold Layer.leaves oneFieldEntries
  rw [List.flatMap_singleton, hpath, Layer.placed, hretry]
  simp only [Document.leaves, Document.tableLeaves, Document.under, hrelist, hmax]
  rfl

theorem variablesSet_oneField : Layer.VariablesSet oneField.root oneField.env := by
  unfold Layer.VariablesSet oneField
  rw [List.forall_mem_cons, List.forall_mem_singleton]
  constructor
  · exact fun _ _ => ⟨["heartbeat", "interval_in_secs"], by decide +kernel, by decide +kernel, 60,
      by decide +kernel⟩
  · exact fun _ hprefix => absurd hprefix (by decide +kernel)

theorem settingsSet_oneField : Layer.SettingsSet oneFieldEntries := by
  constructor
  · intro e he
    obtain rfl := List.mem_singleton.mp he
    exact ⟨"retry", [], by decide +kernel⟩
  · rw [leaves_oneField]
    intro l hl path hpath hcmp
    obtain rfl := List.mem_singleton.mp hl
    have hmem : ["retry", "relist", "max_retries"] ∈ paths := by decide +kernel
    exact Or.inl ⟨paths_apart _ hmem _ hpath hcmp, .integer (n := 7) (by decide +kernel)⟩

/-- The other fields of the policy stay what they were by default for its purpose. -/
theorem settled_leaf_by_leaf_of_one_field :
    let s : Settings := { Settings.standard with
      heartbeat := ⟨60, 100⟩
      retry := ⟨⟨7, 30000, 800, 30000⟩, .standardStatusUpdate⟩ }
    Settings.standard.withOverride oneField "override.toml" = .ok s ∧
      s.withOverride oneField "override.toml" = .ok s ∧ load oneField = .ok s := by
  intro s
  obtain ⟨hoverride, hload⟩ := settled_leaf_by_leaf oneField variablesSet_oneField
  obtain ⟨hmerged, hagain⟩ := hoverride .standard "override.toml" oneFieldEntries
    (by unfold Holdable; decide +kernel) ofFile_oneField settingsSet_oneField
  obtain ⟨hloaded, -⟩ := hload oneFieldEntries ofFile_oneField settingsSet_oneField
  have hnone : ∀ path ∈ paths, ¬Unreadable oneField oneFieldEntries path := by
    rintro path - ⟨-, t, ht, -⟩
    rw [leaves_oneField, said?_singleton] at ht
    split at ht
    · exact absurd ht (by simp)
    · exact absurd ht (by simp)
  have hwords : (standard.leaves.map fun l => (l.1, wordOf oneField oneFieldEntries l)) =
      s.leaves := by
    unfold wordOf
    rw [leaves_oneField]
    decide +kernel
  have hsame : ∀ {s' : Settings}, s'.leaves =
      (standard.leaves.map fun l => (l.1, wordOf oneField oneFieldEntries l)) → s' = s := by
    intro s' hs'
    rw [← ofWords_leaves s', hs', hwords, ofWords_leaves]
  obtain ⟨s₁, hs₁, hleaves₁⟩ := hmerged.settled hnone
  obtain ⟨s₂, hs₂, hleaves₂⟩ := hloaded.settled hnone
  obtain rfl := hsame hleaves₁
  obtain rfl := hsame hleaves₂
  exact ⟨hs₁, (hagain _ hs₁).2, hs₂⟩

end Settings

end InformerHub
