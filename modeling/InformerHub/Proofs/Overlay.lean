import Mathlib.Data.List.Infix
import InformerHub.Config.Layers

/-!
# Merging leaf by leaf

A document is read along paths of names (`Document.at?`), and what a layer says is the list of its
leaves, each under its path (`Layer.leaves`).  Names count in lower case, as they do when a layer is
put over a document.

> What stands under a path once a layer was put over a document is what the layer says of it, or
> else what stood there before (`Layer.apply_spec`).

This needs that the layer says nothing above or below the path (`Fits`): a number in place of a
section would take away the section's leaves.  A table without entries says nothing, wherever it
stands above.
-/

namespace InformerHub

open Text

/-- A value under a path of names. -/
abbrev Leaf := List String × Document

namespace Document

def isTable : Document → Bool
  | .table _ => true
  | _ => false

/-- What stands under a path. -/
def at? : Document → List String → Option Document
  | d, [] => some d
  | d, n :: ns => (lookup? n d.entries).bind fun inner => inner.at? ns

/-- Leaves with one more name in front of their paths. -/
def under (name : String) (ls : List Leaf) : List Leaf := ls.map fun l => (name :: l.1, l.2)

mutual

/-- The values in a document that are no tables or have no entries. -/
def leaves : Document → List Leaf
  | .table es => if es.isEmpty then [([], .table [])] else tableLeaves es
  | d => [([], d)]

def tableLeaves : List (String × Document) → List Leaf
  | [] => []
  | (name, d) :: es => under (lowercase name) d.leaves ++ tableLeaves es

end

end Document

open Document (under tableLeaves)

/-- The last value under a path that is no table. -/
def said? (ls : List Leaf) (path : List String) : Option Document :=
  ls.reverse.findSome? fun l => if l.1 = path ∧ l.2.isTable = false then some l.2 else none

/-- Nothing is said above or below a path, but that there are tables above it. -/
def Fits (ls : List Leaf) (path : List String) : Prop :=
  ∀ l ∈ ls, l.1 <+: path ∨ path <+: l.1 → l.1 = path ∨ l.2.isTable = true ∧ l.1 <+: path

/-! ## What leaves say -/

variable {ls ls' : List Leaf} {path : List String} {name : String}

theorem said?_append : said? (ls ++ ls') path = (said? ls' path).or (said? ls path) := by
  unfold said?
  rw [List.reverse_append, List.findSome?_append]

theorem said?_singleton (l : Leaf) :
    said? [l] path = if l.1 = path ∧ l.2.isTable = false then some l.2 else none :=
  List.findSome?_singleton

theorem said?_under_self : said? (under name ls) (name :: path) = said? ls path := by
  unfold said? under
  rw [← List.map_reverse, List.findSome?_map]
  simp only [Function.comp_def, List.cons.injEq, true_and]

theorem said?_under_of_ne {other : String} (h : other ≠ name) :
    said? (under name ls) (other :: path) = none := by
  unfold said? under
  rw [← List.map_reverse, List.findSome?_map, List.findSome?_eq_none_iff]
  intro l _
  simp [h.symm]

theorem fits_append : Fits (ls ++ ls') path ↔ Fits ls path ∧ Fits ls' path := by
  constructor
  · exact fun h => ⟨fun l hl => h l (List.mem_append_left _ hl),
      fun l hl => h l (List.mem_append_right _ hl)⟩
  · exact fun ⟨h, h'⟩ l hl => (List.mem_append.mp hl).elim (h l) (h' l)

theorem fits_under (h : Fits (under name ls) (name :: path)) : Fits ls path := by
  intro l hl hcmp
  have hmem : (name :: l.1, l.2) ∈ under name ls := List.mem_map_of_mem hl
  have hcmp' : name :: l.1 <+: name :: path ∨ name :: path <+: name :: l.1 := by
    rw [List.cons_prefix_cons, List.cons_prefix_cons]
    simpa using hcmp
  rcases h _ hmem hcmp' with heq | ⟨ht, hp⟩
  · exact Or.inl (List.cons.inj heq).2
  · exact Or.inr ⟨ht, (List.cons_prefix_cons.mp hp).2⟩

namespace Document

theorem leaves_ne_nil : (d : Document) → d.leaves ≠ []
  | .table [] => by simp [leaves]
  | .table ((name, d) :: es) => by
    have hd := leaves_ne_nil d
    simp [leaves, tableLeaves, under, hd]
  | .null | .bool _ | .integer _ | .float _ | .text _ | .list _ => by simp [leaves]

/-- Everything that is said is said below the whole document. -/
theorem ne_nil_of_fits (hls : ls ≠ []) (h : Fits (under name ls) path) : path ≠ [] := by
  rintro rfl
  obtain ⟨l, hl⟩ := List.exists_mem_of_ne_nil _ hls
  rcases h (name :: l.1, l.2) (List.mem_map_of_mem hl) (Or.inr (List.nil_prefix ..)) with h | ⟨-, h⟩
  · exact List.cons_ne_nil _ _ h
  · exact List.cons_ne_nil _ _ (List.prefix_nil.mp h)

/-! ## Writing under a name -/

theorem at?_cons (d : Document) (n : String) (ns : List String) :
    d.at? (n :: ns) = (lookup? n d.entries).bind fun inner => inner.at? ns := rfl

/-- A path that leads somewhere begins with an entry. -/
theorem exists_of_at? {d : Document} {n : String} {ns : List String}
    (h : (d.at? (n :: ns)).isSome = true) :
    ∃ inner, lookup? n d.entries = some inner ∧ d.at? (n :: ns) = inner.at? ns := by
  rw [at?_cons] at h ⊢
  cases hl : lookup? n d.entries with
  | none => exact absurd h (by simp [hl])
  | some inner => exact ⟨inner, rfl, rfl⟩

theorem at?_setEntry_self (d value : Document) (n : String) (ns : List String) :
    (table (setEntry n value d.entries)).at? (n :: ns) = value.at? ns := by
  rw [at?_cons]
  show (lookup? n (setEntry n value d.entries)).bind _ = _
  rw [lookup?_setEntry_self]
  rfl

theorem at?_setEntry_of_ne {n other : String} (h : other ≠ n) (d value : Document)
    (ns : List String) :
    (table (setEntry n value d.entries)).at? (other :: ns) = d.at? (other :: ns) := by
  rw [at?_cons, at?_cons]
  show (lookup? other (setEntry n value d.entries)).bind _ = _
  rw [lookup?_setEntry_of_ne h]

theorem overlayEntry_table (target : Document) (name : String) (inner : List (String × Document)) :
    target.overlayEntry name (.table inner) = .table (setEntry (lowercase name)
      (overlayEntries ((lookup? (lowercase name) target.entries).getD (.table [])) inner)
      target.entries) := by
  cases target <;> simp [overlayEntry, entries]

theorem overlayEntry_of_not_table (target : Document) (name : String) {value : Document}
    (h : value.isTable = false) :
    target.overlayEntry name value = .table (setEntry (lowercase name) value target.entries) := by
  cases value with
  | table => exact absurd h (by simp [isTable])
  | null | bool | integer | float | text | list =>
    cases target <;> simp [overlayEntry, entries]

theorem leaves_of_not_table {value : Document} (h : value.isTable = false) :
    value.leaves = [([], value)] := by
  cases value with
  | table => exact absurd h (by simp [isTable])
  | null | bool | integer | float | text | list => simp [leaves]

theorem at?_overlayEntry_of_not_table {target value : Document} (hvalue : value.isTable = false)
    (hfits : Fits (under (lowercase name) value.leaves) path) :
    (target.overlayEntry name value).at? path =
      (said? (under (lowercase name) value.leaves) path).or (target.at? path) := by
  obtain ⟨n, ns, rfl⟩ := List.exists_cons_of_ne_nil (ne_nil_of_fits (leaves_ne_nil _) hfits)
  rw [overlayEntry_of_not_table target name hvalue]
  by_cases hn : n = lowercase name
  · subst hn
    have hns : ns = [] := by
      rw [leaves_of_not_table hvalue] at hfits
      rcases fits_under hfits ([], value) (List.mem_singleton_self _) (Or.inl (List.nil_prefix ..))
        with h | ⟨h, -⟩
      · exact h.symm
      · exact absurd (hvalue.symm.trans h) (by simp)
    subst hns
    rw [at?_setEntry_self, said?_under_self, leaves_of_not_table hvalue, said?_singleton,
      if_pos ⟨rfl, hvalue⟩]
    rfl
  · rw [at?_setEntry_of_ne hn, said?_under_of_ne hn, Option.none_or]

/-- Tables say what their entries say. -/
theorem said?_table_leaves (inner : List (String × Document)) :
    said? (leaves (.table inner)) path = said? (tableLeaves inner) path := by
  cases inner with
  | nil => simp [leaves, tableLeaves, said?, isTable]
  | cons e es => simp [leaves]

theorem fits_table_leaves {inner : List (String × Document)}
    (h : Fits (leaves (.table inner)) path) : Fits (tableLeaves inner) path := by
  cases inner with
  | nil => exact fun l hl => absurd hl (by simp [tableLeaves])
  | cons e es => simpa [leaves] using h

mutual

/-- A value that is written under a name. -/
theorem at?_overlayEntry : (value : Document) → {target : Document} → {name : String} →
    {path : List String} → (target.at? path).isSome = true →
    Fits (under (lowercase name) value.leaves) path → (target.overlayEntry name value).at? path =
      (said? (under (lowercase name) value.leaves) path).or (target.at? path)
  | .table inner, target, name, path, hsome, hfits => by
    obtain ⟨n, ns, rfl⟩ := List.exists_cons_of_ne_nil (ne_nil_of_fits (leaves_ne_nil _) hfits)
    rw [overlayEntry_table]
    by_cases hn : n = lowercase name
    · subst hn
      obtain ⟨below, hbelow, hat⟩ := exists_of_at? hsome
      rw [at?_setEntry_self, hbelow, Option.getD_some, said?_under_self, said?_table_leaves, hat]
      exact at?_overlayEntries inner (hat ▸ hsome) (fits_table_leaves (fits_under hfits))
    · rw [at?_setEntry_of_ne hn, said?_under_of_ne hn, Option.none_or]
  | .null, _, _, _, _, hfits | .bool _, _, _, _, _, hfits | .integer _, _, _, _, _, hfits
  | .float _, _, _, _, _, hfits | .text _, _, _, _, _, hfits | .list _, _, _, _, _, hfits =>
    at?_overlayEntry_of_not_table rfl hfits

/-- Entries that are written one after the other. -/
theorem at?_overlayEntries : (es : List (String × Document)) → {target : Document} →
    {path : List String} → (target.at? path).isSome = true → Fits (tableLeaves es) path →
    (overlayEntries target es).at? path = (said? (tableLeaves es) path).or (target.at? path)
  | [], _, _, _, _ => by simp [overlayEntries, tableLeaves, said?]
  | (name, value) :: es, target, path, hsome, hfits => by
    rw [tableLeaves] at hfits ⊢
    obtain ⟨hvalue, hes⟩ := fits_append.mp hfits
    have hentry := at?_overlayEntry value hsome hvalue
    have hsome' : ((target.overlayEntry name value).at? path).isSome = true := by
      rw [hentry, Option.isSome_or, hsome, Bool.or_true]
    rw [overlayEntries, at?_overlayEntries es hsome' hes, hentry, said?_append, Option.or_assoc]

end

end Document

/-! ## Layers -/

/-- A path of names. -/
def SettingPath.named (name : String) (names : List String) : SettingPath :=
  .name name :: names.map .name

namespace Layer

open SettingPath (named)

/-- The leaves of a value at the end of a path.  Only the last name counts in lower case. -/
def placed : SettingPath → Document → List Leaf
  | [], _ => []
  | [.name last], value => under (lowercase last) value.leaves
  | .name name :: path, value => under name (placed path value)
  | .index _ :: _, _ => []

/-- All leaves of a layer in its order. -/
def leaves (entries : List (String × Document)) : List Leaf :=
  entries.flatMap fun e => placed (SettingPath.ofName e.1) e.2

/-- Every entry stands under a path of names. -/
def Plain (entries : List (String × Document)) : Prop :=
  ∀ e ∈ entries, ∃ name names, SettingPath.ofName e.1 = named name names

theorem placed_cons (name next : String) (names : List String) (value : Document) :
    placed (named name (next :: names)) value = under name (placed (named next names) value) := rfl

theorem placed_ne_nil (value : Document) (names : List String) :
    ∀ name, placed (named name names) value ≠ [] := by
  induction names with
  | nil => exact fun name h => value.leaves_ne_nil (List.map_eq_nil_iff.mp h)
  | cons next names ih => exact fun name h => ih next (List.map_eq_nil_iff.mp h)

theorem place_cons (value target : Document) (name next : String) (names : List String) :
    Document.place value (named name (next :: names)) target = (do
      let inner ← Document.place value (named next names)
        ((Document.lookup? name target.entries).getD .null)
      return Document.table (Document.setEntry name inner target.entries)) := rfl

/-- A value that is written at the end of a path of names. -/
theorem place_spec (value : Document) (names : List String) : ∀ name target,
    ∃ d, Document.place value (named name names) target = .ok d ∧
      ∀ path, (target.at? path).isSome = true → Fits (placed (named name names) value) path →
        d.at? path = (said? (placed (named name names) value) path).or (target.at? path) := by
  induction names with
  | nil => exact fun name target =>
      ⟨_, rfl, fun path hsome hfits => Document.at?_overlayEntry value hsome hfits⟩
  | cons next names ih =>
    intro name target
    obtain ⟨inner, hinner, hat⟩ := ih next ((Document.lookup? name target.entries).getD .null)
    refine ⟨Document.table (Document.setEntry name inner target.entries), ?_,
      fun path hsome hfits => ?_⟩
    · rw [place_cons, hinner]
      rfl
    · rw [placed_cons] at hfits ⊢
      obtain ⟨n, ns, rfl⟩ :=
        List.exists_cons_of_ne_nil (Document.ne_nil_of_fits (placed_ne_nil value names next) hfits)
      by_cases hn : n = name
      · subst hn
        obtain ⟨below, hbelow, hbelow'⟩ := Document.exists_of_at? hsome
        rw [hbelow, Option.getD_some] at hat
        rw [Document.at?_setEntry_self, said?_under_self, hbelow']
        exact hat ns (hbelow' ▸ hsome) (fits_under hfits)
      · rw [Document.at?_setEntry_of_ne hn, said?_under_of_ne hn, Option.none_or]

/-- A layer over a document.  What stands under a path then is what the layer says of it, or else
what stood there before. -/
theorem apply_spec : ∀ {entries : List (String × Document)}, Plain entries → ∀ target,
    ∃ d, apply target entries = .ok d ∧ ∀ path, (target.at? path).isSome = true →
      Fits (leaves entries) path →
        d.at? path = (said? (leaves entries) path).or (target.at? path)
  | [], _, target => ⟨target, rfl, fun path _ _ => by simp [leaves, said?]⟩
  | (name, value) :: entries, hplain, target => by
    obtain ⟨first, names, hname⟩ := hplain (name, value) (List.mem_cons_self ..)
    obtain ⟨d₁, hd₁, hat₁⟩ := place_spec value names first target
    obtain ⟨d₂, hd₂, hat₂⟩ :=
      apply_spec (fun e he => hplain e (List.mem_cons_of_mem _ he)) d₁
    have hleaves : leaves ((name, value) :: entries) =
        placed (named first names) value ++ leaves entries := by
      rw [leaves, List.flatMap_cons, hname]
      rfl
    refine ⟨d₂, ?_, fun path hsome hfits => ?_⟩
    · show (do apply (← Document.place value (SettingPath.ofName name) target) entries) = _
      rw [hname, hd₁]
      exact hd₂
    · rw [hleaves] at hfits ⊢
      obtain ⟨hvalue, hentries⟩ := fits_append.mp hfits
      have hfirst := hat₁ path hsome hvalue
      have hsome' : (d₁.at? path).isSome = true := by
        rw [hfirst, Option.isSome_or, hsome, Bool.or_true]
      rw [hat₂ path hsome' hentries, hfirst, said?_append, Option.or_assoc]

end Layer

end InformerHub
