import InformerHub.Binding.Report
import InformerHub.Proofs.StoreQueries
import InformerHub.Scenario.Object

/-!
# What a key says about its object

A key is written by one function and read by another.  Objects whose namespace and name are free
of slashes can be told apart by their keys, since reading a key gives back what it was written
from (`keys_decode`):

> `splitKey (keyOf a) = .ok (spaceOf a, Object.nameOf a)`

The other way round it is not so.  The reader takes a text that begins with a slash for a key
whose namespace is empty, while the writer leaves the slash out with the namespace.  Of the texts
that are accepted only these are not the key of the objects they name, and a lookup with one of
them finds nothing (`accepted_keys`).

Both directions come from one description of what the reader accepts, `split?_eq_some_iff`.
-/

namespace InformerHub

/-! ## Reading a text -/

namespace KeyText

/-- What stands before the first slash, or nothing if there is none. -/
def before (cs : List Char) : List Char := if '/' ∈ cs then cs.takeWhile (· ≠ '/') else []

/-- What stands behind the first slash, or all of the text if there is none. -/
def behind (cs : List Char) : List Char :=
  if '/' ∈ cs then (cs.dropWhile (· ≠ '/')).tail else cs

theorem before_of_not_mem {cs : List Char} (h : '/' ∉ cs) : before cs = [] := if_neg h

theorem behind_of_not_mem {cs : List Char} (h : '/' ∉ cs) : behind cs = cs := if_neg h

theorem before_append_slash {as : List Char} (h : '/' ∉ as) (bs : List Char) :
    before (as ++ '/' :: bs) = as := by
  have hall : ∀ c ∈ as, decide (c ≠ '/') = true := fun c hc =>
    decide_eq_true fun e => h (e ▸ hc)
  rw [before, if_pos (by simp), List.takeWhile_append_of_pos hall]
  simp

theorem behind_append_slash {as : List Char} (h : '/' ∉ as) (bs : List Char) :
    behind (as ++ '/' :: bs) = bs := by
  have hall : ∀ c ∈ as, decide (c ≠ '/') = true := fun c hc =>
    decide_eq_true fun e => h (e ▸ hc)
  rw [behind, if_pos (by simp), List.dropWhile_append_of_pos hall]
  simp

/-- There is one more segment than there are slashes. -/
theorem length_segments (cs : List Char) : (segments cs).length = cs.count '/' + 1 := by
  by_cases h : '/' ∈ cs
  · obtain ⟨as, bs, rfl, has⟩ := List.eq_append_cons_of_mem h
    have ih := length_segments bs
    rw [segments_append_slash has, List.count_append, List.count_eq_zero.mpr has]
    simp [ih]
  · rw [segments_of_not_mem h, List.count_eq_zero.mpr h]
    rfl
termination_by cs.length
decreasing_by simp_all; omega

/-- What the reader accepts, and what it returns. -/
theorem split?_eq (cs : List Char) :
    split? cs =
      if cs.count '/' ≤ 1 ∧ behind cs ≠ [] then some (before cs, behind cs) else none := by
  by_cases h : '/' ∈ cs
  · obtain ⟨as, bs, rfl, has⟩ := List.eq_append_cons_of_mem h
    have hcount : (as ++ '/' :: bs).count '/' = bs.count '/' + 1 := by
      rw [List.count_append, List.count_eq_zero.mpr has, List.count_cons_self]
      omega
    rw [before_append_slash has, behind_append_slash has, hcount, split?,
      segments_append_slash has]
    by_cases hb : '/' ∈ bs
    · -- a second slash makes a third segment
      have hpos := List.count_pos_iff.mpr hb
      have hlen := length_segments bs
      rw [if_neg (by omega)]
      cases hs : segments bs with
      | nil => exact absurd hs (segments_ne_nil bs)
      | cons s ss =>
        cases ss with
        | nil => rw [hs] at hlen; simp at hlen; omega
        | cons s' ss' => rfl
    · rw [segments_of_not_mem hb, List.count_eq_zero.mpr hb]
      by_cases hn : bs = [] <;> simp [hn]
  · rw [before_of_not_mem h, behind_of_not_mem h, List.count_eq_zero.mpr h, split?,
      segments_of_not_mem h]
    by_cases hn : cs = [] <;> simp [hn]

/-- The texts that are read as a given namespace and name: the two with a slash between them, and
the name alone if the namespace is empty. -/
theorem split?_eq_some_iff {cs ns name : List Char} :
    split? cs = some (ns, name) ↔
      name ≠ [] ∧ '/' ∉ ns ∧ '/' ∉ name ∧ (cs = ns ++ '/' :: name ∨ ns = [] ∧ cs = name) := by
  rw [split?_eq]
  constructor
  · intro h
    split at h
    next hc =>
      obtain ⟨rfl, rfl⟩ := Prod.mk.inj (Option.some.inj h)
      by_cases hm : '/' ∈ cs
      · obtain ⟨as, bs, rfl, has⟩ := List.eq_append_cons_of_mem hm
        rw [before_append_slash has, behind_append_slash has] at *
        rw [List.count_append, List.count_eq_zero.mpr has, List.count_cons_self] at hc
        exact ⟨hc.2, has, List.count_eq_zero.mp (by omega), .inl rfl⟩
      · rw [before_of_not_mem hm, behind_of_not_mem hm] at *
        exact ⟨hc.2, List.not_mem_nil, hm, .inr ⟨rfl, rfl⟩⟩
    next => exact absurd h (by simp)
  · rintro ⟨hne, hns, hname, rfl | ⟨rfl, rfl⟩⟩
    · rw [before_append_slash hns, behind_append_slash hns, if_pos]
      refine ⟨?_, hne⟩
      simp [List.count_append, List.count_eq_zero.mpr hns, List.count_eq_zero.mpr hname]
    · rw [before_of_not_mem hname, behind_of_not_mem hname, if_pos]
      exact ⟨by simp [List.count_eq_zero.mpr hname], hne⟩

end KeyText

/-- The part of a key before its slash; nothing if there is no slash. -/
def beforeSlash (key : String) : String := String.ofList (KeyText.before key.toList)

/-- The part of a key behind its slash; all of it if there is no slash. -/
def behindSlash (key : String) : String := String.ofList (KeyText.behind key.toList)

theorem splitKey_eq (key : String) :
    splitKey key =
      if key.toList.count '/' ≤ 1 ∧ behindSlash key ≠ "" then
        .ok (beforeSlash key, behindSlash key)
      else .error (.invalidKey key) := by
  have hempty : behindSlash key = "" ↔ KeyText.behind key.toList = [] := by
    rw [behindSlash, ← String.toList_inj]
    simp
  rw [splitKey, KeyText.split?_eq]
  by_cases h : key.toList.count '/' ≤ 1 ∧ KeyText.behind key.toList ≠ []
  · rw [if_pos h, if_pos ⟨h.1, mt hempty.mp h.2⟩]
    rfl
  · rw [if_neg h, if_neg fun h' => h ⟨h'.1, mt hempty.mpr h'.2⟩]

theorem splitKey_eq_ok_iff {key ns name : String} :
    splitKey key = .ok (ns, name) ↔
      name ≠ "" ∧ '/' ∉ ns.toList ∧ '/' ∉ name.toList ∧
        (key = ns ++ "/" ++ name ∨ ns = "" ∧ key = name) := by
  have hsplit : splitKey key = .ok (ns, name) ↔
      KeyText.split? key.toList = some (ns.toList, name.toList) := by
    rw [splitKey]
    cases KeyText.split? key.toList with
    | none => simp
    | some p => simp [Prod.ext_iff, ← String.toList_inj]
  have hslash : key = ns ++ "/" ++ name ↔ key.toList = ns.toList ++ '/' :: name.toList := by
    rw [← String.toList_inj]
    simp
  rw [hsplit, KeyText.split?_eq_some_iff, hslash, String.toList_inj]
  simp only [ne_eq, String.toList_eq_nil_iff]

/-! ## Objects and their keys -/

variable {α : Type} [Object α]

/-- The namespace of an object, where none is the same as the empty one. -/
def spaceOf (a : α) : String := (Object.namespaceOf a).getD ""

/-- An object whose parts can be told apart in its key. -/
structure Plain (a : α) : Prop where
  space : '/' ∉ (spaceOf a).toList
  name : '/' ∉ (Object.nameOf a).toList
  named : Object.nameOf a ≠ ""

theorem keyOf_eq (a : α) :
    keyOf a = if spaceOf a = "" then Object.nameOf a
      else spaceOf a ++ "/" ++ Object.nameOf a := by
  rw [keyOf, spaceOf]
  cases Object.namespaceOf a <;> rfl

theorem splitKey_keyOf {a : α} (h : Plain a) :
    splitKey (keyOf a) = .ok (spaceOf a, Object.nameOf a) := by
  rw [splitKey_eq_ok_iff, keyOf_eq]
  refine ⟨h.named, h.space, h.name, ?_⟩
  split
  next he => exact .inr ⟨he, rfl⟩
  next => exact .inl rfl

theorem keyOf_eq_keyOf_iff {a b : α} (ha : Plain a) (hb : Plain b) :
    keyOf a = keyOf b ↔ Object.nameOf a = Object.nameOf b ∧ spaceOf a = spaceOf b := by
  constructor
  · intro h
    have hs : Except.ok (spaceOf a, Object.nameOf a) =
        (Except.ok (spaceOf b, Object.nameOf b) : Except Error _) := by
      rw [← splitKey_keyOf ha, h, splitKey_keyOf hb]
    obtain ⟨hspace, hname⟩ := Prod.mk.inj (Except.ok.inj hs)
    exact ⟨hname, hspace⟩
  · rintro ⟨hname, hspace⟩
    rw [keyOf_eq, keyOf_eq, hname, hspace]

/-- **Keys can be read back.**  Of an object without slashes in its namespace and name the key
gives both, so that two such objects have the same key only if they have the same name and the
same namespace.  A text is accepted as a key exactly if it has at most one slash and something
behind it, and then it is taken apart there. -/
theorem keys_decode :
    (∀ a : α, Plain a → splitKey (keyOf a) = .ok (spaceOf a, Object.nameOf a)) ∧
    (∀ a b : α, Plain a → Plain b →
      (keyOf a = keyOf b ↔ Object.nameOf a = Object.nameOf b ∧ spaceOf a = spaceOf b)) ∧
    ∀ key : String, splitKey key =
      if key.toList.count '/' ≤ 1 ∧ behindSlash key ≠ "" then
        .ok (beforeSlash key, behindSlash key)
      else .error (.invalidKey key) :=
  ⟨fun _ => splitKey_keyOf, fun _ _ => keyOf_eq_keyOf_iff, splitKey_eq⟩

open Scenario in
/-- A secret in a namespace, and one outside of all: the key of each is read back. -/
theorem keys_decode_kubeconfig :
    splitKey "kube-system/kubeconfig" = .ok ("kube-system", "kubeconfig") ∧
      splitKey "kubeconfig" = .ok ("", "kubeconfig") :=
  ⟨keys_decode.1 (Obj.item ⟨some "kube-system", "kubeconfig", 1, []⟩)
      ⟨by decide, by decide, by decide⟩,
    keys_decode.1 (Obj.item ⟨some "", "kubeconfig", 1, []⟩) ⟨by decide, by decide, by decide⟩⟩

/-! ## Texts that are no object's key -/

/-- Whether a text begins with a slash. -/
def Rooted (key : String) : Prop := key.toList.head? = some '/'

theorem rooted_slash_append (text : String) : Rooted ("/" ++ text) := by
  simp [Rooted]

theorem not_rooted_of_not_mem {text : String} (h : '/' ∉ text.toList) : ¬Rooted text :=
  fun hr => h (List.mem_of_head? hr)

/-- What is read as a name without a namespace is the name, or the name behind a slash. -/
theorem splitKey_eq_ok_empty_iff {key name : String} :
    splitKey key = .ok ("", name) ↔
      name ≠ "" ∧ '/' ∉ name.toList ∧ (key = name ∨ key = "/" ++ name) := by
  rw [splitKey_eq_ok_iff]
  have hempty : ("" : String) ++ "/" ++ name = "/" ++ name := by simp
  rw [hempty]
  simp only [String.toList_empty, List.not_mem_nil, not_false_eq_true, true_and, or_comm]

/-- What is accepted and begins with a slash is a slash before a name, and the name alone is read
in the same way. -/
theorem of_rooted {key ns name : String} (h : splitKey key = .ok (ns, name)) (hr : Rooted key) :
    ns = "" ∧ key = "/" ++ name ∧ splitKey name = .ok (ns, name) := by
  obtain ⟨hne, hns, hname, hkey⟩ := splitKey_eq_ok_iff.mp h
  rcases hkey with rfl | ⟨-, rfl⟩
  · have he : ns = "" := by
      cases hs : ns.toList with
      | nil => exact String.toList_eq_nil_iff.mp hs
      | cons c cs =>
        -- the first character would be a slash in the namespace
        obtain rfl : c = '/' := by simpa [Rooted, hs] using hr
        exact absurd (hs ▸ List.mem_cons_self) hns
    subst he
    exact ⟨rfl, by simp, splitKey_eq_ok_empty_iff.mpr ⟨hne, hname, .inl rfl⟩⟩
  · exact absurd hr (not_rooted_of_not_mem hname)

/-- An object named as a text is read has that text as its key, unless it begins with a slash. -/
theorem keyOf_eq_iff_of_splitKey {key : String} {a : α}
    (h : splitKey key = .ok (spaceOf a, Object.nameOf a)) : keyOf a = key ↔ ¬Rooted key := by
  obtain ⟨hne, hns, hname, hkey⟩ := splitKey_eq_ok_iff.mp h
  constructor
  · rintro rfl hr
    obtain ⟨hspace, hkey, -⟩ := of_rooted h hr
    -- the object has no namespace, so its key is its name and has no slash at all
    rw [keyOf_eq, if_pos hspace] at hkey hr
    exact not_rooted_of_not_mem hname hr
  · intro hr
    rw [keyOf_eq]
    rcases hkey with hkey | ⟨hspace, hkey⟩
    · rw [if_neg, hkey]
      intro hspace
      rw [hkey, hspace, String.empty_append] at hr
      exact hr (rooted_slash_append _)
    · rw [if_pos hspace, hkey]

/-- Two texts that are read alike differ by a slash at the beginning, if at all. -/
theorem eq_or_slash_of_splitKey {key other ns name : String}
    (h : splitKey key = .ok (ns, name)) (h' : splitKey other = .ok (ns, name)) :
    other = key ∨ other = "/" ++ key ∨ key = "/" ++ other := by
  obtain ⟨-, -, -, hkey⟩ := splitKey_eq_ok_iff.mp h
  obtain ⟨-, -, -, hother⟩ := splitKey_eq_ok_iff.mp h'
  rcases hkey with rfl | ⟨rfl, rfl⟩ <;> rcases hother with rfl | ⟨he, rfl⟩
  · exact .inl rfl
  · exact .inr (.inr (by rw [he, String.empty_append]))
  · exact .inr (.inl (by rw [String.empty_append]))
  · exact .inl rfl

/-! ## Looking a key up -/

variable {β : Type} [Object β]

/-- The items that an index files under the keys of the objects they use. -/
theorem mem_byIndex_iff {calls : List (Store.Mutation β)} {name : String} {uses : β → List α}
    (hadded : Store.Added calls name fun b => (uses b).map keyOf) (key : String) :
    ∃ bs, (Store.after calls).byIndex name key = .ok bs ∧
      ∀ b, b ∈ bs ↔ b ∈ (Store.after calls).list ∧ ∃ a ∈ uses b, keyOf a = key := by
  refine ⟨_, Store.byIndex_of_indexer (Store.sound_after calls)
    ((Store.indexer_after calls name _).mpr hadded) key, fun b => ?_⟩
  simp

/-- **Which accepted texts are keys.**  A text that is read as a namespace and a name is the key of
the objects that are called so if it does not begin with a slash, and of none if it does.  In that
case the namespace is empty, the name behind the slash is accepted too and read in the same way;
apart from such pairs no two accepted texts are read alike.  So a lookup of the text in the index
from secrets to bindings finds the bindings that use the secret of that name, or nothing if the
text begins with a slash. -/
theorem accepted_keys {key ns name : String} (h : splitKey key = .ok (ns, name)) :
    (∀ a : α, spaceOf a = ns → Object.nameOf a = name → (keyOf a = key ↔ ¬Rooted key)) ∧
    (Rooted key → ns = "" ∧ key = "/" ++ name ∧ splitKey name = .ok (ns, name)) ∧
    (∀ other, splitKey other = .ok (ns, name) →
      other = key ∨ other = "/" ++ key ∨ key = "/" ++ other) ∧
    ∀ (calls : List (Store.Mutation β)) (uses : β → List α),
      Store.Added calls bySecret (fun b => (uses b).map keyOf) →
      (∀ b, ∀ a ∈ uses b, Plain a) →
      ∃ bs, (Store.after calls).byIndex bySecret key = .ok bs ∧
        ∀ b, b ∈ bs ↔ b ∈ (Store.after calls).list ∧ ¬Rooted key ∧
          ∃ a ∈ uses b, spaceOf a = ns ∧ Object.nameOf a = name := by
  have hcalled : ∀ a : α, spaceOf a = ns → Object.nameOf a = name →
      (keyOf a = key ↔ ¬Rooted key) := by
    rintro a rfl rfl
    exact keyOf_eq_iff_of_splitKey h
  refine ⟨hcalled, of_rooted h, fun other h' => eq_or_slash_of_splitKey h h', ?_⟩
  intro calls uses hadded hplain
  obtain ⟨bs, hbs, hmem⟩ := mem_byIndex_iff hadded key
  refine ⟨bs, hbs, fun b => ?_⟩
  rw [hmem]
  refine and_congr_right fun _ => ?_
  constructor
  · rintro ⟨a, ha, hkey⟩
    -- the key of a plain object is read as what the object is called
    have hread := splitKey_keyOf (hplain b a ha)
    rw [hkey, h] at hread
    obtain ⟨hspace, hname⟩ := Prod.mk.inj (Except.ok.inj hread)
    exact ⟨(hcalled a hspace.symm hname.symm).mp hkey, a, ha, hspace.symm, hname.symm⟩
  · rintro ⟨hr, a, ha, hspace, hname⟩
    exact ⟨a, ha, (hcalled a hspace hname).mpr hr⟩

namespace Scenario

/-- A secret outside of all namespaces. -/
def kubeconfig : Obj := .item ⟨none, "kubeconfig", 1, []⟩

/-- A binding that uses it. -/
def user : Obj := .binding ⟨none, "b1", ["kubeconfig"], []⟩

/-- A text that begins with a slash, and the key without it. -/
theorem accepted_keys_kubeconfig :
    (keyOf kubeconfig = "/kubeconfig" ↔ ¬Rooted "/kubeconfig") ∧
      (keyOf kubeconfig = "kubeconfig" ↔ ¬Rooted "kubeconfig") :=
  ⟨(accepted_keys (β := Obj) (by decide +kernel)).1 kubeconfig rfl rfl,
    (accepted_keys (β := Obj) (by decide +kernel)).1 kubeconfig rfl rfl⟩

/-- Two texts that are accepted and say the same: the secret is kept under one of them only, and
only that one leads from the index to the binding that uses it. -/
theorem two_texts_for_kubeconfig :
    splitKey "/kubeconfig" = .ok ("", "kubeconfig") ∧
      splitKey "kubeconfig" = .ok ("", "kubeconfig") ∧
      keyOf kubeconfig = "kubeconfig" ∧
      let store := Store.after [.addIndex bySecret Obj.secrets, .upsert user]
      store.byIndex bySecret "/kubeconfig" = .ok [] ∧
        store.byIndex bySecret "kubeconfig" = .ok [user] := by
  decide +kernel

end Scenario

end InformerHub
