import InformerHub.Error

/-!
# Object keys

An object is named by its namespace and its name; its key is `namespace/name`, or the name alone
for an object without a namespace.  An empty namespace counts as none.  `splitKey` reads a key
back into its two parts.
-/

namespace InformerHub

/-- What an informer needs to know of an object: how it is called. -/
class Object (α : Type) where
  /-- None for objects that live outside every namespace. -/
  namespaceOf : α → Option String
  nameOf : α → String

/-- The key of an object with this namespace and name. -/
def joinKey (ns : Option String) (name : String) : String :=
  match ns with
  | some ns => if ns = "" then name else ns ++ "/" ++ name
  | none => name

/-- The key under which an object is stored. -/
def keyOf {α : Type} [Object α] (a : α) : String :=
  joinKey (Object.namespaceOf a) (Object.nameOf a)

namespace KeyText

/-- The parts of a text between slashes.  There is always at least one. -/
def segments : List Char → List (List Char)
  | [] => [[]]
  | c :: cs =>
    if c = '/' then [] :: segments cs
    else match segments cs with
      | [] => [[c]]
      | s :: ss => (c :: s) :: ss

/-- The namespace and the name in a key, if it has at most one slash and a name. -/
def split? (cs : List Char) : Option (List Char × List Char) :=
  match segments cs with
  | [name] => if name = [] then none else some ([], name)
  | [ns, name] => if name = [] then none else some (ns, name)
  | _ => none

theorem segments_ne_nil (cs : List Char) : segments cs ≠ [] := by
  induction cs with
  | nil => simp [segments]
  | cons c cs ih =>
    simp only [segments]
    split
    · simp
    · split <;> simp

theorem segments_of_not_mem {cs : List Char} (h : '/' ∉ cs) : segments cs = [cs] := by
  induction cs with
  | nil => rfl
  | cons c cs ih =>
    have hc : c ≠ '/' := fun e => h (e ▸ List.mem_cons_self ..)
    simp [segments, hc, ih fun m => h (List.mem_cons_of_mem _ m)]

theorem segments_append_slash {as : List Char} (h : '/' ∉ as) (bs : List Char) :
    segments (as ++ '/' :: bs) = as :: segments bs := by
  induction as with
  | nil => simp [segments]
  | cons c cs ih =>
    have hc : c ≠ '/' := fun e => h (e ▸ List.mem_cons_self ..)
    simp [segments, hc, ih fun m => h (List.mem_cons_of_mem _ m)]

end KeyText

/-- Splits a key into namespace and name.  A key without a slash has the empty namespace. -/
def splitKey (key : String) : Except Error (String × String) :=
  match KeyText.split? key.toList with
  | some (ns, name) => .ok (String.ofList ns, String.ofList name)
  | none => .error (.invalidKey key)

end InformerHub
