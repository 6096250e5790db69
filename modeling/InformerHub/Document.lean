/-!
# Documents

Plain data as configuration files and requests carry it: scalars, lists, and tables whose entries
have names.
-/

namespace InformerHub

/-- A value of a data format. -/
inductive Document where
  | null
  | bool (value : Bool)
  | integer (value : Int)
  | float (value : Float)
  | text (value : String)
  | list (items : List Document)
  | table (entries : List (String × Document))
  deriving Inhabited

namespace Document

/-- The entry of a name in a list of entries. -/
def lookup? (name : String) (entries : List (String × Document)) : Option Document :=
  (entries.find? fun e => e.1 = name).map Prod.snd

/-- Writes an entry over the one of its name, or behind all others. -/
def setEntry (name : String) (value : Document) :
    List (String × Document) → List (String × Document)
  | [] => [(name, value)]
  | e :: es => if e.1 = name then (name, value) :: es else e :: setEntry name value es

theorem lookup?_setEntry_self (name : String) (value : Document)
    (es : List (String × Document)) : lookup? name (setEntry name value es) = some value := by
  induction es with
  | nil => simp [setEntry, lookup?]
  | cons e es ih =>
    simp only [setEntry]
    split
    · simp [lookup?]
    · rename_i h
      simpa [lookup?, h] using ih

theorem lookup?_setEntry_of_ne {name other : String} (h : other ≠ name) (value : Document)
    (es : List (String × Document)) :
    lookup? other (setEntry name value es) = lookup? other es := by
  induction es with
  | nil => simp [setEntry, lookup?, h.symm]
  | cons e es ih =>
    simp only [setEntry]
    split
    · rename_i he
      simp [lookup?, h.symm, he]
    · by_cases ho : e.1 = other
      · simp [lookup?, ho]
      · simpa [lookup?, ho] using ih

end Document

end InformerHub
