import InformerHub.Text.Hidden

/-!
# Quoted text

A text between double quotes, as error messages and object descriptions show it.  A quote and a
backslash get a backslash, the common control characters get their letter, and every other
character without a visible form is written by its number: `\u{301}`.
-/

namespace InformerHub.Text.Quoted

/-- The lower-case hexadecimal digits of a code point, without leading zeros. -/
def hexDigits (c : Char) : List Char := Nat.toDigits 16 c.toNat

/-- A character inside quotes. -/
def encodeChar (c : Char) : List Char :=
  match c with
  | '"' => ['\\', '"']
  | '\\' => ['\\', '\\']
  | '\n' => ['\\', 'n']
  | '\r' => ['\\', 'r']
  | '\t' => ['\\', 't']
  | '\x00' => ['\\', '0']
  | c => if isHidden c then ['\\', 'u', '\x7b'] ++ hexDigits c ++ ['\x7d'] else [c]

/-- A text inside quotes, the quotes left out. -/
def encode (cs : List Char) : List Char := cs.flatMap encodeChar

end Quoted

/-- A text between double quotes. -/
def quoted (s : String) : String :=
  String.ofList ('"' :: Quoted.encode s.toList ++ ['"'])

end InformerHub.Text
