/-!
# The order of texts is the order of their bytes

Keys and names are compared character by character.  A text is stored and sent as UTF-8, and the
encoding keeps that order:

> `compare_eq_lt_iff_bytes`: a text stands before another one exactly if its bytes do.

The step is `utf8EncodeChar_append_lt`: of two characters the smaller one has the smaller code, and
the two codes differ within the first of them, so that whatever follows does not matter.
-/

namespace InformerHub.Text

/-- The UTF-8 bytes of a text. -/
def bytes (s : String) : List UInt8 := s.toByteArray.data.toList

theorem bytes_eq_flatMap (s : String) : bytes s = s.toList.flatMap String.utf8EncodeChar := by
  have h : s.toByteArray = (s.toList.flatMap String.utf8EncodeChar).toByteArray := by
    conv => lhs; rw [← String.ofList_toList (s := s)]
    rw [String.toByteArray_ofList, List.utf8Encode]
  rw [bytes, h, List.toList_data_toByteArray]

/-! ## One character -/

/-- The code of a character by its size: one byte, or a lead byte that tells the size and then
six bits a byte. -/
theorem utf8EncodeChar_cases (ch : Char) :
    (ch.val.toNat < 0x80 ∧ String.utf8EncodeChar ch = [UInt8.ofNat ch.val.toNat]) ∨
    (∃ a b, ch.val.toNat = 64 * a + b ∧ 2 ≤ a ∧ a < 32 ∧ b < 64 ∧
      String.utf8EncodeChar ch = [UInt8.ofNat (a + 0xc0), UInt8.ofNat (b + 0x80)]) ∨
    (∃ a b c, ch.val.toNat = 4096 * a + 64 * b + c ∧ 32 ≤ 64 * a + b ∧
      a < 16 ∧ b < 64 ∧ c < 64 ∧ String.utf8EncodeChar ch =
        [UInt8.ofNat (a + 0xe0), UInt8.ofNat (b + 0x80), UInt8.ofNat (c + 0x80)]) ∨
    (∃ a b c d, ch.val.toNat = 262144 * a + 4096 * b + 64 * c + d ∧ 16 ≤ 64 * a + b ∧
      a < 8 ∧ b < 64 ∧ c < 64 ∧ d < 64 ∧ String.utf8EncodeChar ch =
        [UInt8.ofNat (a + 0xf0), UInt8.ofNat (b + 0x80), UInt8.ofNat (c + 0x80),
          UInt8.ofNat (d + 0x80)]) := by
  have hmax : ch.val.toNat < 0x110000 := by
    rcases ch.valid with h | h
    · exact Nat.lt_trans h (by decide)
    · exact h.2
  unfold String.utf8EncodeChar
  simp only
  generalize ch.val.toNat = n at hmax ⊢
  split
  next h => exact Or.inl ⟨by omega, rfl⟩
  next h1 =>
    split
    next h2 =>
      exact Or.inr (Or.inl ⟨n / 64 % 32, n % 64, by omega, by omega, by omega, by omega, rfl⟩)
    next h2 =>
      split
      next h3 =>
        exact Or.inr (Or.inr (Or.inl ⟨n / 4096 % 16, n / 64 % 64, n % 64, by omega, by omega,
          by omega, by omega, by omega, rfl⟩))
      next h3 =>
        exact Or.inr (Or.inr (Or.inr ⟨n / 262144 % 8, n / 4096 % 64, n / 64 % 64, n % 64,
          by omega, by omega, by omega, by omega, by omega, by omega, rfl⟩))

/-- A smaller character has the smaller code, whatever follows either of them. -/
theorem utf8EncodeChar_append_lt {c d : Char} (h : c < d) (xs ys : List UInt8) :
    String.utf8EncodeChar c ++ xs < String.utf8EncodeChar d ++ ys := by
  have hcd : c.val.toNat < d.val.toNat := h
  rcases utf8EncodeChar_cases c with
      ⟨hc, ec⟩ | ⟨_, _, hc, _, _, _, ec⟩ | ⟨_, _, _, hc, _, _, _, _, ec⟩ |
      ⟨_, _, _, _, hc, _, _, _, _, _, ec⟩ <;>
  rcases utf8EncodeChar_cases d with
      ⟨hd, ed⟩ | ⟨_, _, hd, _, _, _, ed⟩ | ⟨_, _, _, hd, _, _, _, _, ed⟩ |
      ⟨_, _, _, _, hd, _, _, _, _, _, ed⟩ <;>
  -- the lead bytes settle it between two sizes, the number itself within one
  · rw [ec, ed]
    simp only [List.cons_append, List.nil_append, List.cons_lt_cons_iff,
      UInt8.lt_iff_toNat_lt, UInt8.toNat_ofNat', ← UInt8.toNat_inj]
    omega

/-! ## Texts -/

/-- Encoding keeps the order of lists of characters. -/
theorem flatMap_utf8EncodeChar_lt {as bs : List Char} (h : as < bs) :
    as.flatMap String.utf8EncodeChar < bs.flatMap String.utf8EncodeChar := by
  induction h with
  | @nil b bs =>
    rw [List.flatMap_cons, List.flatMap_nil]
    cases hb : String.utf8EncodeChar b with
    | nil => exact absurd hb String.utf8EncodeChar_ne_nil
    | cons x xs => exact List.nil_lt_cons _ _
  | rel hab =>
    rw [List.flatMap_cons, List.flatMap_cons]
    exact utf8EncodeChar_append_lt hab _ _
  | cons _ ih =>
    rw [List.flatMap_cons, List.flatMap_cons]
    exact List.append_left_lt ih

theorem bytes_lt_of_lt {s t : String} (h : s < t) : bytes s < bytes t := by
  rw [bytes_eq_flatMap, bytes_eq_flatMap]
  exact flatMap_utf8EncodeChar_lt h

/-- A text stands before another one exactly if its bytes do. -/
theorem lt_iff_bytes_lt {s t : String} : s < t ↔ bytes s < bytes t := by
  refine ⟨bytes_lt_of_lt, fun h => ?_⟩
  rcases Classical.em (s < t) with hst | hst
  · exact hst
  · rcases Classical.em (t < s) with hts | hts
    · exact absurd (bytes_lt_of_lt hts) (List.lt_asymm h)
    · have he : s = t := String.le_antisymm hts hst
      rw [he] at h
      exact absurd h (List.lt_irrefl _)

theorem compare_eq_lt_iff_bytes {s t : String} : compare s t = .lt ↔ bytes s < bytes t := by
  rw [← lt_iff_bytes_lt]
  exact compareOfLessAndEq_eq_lt

end InformerHub.Text
