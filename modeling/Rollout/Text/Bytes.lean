-- Texts as bytes. Texts are ordered by their characters, and their bytes are in the same order: a
-- later character begins with a greater byte, or goes on with one after bytes that are the same.

namespace Rollout.Text

/-- The bytes of a text in UTF-8. -/
def bytes (s : String) : List UInt8 := s.toUTF8.data.toList

theorem bytes_eq_flatMap (s : String) :
    bytes s = s.toList.flatMap String.utf8EncodeChar := by
  unfold bytes
  rw [String.toUTF8_eq_toByteArray, ← String.utf8Encode_toList, List.utf8Encode,
    List.data_toByteArray]

/-! ## Characters -/

theorem cons_ofNat_lt_cons {a b : Nat} {xs ys : List UInt8} (hb : b < 256)
    (h : a < b ∨ a = b ∧ xs < ys) : UInt8.ofNat a :: xs < UInt8.ofNat b :: ys := by
  rw [List.cons_lt_cons_iff, UInt8.lt_iff_toNat_lt, UInt8.toNat_ofNat', UInt8.toNat_ofNat']
  rcases h with h | ⟨rfl, h⟩
  · exact Or.inl (by omega)
  · exact Or.inr ⟨rfl, h⟩

/-- The last digit of a number in base 64 goes to a byte. The digits that are left decide which of
two numbers is less, and then the byte does. -/
theorem digit_lt_digit {a b : Nat} {xs ys : List UInt8} (h : a < b ∨ a = b ∧ xs < ys) :
    a / 64 < b / 64 ∨ a / 64 = b / 64 ∧
      UInt8.ofNat (a % 64 + 128) :: xs < UInt8.ofNat (b % 64 + 128) :: ys := by
  rcases Nat.lt_or_ge (a / 64) (b / 64) with hlt | hge
  · exact Or.inl hlt
  · refine Or.inr ⟨by omega, cons_ofNat_lt_cons (by omega) ?_⟩
    rcases h with h | ⟨rfl, h⟩
    · exact Or.inl (by omega)
    · exact Or.inr ⟨rfl, h⟩

/-- The bytes of a character come before those of a later one, whatever follows them. -/
theorem utf8EncodeChar_append_lt {c d : Char} (h : c < d) (xs ys : List UInt8) :
    String.utf8EncodeChar c ++ xs < String.utf8EncodeChar d ++ ys := by
  have hlt : c.val.toNat < d.val.toNat := h
  have hd : d.val.toNat < 0x110000 := by
    have hvalid := d.valid
    simp only [UInt32.isValidChar, Nat.isValidChar] at hvalid
    omega
  have h4096 : ∀ k : Nat, k / 4096 = k / 64 / 64 := by omega
  have h262144 : ∀ k : Nat, k / 262144 = k / 64 / 64 / 64 := by omega
  unfold String.utf8EncodeChar
  generalize c.val.toNat = m at *
  generalize d.val.toNat = n at *
  have hone := @digit_lt_digit m n xs ys (Or.inl hlt)
  have htwo := digit_lt_digit hone
  have hthree := digit_lt_digit htwo
  simp only [h4096, h262144]
  -- Rows of two, three or four bytes are compared by their digits, and rows of one byte or of
  -- different lengths by the first byte alone.
  repeat' split
  case isFalse.isTrue.isFalse.isTrue =>
    exact cons_ofNat_lt_cons (by omega) (hone.imp (by omega) (And.imp_left (by omega)))
  case isFalse.isFalse.isTrue.isFalse.isFalse.isTrue =>
    exact cons_ofNat_lt_cons (by omega) (htwo.imp (by omega) (And.imp_left (by omega)))
  case isFalse.isFalse.isFalse.isFalse.isFalse.isFalse =>
    exact cons_ofNat_lt_cons (by omega) (hthree.imp (by omega) (And.imp_left (by omega)))
  all_goals exact cons_ofNat_lt_cons (by omega) (Or.inl (by omega))

theorem flatMap_utf8EncodeChar_lt {cs ds : List Char} (h : cs < ds) :
    cs.flatMap String.utf8EncodeChar < ds.flatMap String.utf8EncodeChar := by
  induction h with
  | nil =>
    rw [List.flatMap_nil, List.flatMap_cons]
    cases hbytes : String.utf8EncodeChar _ with
    | nil => exact absurd hbytes String.utf8EncodeChar_ne_nil
    | cons b bs => exact List.nil_lt_cons _ _
  | cons _ ih =>
    rw [List.flatMap_cons, List.flatMap_cons]
    exact List.append_left_lt ih
  | rel h =>
    rw [List.flatMap_cons, List.flatMap_cons]
    exact utf8EncodeChar_append_lt h _ _

/-! ## Texts -/

/-- What comes first among texts comes first among their bytes. -/
theorem bytes_lt_bytes {s t : String} (h : compare s t = .lt) : bytes s < bytes t := by
  rw [bytes_eq_flatMap, bytes_eq_flatMap]
  exact flatMap_utf8EncodeChar_lt (String.lt_iff.1 (compareOfLessAndEq_eq_lt.1 h))

end Rollout.Text
