/-!
# The order of bytes

Strings are ordered by the numbers of their characters. This is also the order of their bytes in
UTF-8 (`bytes_lt_iff`), since a character with a larger number has larger bytes.
-/

namespace TableShell.Utf8

/-- The bytes of a character are smaller than those of one with a larger number, and neither begin
the other. -/
theorem encodeChar_lt {c d : Char} (lt : c < d) (xs ys : List UInt8) :
    String.utf8EncodeChar c ++ xs < String.utf8EncodeChar d ++ ys := by
  have less : c.val.toNat < d.val.toNat := UInt32.lt_iff_toNat_lt.1 lt
  have bound : d.val.toNat < 0x110000 := by
    have valid : d.val.toNat < 0xD800 ∨ 0xDFFF < d.val.toNat ∧ d.val.toNat < 0x110000 := d.valid
    omega
  simp only [String.utf8EncodeChar]
  generalize c.val.toNat = m at less ⊢
  generalize d.val.toNat = n at less bound ⊢
  -- One case for each pair of lengths.
  repeat' split
  all_goals
    simp (disch := omega) only [List.cons_append, List.nil_append, List.cons_lt_cons_iff,
      UInt8.lt_iff_toNat_lt, ← UInt8.toNat_inj, UInt8.toNat_ofNat', Nat.mod_eq_of_lt]
    omega

private theorem flatMap_encodeChar_lt {cs ds : List Char} (lt : cs < ds) :
    cs.flatMap String.utf8EncodeChar < ds.flatMap String.utf8EncodeChar := by
  induction cs generalizing ds with
  | nil =>
    cases ds with
    | nil => exact absurd lt (List.not_lt_nil [])
    | cons d ds =>
      rw [List.flatMap_nil, List.flatMap_cons]
      cases encoded : String.utf8EncodeChar d with
      | nil => exact absurd encoded String.utf8EncodeChar_ne_nil
      | cons b bs => exact List.nil_lt_cons _ _
  | cons c cs ih =>
    cases ds with
    | nil => exact absurd lt (List.not_lt_nil _)
    | cons d ds =>
      rw [List.flatMap_cons, List.flatMap_cons]
      rcases List.cons_lt_cons_iff.1 lt with less | ⟨rfl, less⟩
      · exact encodeChar_lt less _ _
      · exact List.append_left_lt (ih less)

/-- The order of strings is the order of their bytes. -/
theorem bytes_lt {a b : String} (lt : a < b) : a.toUTF8.data.toList < b.toUTF8.data.toList := by
  have bytes (s : String) : s.toUTF8.data.toList = s.toList.flatMap String.utf8EncodeChar := by
    rw [String.toUTF8_eq_toByteArray, ← String.utf8Encode_toList, List.utf8Encode,
      List.data_toByteArray]
  rw [bytes, bytes]
  exact flatMap_encodeChar_lt (String.lt_iff.1 lt)

theorem bytes_lt_iff {a b : String} :
    a.toUTF8.data.toList < b.toUTF8.data.toList ↔ a < b := by
  refine ⟨fun less => Decidable.byContradiction fun not_lt => ?_, bytes_lt⟩
  by_cases eq : a = b
  · exact List.lt_irrefl _ (eq ▸ less)
  · have greater : b < a := Decidable.byContradiction fun not_gt =>
      eq (String.le_antisymm (String.not_lt.1 not_gt) (String.not_lt.1 not_lt))
    exact List.lt_asymm less (bytes_lt greater)

end TableShell.Utf8
