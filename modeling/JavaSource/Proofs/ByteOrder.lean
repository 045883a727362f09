import JavaSource.Text.Bytes

/-!
# The order of texts is the order of their bytes

Texts are ordered by the code points of their characters. UTF-8 keeps this order: of two different
characters the smaller one has the smaller byte where their encodings first differ.
-/
namespace JavaSource.Text

theorem bytes_eq_flatMap (text : String) :
    bytes text = text.toList.flatMap String.utf8EncodeChar := by
  rw [bytes, ← String.ofList_toList (s := text), String.toByteArray_ofList]
  simp [List.utf8Encode]

/-- The encoding of a smaller character comes first, whatever follows the two encodings. -/
theorem encode_append_lt {c d : Char} (less : c < d) (first second : List UInt8) :
    String.utf8EncodeChar c ++ first < String.utf8EncodeChar d ++ second := by
  have values : c.val.toNat < d.val.toNat := less
  have bound : d.val.toNat < 0x110000 := by
    rcases d.valid with low | high
    · have below : d.val.toNat < 0xd800 := low
      omega
    · exact high.2
  simp only [String.utf8EncodeChar]
  generalize c.val.toNat = m at values
  generalize d.val.toNat = n at values bound
  -- One case for each pair of lengths. The bytes are digits of the code points, with no carry.
  repeat' split
  all_goals
    simp only [List.cons_append, List.nil_append, List.cons_lt_cons_iff, UInt8.lt_iff_toNat_lt,
      ← UInt8.toNat_inj, UInt8.toNat_ofNat']
  all_goals simp (disch := omega) only [Nat.mod_eq_of_lt]
  all_goals omega

theorem flatMap_encode_lt {first second : List Char} (less : first < second) :
    first.flatMap String.utf8EncodeChar < second.flatMap String.utf8EncodeChar := by
  induction less with
  | @nil d rest =>
    have nonempty : String.utf8EncodeChar d ≠ [] := String.utf8EncodeChar_ne_nil
    obtain ⟨byte, more, encoded⟩ := List.exists_cons_of_ne_nil nonempty
    rw [List.flatMap_nil, List.flatMap_cons, encoded]
    exact List.Lex.nil
  | rel less => exact encode_append_lt less _ _
  | cons _ ih => exact List.append_left_lt ih

theorem bytes_lt_of_lt {first second : String} (less : first < second) :
    bytes first < bytes second := by
  rw [bytes_eq_flatMap, bytes_eq_flatMap]
  exact flatMap_encode_lt less

/-- Comparing two texts is comparing their bytes. -/
theorem bytes_le_iff (first second : String) : bytes first ≤ bytes second ↔ first ≤ second := by
  constructor
  · intro bytes_le less
    exact bytes_le (bytes_lt_of_lt less)
  · intro le bytes_less
    by_cases less : first < second
    · exact List.lt_asymm bytes_less (bytes_lt_of_lt less)
    · obtain rfl : first = second := String.le_antisymm le less
      exact List.lt_irrefl _ bytes_less

end JavaSource.Text
