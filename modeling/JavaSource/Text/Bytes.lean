/-!
# UTF-8 bytes of a text
-/
namespace JavaSource.Text

/-- The UTF-8 encoding of a text. -/
def bytes (text : String) : List UInt8 := text.toByteArray.data.toList

@[simp] theorem bytes_empty : bytes "" = [] := rfl

@[simp] theorem bytes_append (first second : String) :
    bytes (first ++ second) = bytes first ++ bytes second := by
  simp [bytes]

@[simp] theorem length_bytes (text : String) : (bytes text).length = text.utf8ByteSize := by
  simp [bytes]

theorem bytes_inj (first second : String) : bytes first = bytes second ↔ first = second := by
  rw [bytes, bytes, ← String.toByteArray_inj, Array.toList_inj, ByteArray.ext_iff]

theorem bytes_eq_nil_iff (text : String) : bytes text = [] ↔ text = "" := bytes_inj text ""

/-- How many bytes encode these characters. -/
def byteSize : List Char → Nat
  | [] => 0
  | c :: rest => c.utf8Size + byteSize rest

theorem byteSize_append (first second : List Char) :
    byteSize (first ++ second) = byteSize first + byteSize second := by
  induction first with
  | nil => exact (Nat.zero_add _).symm
  | cons c rest ih => rw [List.cons_append, byteSize, byteSize, ih, Nat.add_assoc]

theorem byteSize_toList (text : String) : byteSize text.toList = text.utf8ByteSize := by
  obtain ⟨chars, rfl⟩ : ∃ chars, text = String.ofList chars := ⟨text.toList, by simp⟩
  rw [String.toList_ofList]
  induction chars with
  | nil => rfl
  | cons c rest ih =>
    rw [byteSize, ih, String.ofList_cons, String.utf8ByteSize_append,
      String.utf8ByteSize_singleton]

/-- The text that a run of bytes encodes, if it is UTF-8. -/
def ofBytes? (encoded : List UInt8) : Option String := String.fromUTF8? ⟨encoded.toArray⟩

theorem ofBytes?_bytes (text : String) : ofBytes? (bytes text) = some text := by
  have whole : (⟨(bytes text).toArray⟩ : ByteArray) = text.toByteArray := rfl
  rw [ofBytes?, whole, String.fromUTF8?, dif_pos text.isValidUTF8]
  rfl

end JavaSource.Text
