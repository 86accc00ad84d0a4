/-
  Texts as bytes.

  `encode` writes a text in UTF-8, and `decode?` reads bytes back, which fails
  exactly on bytes that are no UTF-8.
-/

namespace NaturalDeduction.Text.Utf8

/-- The bytes of a text. -/
def encode (text : String) : List UInt8 :=
  text.toUTF8.data.toList

/-- The text that has these bytes. -/
def decode? (bytes : List UInt8) : Option String :=
  String.fromUTF8? ⟨bytes.toArray⟩

/-- What was written is read back. -/
@[simp] theorem decode?_encode (text : String) : decode? (encode text) = some text := by
  have valid : (⟨(encode text).toArray⟩ : ByteArray).IsValidUTF8 := by
    simpa [encode] using text.isValidUTF8
  simp only [decode?, String.fromUTF8?, valid, dite_true, Option.some.injEq]
  rfl

/-- Only the bytes of a text are read as that text. -/
theorem encode_of_decode? {bytes : List UInt8} {text : String} (h : decode? bytes = some text) :
    encode text = bytes := by
  simp only [decode?, String.fromUTF8?] at h
  split at h
  · simp only [Option.some.injEq] at h
    subst h
    simp [encode, String.fromUTF8]
  · simp at h

/-- The bytes of a text are those of its characters. -/
theorem encode_eq_flatMap (text : String) :
    encode text = text.toList.flatMap String.utf8EncodeChar := by
  rw [encode, String.toUTF8_eq_toByteArray, ← String.utf8Encode_toList, List.utf8Encode,
    List.data_toByteArray]

theorem encode_append (a b : String) : encode (a ++ b) = encode a ++ encode b := by
  simp only [encode_eq_flatMap, String.toList_append, List.flatMap_append]

end NaturalDeduction.Text.Utf8
