/-!
# Bytes and text

Files hold bytes; manifests, flag lists and scripting sources are text. A file is read as text
only if its bytes are well-formed UTF-8.

## Main statements

* `ofUtf8?_utf8`: the bytes of a text read back as that text.
* `utf8_of_ofUtf8?`: bytes that read as a text are the bytes of that text, so each text has one
  byte form.
-/

namespace SimMetadata

/-- The content of a file, a digest or a header. -/
abbrev Bytes := List UInt8

namespace Text

/-- The UTF-8 bytes of a text. -/
def utf8 (s : String) : Bytes := s.toUTF8.data.toList

/-- The text that the bytes spell, if they are well-formed UTF-8. -/
def ofUtf8? (b : Bytes) : Option String := String.fromUTF8? ⟨b.toArray⟩

@[simp] theorem ofUtf8?_utf8 (s : String) : ofUtf8? (utf8 s) = some s := by
  have h : (⟨(utf8 s).toArray⟩ : ByteArray) = s.toByteArray := by simp [utf8]
  simp [ofUtf8?, h, String.fromUTF8?, String.fromUTF8, s.isValidUTF8]

theorem utf8_of_ofUtf8? {b : Bytes} {s : String} (h : ofUtf8? b = some s) : utf8 s = b := by
  simp only [ofUtf8?, String.fromUTF8?] at h
  split at h
  · cases h
    simp [utf8, String.fromUTF8]
  · cases h

/-- Reading bytes as text succeeds exactly on the bytes of texts. -/
theorem ofUtf8?_eq_some_iff {b : Bytes} {s : String} : ofUtf8? b = some s ↔ b = utf8 s :=
  ⟨fun h => (utf8_of_ofUtf8? h).symm, fun h => h ▸ ofUtf8?_utf8 s⟩

end Text

end SimMetadata
