/-!
# Texts as bytes

Everything that leaves the program leaves it as UTF-8. `utf8` is the byte sequence of a text and
takes the end of one text and the start of the next apart (`utf8_append`); `ofUtf8?` reads a text
back and refuses bytes that are none.
-/

namespace DiagnosticReport

namespace Text

/-- The UTF-8 form of a text. -/
def utf8 (s : String) : List UInt8 :=
  s.toList.flatMap String.utf8EncodeChar

@[simp] theorem utf8_empty : utf8 "" = [] := rfl

@[simp] theorem utf8_append (s t : String) : utf8 (s ++ t) = utf8 s ++ utf8 t := by
  simp [utf8]

/-- The bytes are those that a string holds in memory. -/
theorem toByteArray_utf8 (s : String) : (utf8 s).toByteArray = s.toByteArray := by
  rw [← String.ofList_toList (s := s), String.toByteArray_ofList, String.ofList_toList]
  rfl

/-- The text of which these bytes are the UTF-8 form, if there is one. -/
def ofUtf8? (bytes : ByteArray) : Option String :=
  String.fromUTF8? bytes

end Text

end DiagnosticReport
