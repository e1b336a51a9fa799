/-! Texts as bytes. -/

namespace CampusQuery

/-- The text in UTF-8. -/
def utf8 (s : String) : List UInt8 :=
  s.toByteArray.data.toList

/-- The text that these bytes are in UTF-8. -/
def textOfUtf8? (bytes : List UInt8) : Option String :=
  String.fromUTF8? ⟨bytes.toArray⟩

end CampusQuery
