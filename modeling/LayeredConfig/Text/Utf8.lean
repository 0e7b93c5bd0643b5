/-!
# Bytes and text

Texts are stored as UTF-8.
-/

namespace LayeredConfig.Text

/-- The text of well-formed UTF-8. -/
def ofBytes? (bytes : List UInt8) : Option String := String.fromUTF8? ⟨bytes.toArray⟩

def toBytes (text : String) : List UInt8 := text.toUTF8.toList

end LayeredConfig.Text
