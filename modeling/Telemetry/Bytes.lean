/-!
# Bytes

Bodies, files and keys are lists of bytes. A text is bytes through UTF-8, and bytes
are a text only if they are UTF-8 all through.
-/

namespace Telemetry

abbrev Bytes := List UInt8

namespace Bytes

/-- The UTF-8 bytes of a text. -/
def ofText (s : String) : Bytes := s.toUTF8.toList

/-- The text that the bytes are, if they are UTF-8. -/
def toText? (b : Bytes) : Option String := String.fromUTF8? b.toByteArray

/-- The byte of an ASCII character. -/
def ofChar (c : Char) : UInt8 := c.toNat.toUInt8

end Bytes

end Telemetry
