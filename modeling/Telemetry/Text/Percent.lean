import Telemetry.Bytes

/-!
# Bytes behind percent signs

In locators a byte can be written as a percent sign and two hexadecimal digits. A
percent sign without them stands for itself.
-/

namespace Telemetry.Text

/-- The value of a hexadecimal digit. -/
def hexValue (b : UInt8) : Option UInt8 :=
  if 0x30 ≤ b && b ≤ 0x39 then some (b - 0x30)
  else if 0x41 ≤ b && b ≤ 0x46 then some (b - 0x37)
  else if 0x61 ≤ b && b ≤ 0x66 then some (b - 0x57)
  else none

/-- Replaces every percent sign with two digits by its byte, and leaves all else. -/
def percentDecode : Bytes → Bytes
  | [] => []
  | 0x25 :: a :: b :: rest =>
    match hexValue a, hexValue b with
    | some x, some y => (x * 16 + y) :: percentDecode rest
    | _, _ => 0x25 :: percentDecode (a :: b :: rest)
  | b :: rest => b :: percentDecode rest

end Telemetry.Text
