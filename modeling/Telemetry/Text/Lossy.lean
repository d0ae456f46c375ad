import Telemetry.Bytes

/-!
# Reading bytes that may be no text

Bytes that are not UTF-8 are read as far as they are: each longest piece that could
have begun a character, and each byte that could not, becomes one replacement
character.
-/

namespace Telemetry.Text

def replacement : Char := '\uFFFD'

/-- How many bytes a character has that begins with a byte, and where the second of
them lies. -/
def sequenceOf (first : UInt8) : Option (Nat × UInt8 × UInt8) :=
  if first < 0x80 then some (1, 0, 0)
  else if first < 0xc2 then none
  else if first < 0xe0 then some (2, 0x80, 0xbf)
  else if first = 0xe0 then some (3, 0xa0, 0xbf)
  else if first = 0xed then some (3, 0x80, 0x9f)
  else if first < 0xf0 then some (3, 0x80, 0xbf)
  else if first = 0xf0 then some (4, 0x90, 0xbf)
  else if first < 0xf4 then some (4, 0x80, 0xbf)
  else if first = 0xf4 then some (4, 0x80, 0x8f)
  else none

/-- How many of the bytes behind the first one belong to its character: the second has
bounds of its own, the others are plain continuations. -/
def continued (low high : UInt8) : Nat → Bytes → Nat
  | room + 1, b :: rest =>
    if low ≤ b && b ≤ high then continued 0x80 0xbf room rest + 1 else 0
  | _, _ => 0

/-- The first character of some bytes, and how many of the bytes behind the first it
takes. -/
def firstLossy (first : UInt8) (rest : Bytes) : Char × Nat :=
  match sequenceOf first with
  | none => (replacement, 0)
  | some (size, low, high) =>
    let more := continued low high (size - 1) rest
    let piece := first :: rest.take more
    if more + 1 = size then
      (((Bytes.toText? piece).bind fun s => s.toList.head?).getD replacement, more)
    else (replacement, more)

def lossyChars : Bytes → List Char
  | [] => []
  | first :: rest =>
    let (c, more) := firstLossy first rest
    c :: lossyChars (rest.drop more)
termination_by b => b.length
decreasing_by simp only [List.length_drop, List.length_cons]; omega

/-- The text of some bytes. -/
def lossy (b : Bytes) : String := String.ofList (lossyChars b)

end Telemetry.Text
