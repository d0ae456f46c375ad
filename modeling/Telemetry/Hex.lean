import Telemetry.Bytes

/-!
# Hexadecimal digits

Bytes are written as two lower-case digits each. Reading takes either case, an even
number of digits and nothing else.
-/

namespace Telemetry.Hex

def digitOf (c : Char) : Option Nat :=
  if '0' ≤ c ∧ c ≤ '9' then some (c.toNat - '0'.toNat)
  else if 'a' ≤ c ∧ c ≤ 'f' then some (c.toNat - 'a'.toNat + 10)
  else if 'A' ≤ c ∧ c ≤ 'F' then some (c.toNat - 'A'.toNat + 10)
  else none

def encodeChars (b : Bytes) : List Char :=
  b.flatMap fun x => [Nat.digitChar (x.toNat / 16), Nat.digitChar (x.toNat % 16)]

def encode (b : Bytes) : String := String.ofList (encodeChars b)

def decodeChars : List Char → Option Bytes
  | [] => some []
  | [_] => none
  | a :: b :: rest =>
    match digitOf a, digitOf b, decodeChars rest with
    | some high, some low, some bytes => some ((high * 16 + low).toUInt8 :: bytes)
    | _, _, _ => none

def decode (s : String) : Option Bytes := decodeChars s.toList

end Telemetry.Hex
