import Telemetry.Text.Unshown

/-!
# Texts quoted for a reader of messages

A quoted text stands between double quotes. The quote, the backslash and the usual
blanks have short escapes, every other character that cannot be seen is written by
its number, and all else stands for itself.
-/

namespace Telemetry.Text

/-- The hexadecimal digits of a number, lower case, most significant first. -/
def hexChars (n : Nat) : List Char := Nat.toDigits 16 n

def quotedChar (c : Char) : List Char :=
  match c with
  | '"' => ['\\', '"']
  | '\\' => ['\\', '\\']
  | '\n' => ['\\', 'n']
  | '\r' => ['\\', 'r']
  | '\t' => ['\\', 't']
  | '\x00' => ['\\', '0']
  | c => if isUnshown c then '\\' :: 'u' :: '\x7b' :: (hexChars c.toNat ++ ['\x7d']) else [c]

def quoted (s : String) : String :=
  String.ofList ('"' :: (s.toList.flatMap quotedChar ++ ['"']))

end Telemetry.Text
