import Telemetry.Text.Quoted

/-!
# Writing JSON

Documents are written without blanks. A text escapes the quote, the backslash and
control characters, and nothing else.
-/

namespace Telemetry.Json

/-- A character inside a JSON text. -/
def quoteChar (c : Char) : List Char :=
  match c with
  | '"' => ['\\', '"']
  | '\\' => ['\\', '\\']
  | '\x08' => ['\\', 'b']
  | '\x0c' => ['\\', 'f']
  | '\n' => ['\\', 'n']
  | '\r' => ['\\', 'r']
  | '\t' => ['\\', 't']
  | c =>
    if c.toNat < 0x20 then
      '\\' :: 'u' :: '0' :: '0' :: Nat.digitChar (c.toNat / 16) :: [Nat.digitChar (c.toNat % 16)]
    else [c]

def quote (s : String) : String :=
  String.ofList ('"' :: (s.toList.flatMap quoteChar ++ ['"']))

/-- An object of the given keys and written values. -/
def object (members : List (String × String)) : String :=
  "\x7b" ++ ",".intercalate (members.map fun (key, value) => quote key ++ ":" ++ value) ++ "\x7d"

/-- A list of the given written values. -/
def array (items : List String) : String := "[" ++ ",".intercalate items ++ "]"

/-- A written value, or `null`. -/
def orNull : Option String → String
  | some s => s
  | none => "null"

def bool (b : Bool) : String := if b then "true" else "false"

end Telemetry.Json
