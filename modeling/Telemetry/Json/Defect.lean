import Telemetry.Decimal.Text
import Telemetry.Text.Quoted

/-!
# What can be wrong with a JSON document

A document is read from left to right into a typed value, and the first thing that
does not fit is its defect. Malformed text is one defect without detail. The others
say what stood in the document (`Found`) and what the reader expected there.
-/

namespace Telemetry.Json

/-- What stood in a document where something else was expected. -/
inductive Found
  | null
  | boolean (b : Bool)
  | integer (i : Int)
  | real (x : Binary64)
  | text (s : String)
  | list
  | object
deriving DecidableEq

def Found.message : Found → String
  | .null => "null"
  | .boolean b => "boolean `" ++ (if b then "true" else "false") ++ "`"
  | .integer i => "integer `" ++ intText i ++ "`"
  | .real x => "floating point `" ++ x.document ++ "`"
  | .text s => "string " ++ Text.quoted s
  | .list => "sequence"
  | .object => "map"

/-- Alternatives, as a message lists them. -/
def alternatives : List String → String
  | [] => ""
  | [a] => "`" ++ a ++ "`"
  | [a, b] => "`" ++ a ++ "` or `" ++ b ++ "`"
  | many => "one of " ++ ", ".intercalate (many.map fun a => "`" ++ a ++ "`")

inductive Defect
  /-- not a JSON document, or a number no double is near to -/
  | malformed
  /-- a value of another type -/
  | mismatch (found : Found) (expected : String)
  /-- a value of the right type but outside its range -/
  | outOfRange (found : Found) (expected : String)
  /-- a list that ends before all fields of a record are there -/
  | tooShort (length : Nat) (expected : String)
  /-- a record without a field it needs -/
  | missing (field : String)
  /-- a field given twice -/
  | duplicate (field : String)
  /-- a word that is none of those admitted -/
  | unknownWord (word : String) (known : List String)
  /-- a text that is not a network in slash notation -/
  | notNetwork
deriving DecidableEq

def Defect.message : Defect → String
  | .malformed => "syntax"
  | .mismatch found expected => "invalid type: " ++ found.message ++ ", expected " ++ expected
  | .outOfRange found expected => "invalid value: " ++ found.message ++ ", expected " ++ expected
  | .tooShort length expected => "invalid length " ++ natText length ++ ", expected " ++ expected
  | .missing field => "missing field `" ++ field ++ "`"
  | .duplicate field => "duplicate field `" ++ field ++ "`"
  | .unknownWord word known => "unknown variant `" ++ word ++ "`, expected " ++ alternatives known
  | .notNetwork => "invalid IP address syntax"

end Telemetry.Json
