import Telemetry.Json.Skim

/-!
# Reading records

A record is written as an object, its fields in any order, or as a list of the
values in the order of the fields. In an object a field that is given twice is a
defect, found before its second value is looked at; one that the record does not
know is skimmed; one that is missing is noticed at the closing brace, the first of
them in the order of the fields. A list may stop early only where no field that is
needed follows.

A reader of records is given the record that holds the values of fields not
mentioned, and for each field how to read its value into a record.
-/

namespace Telemetry.Json

/-- One field of a record of type `σ`. -/
structure Field (σ : Type) where
  name : String
  /-- whether a document must give it -/
  required : Bool
  /-- reads the value into the record -/
  load : σ → Reader σ

namespace Record

variable {σ : Type}

/-- Whether another key follows, the separating comma taken. -/
def moreKeys (isFirst : Bool) : Reader Bool := do
  match ← Reader.next with
  | none => Reader.fail .malformed
  | some 0x7d => pure false
  | some b =>
    if isFirst then
      if b = 0x22 then pure true else Reader.fail .malformed
    else if b = 0x2c then do
      Reader.skip
      match ← Reader.next with
      | some 0x22 => pure true
      | _ => Reader.fail .malformed
    else Reader.fail .malformed

def colon : Reader Unit := do
  match ← Reader.next with
  | some 0x3a => Reader.skip
  | _ => Reader.fail .malformed

/-- The fields of an object after its opening brace. `seen` are the names of those
read already. -/
def members (fields : List (Field σ)) : Nat → Bool → List String → σ → Reader σ
  | 0, _, _, _ => Reader.fail .malformed
  | fuel + 1, isFirst, seen, record => do
    if ← moreKeys isFirst then
      Reader.skip
      let key ← Reader.quotedText
      match fields.find? (fun field => field.name = key) with
      | some field =>
        if key ∈ seen then Reader.fail (.duplicate key)
        else
          colon
          let record ← field.load record
          members fields fuel false (key :: seen) record
      | none =>
        colon
        Reader.anything
        members fields fuel false seen record
    else
      match fields.find? (fun field => field.required && !seen.contains field.name) with
      | some field => Reader.fail (.missing field.name)
      | none => pure record

/-- The values of a list, one for each field in turn. -/
def positional (expected : String) : List (Field σ) → Nat → Bool → σ → Reader σ
  | [], _, _, record => pure record
  | field :: fields, index, isFirst, record => do
    if ← Reader.moreElements isFirst then
      let record ← field.load record
      positional expected fields (index + 1) false record
    else if (field :: fields).any (·.required) then
      Reader.fail (.tooShort (index + earlier (field :: fields)) expected)
    else pure record
where
  /-- How many fields that need no value come before the first that does. -/
  earlier (fields : List (Field σ)) : Nat := (fields.takeWhile fun f => !f.required).length

/-- Reads a record called `name` in messages, starting from `blank`. -/
def reader (name : String) (fields : List (Field σ)) (blank : σ) : Reader σ := do
  let expected := "struct " ++ name
  let b ← Reader.start
  if b = 0x7b then
    Reader.skip
    let record ← members fields (← read) true [] blank
    Reader.close 0x7d
    pure record
  else if b = 0x5b then
    Reader.skip
    let counted := expected ++ " with " ++ natText fields.length ++
      (if fields.length = 1 then " element" else " elements")
    let record ← positional counted fields 0 true blank
    Reader.close 0x5d
    pure record
  else Reader.wrongType expected b

end Record

end Telemetry.Json
