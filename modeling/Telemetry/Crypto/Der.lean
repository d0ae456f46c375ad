import Telemetry.Bytes

/-!
# Distinguished encoding

The few forms that key files are made of: integers, byte strings, bit strings, object
identifiers, null and sequences. Each value has one encoding, and others are refused:
lengths and integers are as short as they can be, and nothing may follow a value that
is to be the whole input.
-/

namespace Telemetry.Der

/-- Takes a value from the front of the input. -/
abbrev Reader := StateT Bytes Option

/-- The number that bytes are, most significant first. -/
def number (b : Bytes) : Nat := b.foldl (fun n x => n * 256 + x.toNat) 0

/-- A length of up to four bytes, in its shortest form. -/
def length : Reader Nat := fun input =>
  match input with
  | [] => none
  | b :: rest =>
    if b < 0x80 then some (b.toNat, rest)
    else
      let count := b.toNat - 0x80
      if count = 0 ∨ 4 < count ∨ rest.length < count then none
      else
        let n := number (rest.take count)
        if n < 0x80 ∨ n < 1 <<< (8 * (count - 1)) then none else some (n, rest.drop count)

/-- The content of a value with the given tag. -/
def content (tag : UInt8) : Reader Bytes := do
  match ← get with
  | b :: rest =>
    if b = tag then
      set rest
      let n ← length
      let input ← get
      if input.length < n then failure
      else do
        set (input.drop n)
        pure (input.take n)
    else failure
  | [] => failure

/-- Runs a reader on a whole input. -/
def whole {α : Type} (read : Reader α) (input : Bytes) : Option α :=
  match read input with
  | some (a, []) => some a
  | _ => none

/-- A value whose content a reader takes as a whole. -/
def within {α : Type} (tag : UInt8) (read : Reader α) : Reader α := do
  let inner ← content tag
  match whole read inner with
  | some a => pure a
  | none => failure

def sequence {α : Type} (read : Reader α) : Reader α := within 0x30 read

/-- An integer that is not negative. -/
def natural : Reader Nat := do
  match ← content 0x02 with
  | [] => failure
  | [b] => if b < 0x80 then pure b.toNat else failure
  | 0 :: b :: rest => if b < 0x80 then failure else pure (number (b :: rest))
  | b :: rest => if b < 0x80 then pure (number (b :: rest)) else failure

def byteString : Reader Bytes := content 0x04

/-- A bit string of whole bytes. -/
def bitString : Reader Bytes := do
  match ← content 0x03 with
  | 0 :: bytes => pure bytes
  | _ => failure

def null : Reader Unit := do
  match ← content 0x05 with
  | [] => pure ()
  | _ => failure

/-- Whether nothing is left. -/
def atEnd : Reader Bool := do pure (← get).isEmpty

/-- Any value with a context-specific tag. -/
def contextValue : Reader Unit := do
  match ← get with
  | b :: _ => if b &&& 0xc0 = 0x80 then do let _ ← content b else failure
  | [] => failure

/-- Values with context-specific tags up to the end. -/
def contextValues : Nat → Reader Unit
  | 0 => failure
  | fuel + 1 => do
    if ← atEnd then pure () else do
      contextValue
      contextValues fuel

end Telemetry.Der
