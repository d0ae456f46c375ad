import Telemetry.Decimal.Text

/-!
# Internet addresses

An address has four or sixteen bytes. The longer form is read from up to eight
hexadecimal groups, of which one run may be left out as `::` and the last two may be
given as an address of four bytes; it is written with the first of its longest runs of
zero groups left out.

Whether a decimal part may begin with zeros is up to the caller: addresses of peers may
not, those of networks may.
-/

namespace Telemetry

inductive IpAddress
  | v4 (bits : BitVec 32)
  | v6 (bits : BitVec 128)
deriving DecidableEq

namespace IpAddress

/-- Reads from the front of a text. -/
abbrev Reader := StateT (List Char) Option

def digit? (radix : Nat) (c : Char) : Option Nat :=
  let d :=
    if '0' ≤ c ∧ c ≤ '9' then c.toNat - '0'.toNat
    else if 'a' ≤ c ∧ c ≤ 'f' then c.toNat - 'a'.toNat + 10
    else if 'A' ≤ c ∧ c ≤ 'F' then c.toNat - 'A'.toNat + 10
    else 16
  if d < radix then some d else none

/-- All digits at the front: a number below `bound` in at most `most` digits. -/
def number (radix most bound : Nat) (leadingZeros : Bool) : Reader Nat := fun input =>
  let digits := input.takeWhile fun c => (digit? radix c).isSome
  let value := digits.foldl (fun n c => n * radix + (digit? radix c).getD 0) 0
  let padded := !leadingZeros && 1 < digits.length && digits.head? = some '0'
  if digits.isEmpty || most < digits.length || bound ≤ value || padded then none
  else some (value, input.drop digits.length)

def char (c : Char) : Reader Unit := fun input =>
  match input with
  | d :: rest => if c = d then some ((), rest) else none
  | [] => none

/-- The value of a reader, or nothing taken. -/
def optional {α : Type} (read : Reader α) : Reader (Option α) := fun input =>
  match read input with
  | some (a, rest) => some (some a, rest)
  | none => some (none, input)

/-- Four decimal parts. -/
def dotted (leadingZeros : Bool) : Reader (BitVec 32) := do
  let a ← number 10 3 256 leadingZeros
  char '.'
  let b ← number 10 3 256 leadingZeros
  char '.'
  let c ← number 10 3 256 leadingZeros
  char '.'
  let d ← number 10 3 256 leadingZeros
  pure (BitVec.ofNat 32 (((a * 256 + b) * 256 + c) * 256 + d))

/-- A value behind the separator that every group but the first has in front. -/
def separated {α : Type} (isFirst : Bool) (read : Reader α) : Reader α := do
  if !isFirst then char ':'
  read

/-- Up to `room` groups; whether the last two were an address of four bytes. -/
def groups (leadingZeros : Bool) : Nat → Bool → Reader (List Nat × Bool)
  | 0, _ => pure ([], false)
  | room + 1, isFirst => do
    let short ←
      if 0 < room then optional (separated isFirst (dotted leadingZeros)) else pure none
    match short with
    | some four => pure ([four.toNat / 65536, four.toNat % 65536], true)
    | none =>
      match ← optional (separated isFirst (number 16 4 65536 true)) with
      | none => pure ([], false)
      | some g => do
        let (more, isShort) ← groups leadingZeros room false
        pure (g :: more, isShort)

def ofGroups (gs : List Nat) : BitVec 128 :=
  BitVec.ofNat 128 (gs.foldl (fun n g => n * 65536 + g) 0)

def grouped (leadingZeros : Bool) : Reader (BitVec 128) := do
  let (head, isShort) ← groups leadingZeros 8 true
  if head.length = 8 then pure (ofGroups head)
  else if isShort then failure
  else do
    char ':'
    char ':'
    let (tail, _) ← groups leadingZeros (7 - head.length) true
    pure (ofGroups (head ++ List.replicate (8 - head.length - tail.length) 0 ++ tail))

def either {α : Type} (first second : Reader α) : Reader α := fun input =>
  match first input with
  | some r => some r
  | none => second input

def address (leadingZeros : Bool) : Reader IpAddress :=
  either (do pure (.v4 (← dotted leadingZeros))) (do pure (.v6 (← grouped leadingZeros)))

/-- The value of a whole text. -/
def whole {α : Type} (read : Reader α) (s : String) : Option α :=
  match read s.toList with
  | some (a, []) => some a
  | _ => none

/-- Reads the address of a peer. -/
def ofText? (s : String) : Option IpAddress := whole (address false) s

/-! ## Writing -/

def byteOf (n i : Nat) : Nat := n >>> (8 * (3 - i)) % 256

def dottedText (bits : BitVec 32) : String :=
  ".".intercalate ((List.range 4).map fun i => natText (byteOf bits.toNat i))

def groupsOf (bits : BitVec 128) : List Nat :=
  (List.range 8).map fun i => bits.toNat >>> (16 * (7 - i)) % 65536

def groupText (g : Nat) : String := String.ofList (Nat.toDigits 16 g)

/-- Start and length of the first longest run of zeros, `best` so far. -/
def longestZeros : Nat → Nat → Nat × Nat → List Nat → Nat × Nat
  | _, _, best, [] => best
  | index, run, best, g :: rest =>
    let run := if g = 0 then run + 1 else 0
    let best := if best.2 < run then (index + 1 - run, run) else best
    longestZeros (index + 1) run best rest

def joinGroups (gs : List Nat) : String := ":".intercalate (gs.map groupText)

def groupedText (bits : BitVec 128) : String :=
  let n := bits.toNat
  if n >>> 32 = 0xffff then "::ffff:" ++ dottedText (BitVec.ofNat 32 n)
  else
    let gs := groupsOf bits
    let (start, length) := longestZeros 0 0 (0, 0) gs
    if 1 < length then joinGroups (gs.take start) ++ "::" ++ joinGroups (gs.drop (start + length))
    else joinGroups gs

def text : IpAddress → String
  | .v4 bits => dottedText bits
  | .v6 bits => groupedText bits

end IpAddress

end Telemetry
