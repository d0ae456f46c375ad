import Telemetry.Bytes

/-!
# Deflating data

One block with the fixed prefix codes. What stands at a place is a literal byte, or a reference to
an earlier place where the same bytes stand. Such a place is looked for in a table that has, for
the hash of three bytes, where they were last seen at the beginning of a token; whatever the table
proposes is compared with the data before it is referred to.
-/

namespace Telemetry.Deflate

/-- What a coded block consists of. -/
inductive Token
  | literal (b : UInt8)
  /-- what stands `distance` bytes back, `length` bytes of it; lengths are from 3 to 258 and
  distances from 1 to 32768 -/
  | again (length distance : Nat)
deriving DecidableEq

def longestMatch : Nat := 258

def farthestMatch : Nat := 32768

/-- How many bytes a token stands for. -/
def Token.size : Token → Nat
  | .literal _ => 1
  | .again length _ => length

/-- How many bytes from a place on are the same as those from another place on, `most` at most. -/
def common (data : Array UInt8) (i j : Nat) : Nat → Nat
  | 0 => 0
  | most + 1 =>
    if i < data.size ∧ data[i]? = data[j]? then common data (i + 1) (j + 1) most + 1 else 0

/-- The token at a place, where the same bytes may stand at the place `j`. -/
def tokenAt (data : Array UInt8) (i j : Nat) : Token :=
  let length := common data i j longestMatch
  if 3 ≤ length ∧ j < i ∧ i - j ≤ farthestMatch then .again length (i - j)
  else .literal (data.getD i 0)

def tableSize : Nat := 1024

/-- The hash of the three bytes at a place. -/
def hashAt (data : Array UInt8) (i : Nat) : Nat :=
  let byte (k : Nat) : Nat := (data.getD (i + k) 0).toNat
  (byte 0 + 5 * byte 1 + 25 * byte 2) % tableSize

/-- The tokens from a place on. `places` has the place of each hash, or one behind the data, and
`soFar` the tokens before in reverse. There are never more tokens than bytes. -/
def search (data : Array UInt8) : Nat → Nat → Array Nat → List Token → List Token
  | 0, _, _, soFar => soFar.reverse
  | left + 1, i, places, soFar =>
    if i < data.size then
      let hash := hashAt data i
      let token := tokenAt data i (places.getD hash data.size)
      search data left (i + token.size) (places.setIfInBounds hash i) (token :: soFar)
    else soFar.reverse

def tokens (data : Bytes) : List Token :=
  search data.toArray data.length 0 (Array.replicate tableSize data.length) []

-- a reference may run on into what it makes itself
example : tokens (Bytes.ofText "ab ab ab") =
    [.literal 97, .literal 98, .literal 32, .again 5 3] := by decide +kernel

/-- Bits waiting to fill a byte, and the bytes so far in reverse. -/
structure Writer where
  held : Nat
  count : Nat
  soFar : Bytes

def flush : Nat → Writer → Writer
  | 0, w => w
  | fuel + 1, w =>
    if 8 ≤ w.count then flush fuel ⟨w.held / 256, w.count - 8, w.held.toUInt8 :: w.soFar⟩ else w

/-- Writes `n` bits of `value`, the lowest first. -/
def Writer.put (w : Writer) (n value : Nat) : Writer :=
  flush 4 ⟨w.held + value <<< w.count, w.count + n, w.soFar⟩

/-- The `n` lowest bits in reverse order. -/
def reversed : Nat → Nat → Nat
  | 0, _ => 0
  | n + 1, value => (value % 2) <<< n + reversed n (value / 2)

/-- Writes a code, whose highest bit comes first. -/
def Writer.putCode (w : Writer) (n code : Nat) : Writer := w.put n (reversed n code)

/-- Writes a symbol in the fixed code of literals and lengths. -/
def Writer.putSymbol (w : Writer) (s : Nat) : Writer :=
  if s < 144 then w.putCode 8 (0x30 + s)
  else if s < 256 then w.putCode 9 (0x190 + (s - 144))
  else if s < 280 then w.putCode 7 (s - 256)
  else w.putCode 8 (0xc0 + (s - 280))

/-- The symbol of a length, with how many extra bits follow and their value. -/
def lengthSymbol (n : Nat) : Nat × Nat × Nat :=
  if n = 258 then (285, 0, 0)
  else if n < 11 then (254 + n, 0, 0)
  else
    let extra := Nat.log2 (n - 3) - 2
    (261 + 4 * extra + ((n - 3) >>> extra - 4), extra, (n - 3) % (1 <<< extra))

/-- The symbol of a distance, with how many extra bits follow and their value. -/
def distanceSymbol (n : Nat) : Nat × Nat × Nat :=
  if n < 5 then (n - 1, 0, 0)
  else
    let extra := Nat.log2 (n - 1) - 1
    (2 * extra + (n - 1) >>> extra, extra, (n - 1) % (1 <<< extra))

def Writer.putToken (w : Writer) : Token → Writer
  | .literal b => w.putSymbol b.toNat
  | .again length distance =>
    let (s, extra, value) := lengthSymbol length
    let (d, extra', value') := distanceSymbol distance
    (((w.putSymbol s).put extra value).putCode 5 d).put extra' value'

/-- The compressed data. -/
def deflate (data : Bytes) : Bytes :=
  let start := (Writer.put ⟨0, 0, []⟩ 1 1).put 2 1
  let w := ((tokens data).foldl Writer.putToken start).putSymbol 256
  (if 0 < w.count then w.held.toUInt8 :: w.soFar else w.soFar).reverse

end Telemetry.Deflate
