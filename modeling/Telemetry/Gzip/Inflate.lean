import Telemetry.Bytes

/-!
# Inflating compressed data

Compressed data is a stream of bits, lowest bit of each byte first, in blocks. A block
is stored as it is, or coded with prefix codes that are fixed or given in front of it.
A coded block is a sequence of literal bytes and of references to bytes already
produced.

`inflate` decodes as far as it can and says how it ended (`Ending`): complete, with the
bytes that follow; cut off; or corrupt. What was produced before the end is kept in each
case, because a reader that wants only the first bytes of a stream never comes to what
is wrong behind them.
-/

namespace Telemetry.Inflate

/-- Why decoding stopped short. -/
inductive Stop
  /-- the input ended -/
  | cutOff
  /-- the bits make no sense -/
  | corrupt
deriving DecidableEq

/-- Unread input: bits taken from a byte but not used yet, how many, and the bytes
behind them. -/
structure Bits where
  held : Nat
  count : Nat
  rest : Bytes

/-- The bytes that begin at the next whole byte. -/
def Bits.aligned (b : Bits) : Bytes := b.rest

/-- Takes bits, the first of them lowest. -/
def takeBits : Nat → Nat → Nat → Bits → Except Stop (Nat × Bits)
  | 0, _, value, b => .ok (value, b)
  | n + 1, weight, value, b =>
    if 0 < b.count then
      takeBits n (2 * weight) (value + b.held % 2 * weight) ⟨b.held / 2, b.count - 1, b.rest⟩
    else
      match b.rest with
      | [] => .error .cutOff
      | x :: rest =>
        takeBits n (2 * weight) (value + x.toNat % 2 * weight) ⟨x.toNat / 2, 7, rest⟩

def bits (n : Nat) (b : Bits) : Except Stop (Nat × Bits) := takeBits n 1 0 b

/-! ## Prefix codes -/

/-- A prefix code in canonical order: how many codes there are of each length, and the
symbols by length and then value. -/
structure Code where
  counts : Array Nat
  symbols : Array Nat

def longestCode : Nat := 15

/-- The code with the given length for each symbol, zero for symbols without one. -/
def Code.ofLengths (lengths : List Nat) : Code :=
  { counts := ((List.range (longestCode + 1)).map fun n => lengths.count n).toArray
    symbols := ((List.range longestCode).flatMap fun i =>
      (lengths.zipIdx.filter fun p => p.1 = i + 1).map (·.2)).toArray }

/-- How much of the space of longest codes is used. -/
def Code.used (c : Code) : Nat :=
  (List.range longestCode).foldl (fun used i => used + c.counts.getD (i + 1) 0 <<< (14 - i)) 0

/-- A code may be decoded if its codes use the whole space; one of a single symbol,
or of none, may leave space unless it is itself the code of lengths. -/
def Code.isSound (c : Code) (ofLengths : Bool) : Bool :=
  c.used = 1 <<< longestCode || (c.symbols.size ≤ 1 && !ofLengths)

/-- Reads one symbol. `code` is what was read so far, `first` the first code of the
current length and `index` the position of its symbol. -/
def symbolLoop (c : Code) : Nat → Nat → Nat → Nat → Nat → Bits → Except Stop (Nat × Bits)
  | 0, _, _, _, _, _ => .error .corrupt
  | fuel + 1, length, code, first, index, b => do
    let (bit, b) ← bits 1 b
    let code := code + bit
    let count := c.counts.getD length 0
    if code < first + count then
      pure (c.symbols.getD (index + (code - first)) 0, b)
    else
      symbolLoop c fuel (length + 1) (2 * code) (2 * (first + count)) (index + count) b

def symbol (c : Code) (b : Bits) : Except Stop (Nat × Bits) := symbolLoop c longestCode 1 0 0 0 b

/-! ## Tables of the format -/

def lengthBase : Array Nat :=
  #[3, 4, 5, 6, 7, 8, 9, 10, 11, 13, 15, 17, 19, 23, 27, 31, 35, 43, 51, 59, 67, 83, 99, 115,
    131, 163, 195, 227, 258]

def lengthExtra : Array Nat :=
  #[0, 0, 0, 0, 0, 0, 0, 0, 1, 1, 1, 1, 2, 2, 2, 2, 3, 3, 3, 3, 4, 4, 4, 4, 5, 5, 5, 5, 0]

def distanceBase : Array Nat :=
  #[1, 2, 3, 4, 5, 7, 9, 13, 17, 25, 33, 49, 65, 97, 129, 193, 257, 385, 513, 769, 1025, 1537,
    2049, 3073, 4097, 6145, 8193, 12289, 16385, 24577]

def distanceExtra : Array Nat :=
  #[0, 0, 0, 0, 1, 1, 2, 2, 3, 3, 4, 4, 5, 5, 6, 6, 7, 7, 8, 8, 9, 9, 10, 10, 11, 11, 12, 12, 13,
    13]

/-- The order in which a block gives the lengths of the code of lengths. -/
def lengthOrder : List Nat := [16, 17, 18, 0, 8, 7, 9, 6, 10, 5, 11, 4, 12, 3, 13, 2, 14, 1, 15]

def fixedLiterals : Code :=
  Code.ofLengths (List.replicate 144 8 ++ List.replicate 112 9 ++ List.replicate 24 7 ++
    List.replicate 8 8)

def fixedDistances : Code := Code.ofLengths (List.replicate 32 5)

/-! ## Blocks -/

/-- The byte `distance` back. What lies before the first byte reads as zero. -/
def byteBack (distance : Nat) (out : ByteArray) : UInt8 :=
  if h : 0 < distance ∧ distance ≤ out.size then
    have : out.size - distance < out.size := by omega
    out[out.size - distance]
  else 0

/-- Repeats bytes from `distance` back. -/
def copyBack (distance : Nat) : Nat → ByteArray → ByteArray
  | 0, out => out
  | n + 1, out =>
    copyBack distance n (out.push (byteBack distance out))

/-- How a block or a stream ended, with what was produced. -/
structure Progress where
  out : ByteArray
  stop : Except Stop Bits

/-- The symbols of a coded block up to its end mark. -/
def codedLoop (literals distances : Code) : Nat → ByteArray → Bits → Progress
  | 0, out, _ => ⟨out, .error .corrupt⟩
  | fuel + 1, out, b =>
    match symbol literals b with
    | .error e => ⟨out, .error e⟩
    | .ok (s, b) =>
      if s < 256 then codedLoop literals distances fuel (out.push s.toUInt8) b
      else if s = 256 then ⟨out, .ok b⟩
      else
        match reference distances s b with
        | .error e => ⟨out, .error e⟩
        | .ok ((length, distance), b) =>
          codedLoop literals distances fuel (copyBack distance length out) b
where
  /-- Length and distance of the reference that symbol `s` begins. -/
  reference (distances : Code) (s : Nat) (b : Bits) : Except Stop ((Nat × Nat) × Bits) := do
    match lengthBase[s - 257]?, lengthExtra[s - 257]? with
    | some base, some extra =>
      let (more, b) ← bits extra b
      let (d, b) ← symbol distances b
      match distanceBase[d]?, distanceExtra[d]? with
      | some far, some extra =>
        let (beyond, b) ← bits extra b
        pure ((base + more, far + beyond), b)
      | _, _ => throw .corrupt
    | _, _ => throw .corrupt

/-- A stored block: its length twice, once inverted, and its bytes. -/
def storedBlock (out : ByteArray) (b : Bits) : Progress :=
  match b.aligned with
  | l0 :: l1 :: n0 :: n1 :: rest =>
    let n := l0.toNat + 256 * l1.toNat
    if n + (n0.toNat + 256 * n1.toNat) ≠ 65535 then ⟨out, .error .corrupt⟩
    else
      let (out, left, rest) := copy n out rest
      if left = 0 then ⟨out, .ok ⟨0, 0, rest⟩⟩ else ⟨out, .error .cutOff⟩
  | _ => ⟨out, .error .cutOff⟩
where
  /-- Copies up to `n` bytes; how many are missing, and what follows. -/
  copy : Nat → ByteArray → Bytes → ByteArray × Nat × Bytes
    | 0, out, rest => (out, 0, rest)
    | n + 1, out, [] => (out, n + 1, [])
    | n + 1, out, x :: rest => copy n (out.push x) rest

/-- The lengths of the codes of a block, `soFar` in reverse. Three symbols repeat a
length: the one before, or zero. -/
def lengthsLoop (code : Code) (total : Nat) : Nat → List Nat → Bits → Except Stop (List Nat × Bits)
  | 0, _, _ => .error .corrupt
  | fuel + 1, soFar, b =>
    if soFar.length = total then .ok (soFar.reverse, b)
    else if total < soFar.length then .error .corrupt
    else do
      let (s, b) ← symbol code b
      if s < 16 then lengthsLoop code total fuel (s :: soFar) b
      else if s = 16 then
        match soFar with
        | [] => throw .corrupt
        | last :: _ => do
          let (n, b) ← bits 2 b
          lengthsLoop code total fuel (List.replicate (3 + n) last ++ soFar) b
      else do
        let (n, b) ← bits (if s = 17 then 3 else 7) b
        lengthsLoop code total fuel
          (List.replicate ((if s = 17 then 3 else 11) + n) 0 ++ soFar) b

/-- Three bits for each of the first lengths of the code of lengths. -/
def orderedLengths : List Nat → Bits → Except Stop (List (Nat × Nat) × Bits)
  | [], b => .ok ([], b)
  | s :: rest, b => do
    let (n, b) ← bits 3 b
    let (more, b) ← orderedLengths rest b
    pure ((s, n) :: more, b)

/-- The two codes in front of a block. -/
def givenCodes (b : Bits) : Except Stop ((Code × Code) × Bits) := do
  let (literalCount, b) ← bits 5 b
  let (distanceCount, b) ← bits 5 b
  let (orderCount, b) ← bits 4 b
  let literalCount := literalCount + 257
  let distanceCount := distanceCount + 1
  if 286 < literalCount ∨ 30 < distanceCount then throw .corrupt
  let (given, b) ← orderedLengths (lengthOrder.take (orderCount + 4)) b
  let lengthCode := Code.ofLengths ((List.range 19).map fun s => (given.lookup s).getD 0)
  if !lengthCode.isSound true then throw .corrupt
  let total := literalCount + distanceCount
  let (lengths, b) ← lengthsLoop lengthCode total (total + 1) [] b
  let literals := Code.ofLengths (lengths.take literalCount)
  let distances := Code.ofLengths (lengths.drop literalCount)
  if !(literals.isSound false && distances.isSound false) then throw .corrupt
  pure ((literals, distances), b)

/-- One block, behind the bit that says whether it is the last. -/
def block (fuel : Nat) (out : ByteArray) (b : Bits) : Progress :=
  match bits 2 b with
  | .error e => ⟨out, .error e⟩
  | .ok (form, b) =>
    if form = 0 then storedBlock out b
    else if form = 1 then codedLoop fixedLiterals fixedDistances fuel out b
    else if form = 2 then
      match givenCodes b with
      | .error e => ⟨out, .error e⟩
      | .ok ((literals, distances), b) => codedLoop literals distances fuel out b
    else ⟨out, .error .corrupt⟩

/-- Blocks up to the last one. -/
def blocks (symbols : Nat) : Nat → ByteArray → Bits → Progress
  | 0, out, _ => ⟨out, .error .corrupt⟩
  | fuel + 1, out, b =>
    match bits 1 b with
    | .error e => ⟨out, .error e⟩
    | .ok (isLast, b) =>
      let p := block symbols out b
      match p.stop with
      | .error e => ⟨p.out, .error e⟩
      | .ok b => if isLast = 1 then p else blocks symbols fuel p.out b

/-- How a stream ended. -/
inductive Ending
  | complete (rest : Bytes)
  | cutOff
  | corrupt
deriving DecidableEq

structure Result where
  output : ByteArray
  ending : Ending

/-- The result of all blocks of a stream. -/
def Progress.result (p : Progress) : Result :=
  { output := p.out
    ending :=
      match p.stop with
      | .ok b => .complete b.aligned
      | .error .cutOff => .cutOff
      | .error .corrupt => .corrupt }

/-- Decodes a stream. Every block and every symbol takes at least one bit, so there
are never more of them than bits. -/
def inflate (input : Bytes) : Result :=
  let most := 8 * input.length + 1
  (blocks most most ByteArray.empty ⟨0, 0, input⟩).result

end Telemetry.Inflate
