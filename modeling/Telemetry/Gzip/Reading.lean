import Telemetry.Gzip.Inflate

/-!
# Reading the first bytes of a stream

A reader that wants only some bytes of a stream has it decoded until there are `enough` of them, and
never learns what comes behind. `inflateUntil` tells how the stream ended if it ended before that,
and nothing else. The end is looked for symbol by symbol in a coded block; a stored block, which has
less than sixty-four KiB, is taken as a whole.
-/

namespace Telemetry.Inflate

/-- What is known of a stretch of a stream to one who stops at `enough` bytes. -/
def cut (enough : Nat) (p : Progress) : Option Progress :=
  if enough ≤ p.out.size then none else some p

/-- The symbols of a coded block up to its end mark, unless there are enough bytes before. -/
def codedUntil (enough : Nat) (literals distances : Code) :
    Nat → ByteArray → Bits → Option Progress
  | 0, out, _ => cut enough ⟨out, .error .corrupt⟩
  | fuel + 1, out, b =>
    if enough ≤ out.size then none
    else
      match symbol literals b with
      | .error e => some ⟨out, .error e⟩
      | .ok (s, b) =>
        if s < 256 then codedUntil enough literals distances fuel (out.push s.toUInt8) b
        else if s = 256 then some ⟨out, .ok b⟩
        else
          match codedLoop.reference distances s b with
          | .error e => some ⟨out, .error e⟩
          | .ok ((length, distance), b) =>
            codedUntil enough literals distances fuel (copyBack distance length out) b

/-- One block, behind the bit that says whether it is the last. -/
def blockUntil (enough fuel : Nat) (out : ByteArray) (b : Bits) : Option Progress :=
  match bits 2 b with
  | .error e => cut enough ⟨out, .error e⟩
  | .ok (form, b) =>
    if form = 0 then cut enough (storedBlock out b)
    else if form = 1 then codedUntil enough fixedLiterals fixedDistances fuel out b
    else if form = 2 then
      match givenCodes b with
      | .error e => cut enough ⟨out, .error e⟩
      | .ok ((literals, distances), b) => codedUntil enough literals distances fuel out b
    else cut enough ⟨out, .error .corrupt⟩

/-- Blocks up to the last one, unless there are enough bytes before. -/
def blocksUntil (enough symbols : Nat) : Nat → ByteArray → Bits → Option Progress
  | 0, out, _ => cut enough ⟨out, .error .corrupt⟩
  | fuel + 1, out, b =>
    match bits 1 b with
    | .error e => cut enough ⟨out, .error e⟩
    | .ok (isLast, b) =>
      match blockUntil enough symbols out b with
      | none => none
      | some p =>
        match p.stop with
        | .error e => some ⟨p.out, .error e⟩
        | .ok b => if isLast = 1 then some p else blocksUntil enough symbols fuel p.out b

/-- Decodes a stream until there are `enough` bytes, which is nothing that is told, or until it
ends. -/
def inflateUntil (enough : Nat) (input : Bytes) : Option Result :=
  let most := 8 * input.length + 1
  (blocksUntil enough most most ByteArray.empty ⟨0, 0, input⟩).map Progress.result

end Telemetry.Inflate
