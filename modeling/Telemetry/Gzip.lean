import Telemetry.Fault
import Telemetry.Gzip.Crc32
import Telemetry.Gzip.Deflate
import Telemetry.Gzip.Reading

/-!
# Compressed bodies

A compressed body is one member: a header, deflated data, and a trailer with checksum
and length. What follows the first member is ignored.

`decompress` bounds the result. It asks for one byte more than the bound and looks no
further, so a body that turns out too long is refused as too long even if something is
wrong behind the byte that decided it. Data is decoded a window at a time, and no window
behind the one of that byte is decoded: corrupt data is noticed when the first byte of
its window is asked for, a missing end when all bytes before it are used up, a wrong
trailer last of all.
-/

namespace Telemetry.Gzip

/-- The name of the encoding in headers. -/
def encoding : String := "gzip"

/-- How many bytes are decoded at a time. -/
def windowSize : Nat := 32768

/-- The bound where a caller gives none. -/
def defaultLimit : Nat := 64 * 1024 * 1024

def littleEndian (b : Bytes) : Nat := b.foldr (fun x n => x.toNat + 256 * n) 0

/-- What follows the zero byte that ends a text. -/
def afterZero : Bytes → Option Bytes
  | [] => none
  | b :: rest => if b = 0 then some rest else afterZero rest

/-- A byte of flags and the fields that it announces. -/
def optionalFields (flags : UInt8) (whole body : Bytes) : Option Bytes := do
  let body ←
    if flags &&& 4 ≠ 0 then
      match body with
      | l0 :: l1 :: rest =>
        let n := l0.toNat + 256 * l1.toNat
        if rest.length < n then none else some (rest.drop n)
      | _ => none
    else some body
  let body ← if flags &&& 8 ≠ 0 then afterZero body else some body
  let body ← if flags &&& 16 ≠ 0 then afterZero body else some body
  if flags &&& 2 ≠ 0 then
    match body with
    | c0 :: c1 :: rest =>
      let header := whole.take (whole.length - body.length)
      if c0.toNat + 256 * c1.toNat = (Crc32.checksum header).toNat % 65536 then some rest else none
    | _ => none
  else some body

/-- The compressed data behind a header. -/
def afterHeader? (data : Bytes) : Option Bytes :=
  match data with
  | 0x1f :: 0x8b :: 8 :: flags :: _ :: _ :: _ :: _ :: _ :: _ :: body =>
    if flags &&& 0xe0 ≠ 0 then none else optionalFields flags data body
  | _ => none

/-- Whether a trailer fits what was produced. -/
def trailerFits (output rest : Bytes) : Bool :=
  8 ≤ rest.length && littleEndian (rest.take 4) = (Crc32.checksum output).toNat &&
    littleEndian ((rest.drop 4).take 4) = output.length % UInt32.size

/-- How many bytes are decoded at most for one who asks for more than `limit`: whole
windows. -/
def decodedFor (limit : Nat) : Nat := (limit / windowSize + 1) * windowSize

/-- What was decoded, if its stream is complete. -/
def whole? (r : Inflate.Result) : Option Bytes :=
  match r.ending with
  | .complete rest =>
    let output := r.output.toList
    if trailerFits output rest then some output else none
  | _ => none

/-- The body, if it is at most `limit` bytes long. -/
def decompress (limit : Nat) (data : Bytes) : Except Fault Bytes :=
  match afterHeader? data with
  | none => .error (.validation .badGzip)
  | some body =>
    match Inflate.inflateUntil (decodedFor limit) body with
    | none => .error (.validation (.gzipTooLong limit))
    | some r =>
      if r.ending = .corrupt then .error (.validation .badGzip)
      else if limit < r.output.size then .error (.validation (.gzipTooLong limit))
      else
        match whole? r with
        | some output => .ok output
        | none => .error (.validation .badGzip)

/-- The whole body, without a bound. -/
def gunzip (data : Bytes) : Option Bytes :=
  (afterHeader? data).bind fun body => whole? (Inflate.inflate body)

def fourBytes (n : Nat) : Bytes :=
  (List.range 4).map fun i => (n >>> (8 * i) % 256).toUInt8

/-- A body as one member. -/
def compress (data : Bytes) : Bytes :=
  [0x1f, 0x8b, 8, 0, 0, 0, 0, 0, 0, 0xff] ++ Deflate.deflate data ++
    fourBytes (Crc32.checksum data).toNat ++ fourBytes data.length

end Telemetry.Gzip
