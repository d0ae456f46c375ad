import Telemetry.Bytes

/-!
# The checksum of a compressed file

A cyclic redundancy check over 32 bits, lowest bit first. `table` holds the effect of
one byte, so that a text is one fold.
-/

namespace Telemetry.Crc32

/-- One bit of division by the polynomial. -/
def bitStep (c : UInt32) : UInt32 :=
  if c &&& 1 = 1 then (0xedb88320 : UInt32) ^^^ (c >>> 1) else c >>> 1

def table : Array UInt32 :=
  ((List.range 256).map fun i => (List.range 8).foldl (fun c _ => bitStep c) i.toUInt32).toArray

def step (c : UInt32) (b : UInt8) : UInt32 :=
  table.getD ((c ^^^ b.toUInt32) &&& 0xff).toNat 0 ^^^ (c >>> 8)

def checksum (b : Bytes) : UInt32 := ~~~ (b.foldl step 0xffffffff)

end Telemetry.Crc32
