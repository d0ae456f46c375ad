import Telemetry.Bytes

/-!
# Keys of advisory locks

A transaction locks a name by two numbers of thirty-two bits: the halves of the 64-bit
FNV-1a hash of the name. Two names may share a key.
-/

namespace Telemetry.Postgres

/-- The FNV-1a hash in sixty-four bits. -/
def fnv1a (data : Bytes) : UInt64 :=
  data.foldl (fun hash b => (hash ^^^ b.toUInt64) * 0x100000001b3) 0xcbf29ce484222325

/-- The key of a lock. -/
structure LockKey where
  high : Int32
  low : Int32
deriving DecidableEq, Repr

/-- The key under which a name is locked. -/
def lockKey (name : String) : LockKey :=
  let hash := fnv1a (Bytes.ofText name)
  ⟨(hash >>> 32).toUInt32.toInt32, hash.toUInt32.toInt32⟩

end Telemetry.Postgres
