import ReplicaRing.Bytes

/-!
The usual 32-bit cyclic redundancy check: reflected, polynomial `edb88320`, register started
from and finished by inverting all bits.
-/

namespace ReplicaRing

namespace Checksum

/-- One bit of the division: shift down, and subtract the polynomial if a one fell out. -/
def step (register : UInt32) : UInt32 :=
  if register &&& 1 = 1 then (register >>> 1) ^^^ 0xedb88320 else register >>> 1

/-- Feeds one byte, low bit first. -/
def feed (register : UInt32) (byte : UInt8) : UInt32 :=
  Nat.repeat step 8 (register ^^^ byte.toUInt32)

end Checksum

/-- The checksum of a byte string. -/
def crc32 (b : Bytes) : UInt32 := b.foldl Checksum.feed 0xffffffff ^^^ 0xffffffff

end ReplicaRing
