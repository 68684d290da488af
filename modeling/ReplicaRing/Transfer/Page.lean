import ReplicaRing.Wire.Format
import ReplicaRing.Fault
import ReplicaRing.Transfer.BlockCompression

/-!
The payload of a data frame: a page of store items in binary form, compressed if the session
asks for it. A page without items has an empty payload.
-/

namespace ReplicaRing.Page

open BlockCompression (Compressor)

def encodeWith (c : Compressor) (items : List StoreItem) (compressed : Bool) : Bytes :=
  if items.isEmpty then []
  else
    let raw := Wire.put items
    if compressed then c.pack raw else raw

/-- The payload that the simplest compressor makes. -/
def encode (items : List StoreItem) (compressed : Bool) : Bytes :=
  encodeWith .literal items compressed

def decode (payload : Bytes) (compressed : Bool) : Except Fault (List StoreItem) := do
  if payload.isEmpty then return []
  let raw ←
    if compressed then
      (BlockCompression.decompress payload).mapError fun e => .compression e.message
    else pure payload
  (Wire.decode raw).mapError .serialization

end ReplicaRing.Page
