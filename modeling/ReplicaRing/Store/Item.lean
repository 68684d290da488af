import ReplicaRing.Key.Range

/-!
Entries as they leave a store: a key with its value, or with none where the key was deleted.
-/

namespace ReplicaRing

/-- A stored entry; without a value it is a tombstone. -/
structure StoreItem where
  key : Key
  value : Option Bytes
  deriving DecidableEq, Repr, Inhabited

namespace StoreItem

def isTombstone (i : StoreItem) : Bool := i.value.isNone

/-- Key and value lengths together. -/
def size (i : StoreItem) : Nat := i.key.length + (i.value.getD []).length

end StoreItem

end ReplicaRing
