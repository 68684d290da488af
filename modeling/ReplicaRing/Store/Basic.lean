import ReplicaRing.Store.Item
import ReplicaRing.Operation
import ReplicaRing.Fault
import ReplicaRing.Sorted.Map

/-!
The ordered key-value store of a node. Deleting a key leaves a tombstone, so that a copy of the
store can carry deletions along; to readers of live values a tombstone is as good as nothing.
Calls of a store can be made to fail, by kind.
-/

namespace ReplicaRing

inductive StoreCall where
  | get
  | put
  | delete
  | scan
  deriving DecidableEq, Repr

def StoreCall.name : StoreCall → String
  | get => "get"
  | put => "put"
  | delete => "delete"
  | scan => "scan"

structure Store where
  /-- Values by key, none for a tombstone. -/
  entries : SortedMap Key (Option Bytes)
  /-- The calls that fail. -/
  refused : List StoreCall := []
  deriving Inhabited

namespace Store

/-- Live entries; of two with one key the later stays. -/
def ofList (entries : List (Key × Bytes)) : Store :=
  ⟨.ofList (entries.map fun (k, v) => (k, some v)), []⟩

/-! ## Contents -/

/-- The live value at a key. -/
def value? (s : Store) (k : Key) : Option Bytes := (s.entries.get? k).join

/-- Sets the entry at a key, to a tombstone if there is no value. -/
def write (s : Store) (k : Key) (v : Option Bytes) : Store :=
  { s with entries := s.entries.insert k v }

/-- Every entry in key order, tombstones included. -/
def items (s : Store) : List StoreItem := s.entries.entries.map fun (k, v) => ⟨k, v⟩

/-- The number of live keys. -/
def liveCount (s : Store) : Nat := (s.items.filter fun i => !i.isTombstone).length

/-- The size of the live entries. -/
def liveBytes (s : Store) : Nat :=
  ((s.items.filter fun i => !i.isTombstone).map StoreItem.size).foldl (· + ·) 0

/-- How the size changes when an entry gets a new value. Where there was no live value, a key is
gained; where there is none afterwards, a key is lost. -/
def deltaOf (s : Store) (k : Key) (v : Option Bytes) : SizeDelta :=
  let size : Option Bytes → Int
    | some v => k.length + v.length
    | none => 0
  let count : Option Bytes → Int
    | some _ => 1
    | none => 0
  let old := s.value? k
  ⟨Int64.ofInt (size v - size old), Int64.ofInt (count v - count old)⟩

/-! ## Calls -/

/-- Lets a call through unless calls of its kind fail. -/
def guard {α : Type} (s : Store) (call : StoreCall) (result : α) : Except Fault α :=
  if s.refused.contains call then .error (.internal (call.name ++ " refused")) else .ok result

def get (s : Store) (k : Key) : Except Fault (Option Bytes) := s.guard .get (s.value? k)

def put (s : Store) (k : Key) (v : Bytes) : Except Fault (Store × SizeDelta) :=
  s.guard .put (s.write k (some v), s.deltaOf k (some v))

/-- Deletes a key. A tombstone is left even where there was nothing. -/
def delete (s : Store) (k : Key) : Except Fault (Store × SizeDelta) :=
  s.guard .delete (s.write k none, s.deltaOf k none)

end Store

end ReplicaRing
