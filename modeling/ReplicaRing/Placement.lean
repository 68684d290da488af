import ReplicaRing.Node.Id
import ReplicaRing.Key.Range
import ReplicaRing.Sorted.Map

/-!
Which nodes own which keys: a fixed table of partitions, each running from its start key up to
the start of the next.
-/

namespace ReplicaRing

structure Placement where
  partitions : SortedMap Key (List NodeId)

namespace Placement

/-- A later entry replaces an earlier one with the same start. -/
def ofList (table : List (Key × List NodeId)) : Placement := ⟨.ofList table⟩

/-- The owners of the partition a key lies in: the last one that starts at or below the key. -/
def owners (p : Placement) (k : Key) : List NodeId :=
  match (p.partitions.entries.filter fun e => (compare e.1 k).isLE).getLast? with
  | some (_, nodes) => nodes
  | none => []

/-- The preferred owner of a key. -/
def ownerOf? (p : Placement) (k : Key) : Option NodeId := (p.owners k).head?

/-- The owners of the partition that holds the start of a range. -/
def ownersOf (p : Placement) (r : KeyRange) : List NodeId := p.owners (r.startKey?.getD [])

end Placement

end ReplicaRing
