import ReplicaRing.Node.Id
import ReplicaRing.Sorted.Set

/-!
A view is a numbered snapshot of a replication group. Its members stand on a ring in the order
of their identities; the last member is followed by the first.
-/

namespace ReplicaRing

structure View where
  id : UInt64
  members : SortedSet NodeId
  deriving DecidableEq, Inhabited

namespace View

/-- Names the members in any order, repeats allowed. -/
def ofList (id : UInt64) (members : List NodeId) : View := ⟨id, .ofList members⟩

/-- No members, number zero. -/
def empty : View := ⟨0, ∅⟩

def isEmpty (v : View) : Bool := v.members.isEmpty

def size (v : View) : Nat := v.members.size

def contains (v : View) (n : NodeId) : Bool := v.members.contains n

/-- The members this view has and an earlier one has not. -/
def added (v previous : View) : SortedSet NodeId := v.members.diff previous.members

/-- The members an earlier view has and this one has not. -/
def removed (v previous : View) : SortedSet NodeId := previous.members.diff v.members

/-- The next member around the ring, the node itself if it is alone; none for a stranger. -/
def successor? (v : View) (n : NodeId) : Option NodeId :=
  if v.contains n then
    (v.members.toList.find? fun m => (compare n m).isLT) <|> v.members.first?
  else
    none

/-- Whether a candidate lies strictly inside the arc that runs upwards from one node to
another. From a node to itself the arc is the whole ring without the node. -/
def between (source target candidate : NodeId) : Bool :=
  if (compare source target).isLT then
    (compare source candidate).isLT && (compare candidate target).isLT
  else
    (compare source candidate).isLT || (compare candidate target).isLT

def render (v : View) : String :=
  "View#" ++ toString v.id.toNat ++ "[" ++
    ", ".intercalate (v.members.toList.map NodeId.render) ++ "]"

end View

end ReplicaRing
