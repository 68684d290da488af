import ReplicaRing.Node.Id

/-!
Cluster-wide unique numbers without coordination: sixteen bits say which node drew the number,
the other forty-eight count that node's draws.
-/

namespace ReplicaRing

/-- A node's source of fresh numbers. -/
structure IdSource where
  nodeHash : UInt16
  /-- How far the count has come. -/
  count : UInt64
  deriving DecidableEq, Repr, Inhabited

namespace IdSource

/-- The bits that hold the count. -/
def countMask : UInt64 := 0xffffffffffff

/-- A source whose first number follows the seed. -/
def ofSeed (nodeHash : UInt16) (seed : UInt64) : IdSource := ⟨nodeHash, seed &&& countMask⟩

/-- Draws a number: the count moves on by one and is packed below the node hash. -/
def next (s : IdSource) : UInt64 × IdSource :=
  let count := s.count + 1
  ((s.nodeHash.toUInt64 <<< 48) ||| (count &&& countMask), { s with count })

/-- The node hash that a number was drawn under. -/
def nodeHashOf (id : UInt64) : UInt16 := (id >>> 48).toUInt16

/-- Draws several numbers, in the order of the draws. -/
def take : Nat → IdSource → List UInt64 × IdSource
  | 0, s => ([], s)
  | n + 1, s =>
    let (id, s) := s.next
    let (rest, s) := take n s
    (id :: rest, s)

end IdSource

end ReplicaRing
