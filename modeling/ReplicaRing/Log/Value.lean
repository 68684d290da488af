import ReplicaRing.Node.View
import ReplicaRing.Operation

/-!
The entries of the replicated log and the messages between a replica and the log: proposals and
prunes go in, decisions come out.
-/

namespace ReplicaRing

/-- A decided change of view. A data version of zero means that the range holds nothing yet. -/
structure Reconfigure where
  view : View
  quorum : UInt64
  versionId : UInt64
  responsibility : KeyRange
  deriving DecidableEq, Inhabited

inductive LogValue where
  | noop
  | reconfigure (change : Reconfigure)
  | operation (op : Operation)
  deriving DecidableEq, Inhabited

namespace LogValue

/-- Class first, then the number within the class. Values that share a key are not ordered
further. -/
def orderKey : LogValue → Nat × UInt64
  | noop => (0, 0)
  | reconfigure r => (1, r.view.id)
  | operation op => (2, op.id)

/-- Sorts positions by the order keys of their values; equal keys keep their places. -/
def sortIndices (values : List LogValue) : List Nat :=
  let keyed := values.zipIdx.map fun (v, i) => (v.orderKey, i)
  let before (a b : (Nat × UInt64) × Nat) : Bool :=
    a.1.1 < b.1.1 || (a.1.1 == b.1.1 && a.1.2 ≤ b.1.2)
  (keyed.mergeSort before).map Prod.snd

def typeName : LogValue → String
  | noop => "Noop"
  | reconfigure _ => "Reconfigure"
  | operation _ => "Op"

end LogValue

inductive LogRequest where
  | propose (value : LogValue)
  /-- Entries below the position are no longer needed. -/
  | prune (position : UInt64)
  deriving DecidableEq, Inhabited

/-- A value decided at a position. -/
structure LogIndication where
  position : UInt64
  value : LogValue
  deriving DecidableEq, Inhabited

end ReplicaRing
