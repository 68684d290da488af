import ReplicaRing.Fault
import ReplicaRing.Wire.Message
import ReplicaRing.Sorted.Map

/-!
The network between replicas of one process. Nodes attach at their physical address, and links
between addresses may be cut: what is sent over a cut link is lost without a word.
-/

namespace ReplicaRing

/-- A place where envelopes arrive. -/
structure Inbox where
  /-- The node that reads the inbox. -/
  owner : NodeId
  /-- Whether it still does. -/
  isOpen : Bool
  deriving DecidableEq, Inhabited

structure Network where
  /-- The inboxes by physical address. -/
  inboxes : SortedMap NodeId Inbox
  /-- The cut links, each from one physical address to another. -/
  cut : List (NodeId × NodeId)

namespace Network

def empty : Network := ⟨∅, []⟩

/-- Attaches a node, in place of any at the same address. -/
def attach (net : Network) (n : NodeId) : Network :=
  { net with inboxes := net.inboxes.insert n.physical ⟨n, true⟩ }

/-- Takes away the inbox at a node's address. -/
def detach (net : Network) (n : NodeId) : Network :=
  { net with inboxes := net.inboxes.erase n.physical }

/-- The node reads its inbox no longer. -/
def close (net : Network) (n : NodeId) : Network :=
  { net with inboxes := net.inboxes.map fun _ inbox =>
      if inbox.owner = n then { inbox with isOpen := false } else inbox }

/-- The links between two nodes, one in each direction. -/
def linksBetween (a b : NodeId) : List (NodeId × NodeId) :=
  [(a.physical, b.physical), (b.physical, a.physical)]

/-- Cuts the links between two nodes. -/
def partition (net : Network) (a b : NodeId) : Network :=
  { net with cut := linksBetween a b ++ net.cut }

/-- Restores the links between two nodes. -/
def heal (net : Network) (a b : NodeId) : Network :=
  { net with cut := net.cut.filter fun link => !(linksBetween a b).contains link }

/-- Where an envelope arrives: at a node, or nowhere if its link is cut. An address without an
inbox and an inbox without a reader are faults. -/
def route (net : Network) (e : Envelope) : Except Fault (Option NodeId) :=
  if net.cut.contains (e.src.physical, e.dst.physical) then .ok none
  else
    match net.inboxes.get? e.dst.physical with
    | none => .error (.nodeNotFound e.dst.physical.render)
    | some inbox =>
      if inbox.isOpen then .ok (some inbox.owner)
      else .error (.network ("inbox of " ++ e.dst.physical.render ++ " closed"))

end Network

end ReplicaRing
