import ReplicaRing.Sorted.Set

/-!
A memory of the last values that were put into it: beyond its capacity the oldest are forgotten.
Putting in a value that is still remembered changes nothing, its age included.
-/

namespace ReplicaRing

structure RecentSet (α : Type) [Ord α] where
  members : SortedSet α
  /-- The same values, oldest first. -/
  order : List α
  capacity : Nat

namespace RecentSet

variable {α : Type} [Ord α]

def empty (capacity : Nat) : RecentSet α := ⟨∅, [], capacity⟩

def contains (s : RecentSet α) (a : α) : Bool := s.members.contains a

def size (s : RecentSet α) : Nat := s.order.length

/-- Forgets the oldest values until the capacity holds. -/
def evict (s : RecentSet α) : RecentSet α :=
  let surplus := s.order.length - s.capacity
  { s with
    members := (s.order.take surplus).foldl SortedSet.erase s.members
    order := s.order.drop surplus }

variable [Std.TransOrd α]

def insert (s : RecentSet α) (a : α) : RecentSet α :=
  if s.contains a then s
  else evict { s with members := s.members.insert a, order := s.order ++ [a] }

end RecentSet

end ReplicaRing
