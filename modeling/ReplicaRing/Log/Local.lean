import ReplicaRing.Log.Value
import ReplicaRing.Sorted.Map

/-!
The log of a single process: each proposal is decided at once, at the next position, and told to
every subscriber that still listens. Decided entries are kept until they are pruned.
-/

namespace ReplicaRing

structure LocalLog where
  /-- The position of the next decision. -/
  next : Nat
  prunedBelow : Nat
  /-- The decided entries that were not pruned. -/
  decided : SortedMap Nat LogValue
  /-- Which subscribers still listen. -/
  listening : List Bool

namespace LocalLog

/-- An empty log, starting at position one. -/
def start (subscribers : Nat) : LocalLog := ⟨1, 1, ∅, List.replicate subscribers true⟩

/-- Handles a request; a decision is returned for the subscribers that listen. -/
def handle (log : LocalLog) : LogRequest → LocalLog × Option LogIndication
  | .propose value =>
    ({ log with next := log.next + 1, decided := log.decided.insert log.next value },
      some ⟨UInt64.ofNat log.next, value⟩)
  | .prune position =>
    if position.toNat > log.prunedBelow then
      ({ log with
          prunedBelow := position.toNat
          decided := log.decided.filter fun p _ => position.toNat ≤ p }, none)
    else
      (log, none)

/-- What each subscriber receives of one handled request. -/
def deliveries (log : LocalLog) (decision : Option LogIndication) : List (List LogIndication) :=
  log.listening.map fun listens => if listens then decision.toList else []

/-- A subscriber stops listening. -/
def close (log : LocalLog) (subscriber : Nat) : LocalLog :=
  { log with listening := log.listening.set subscriber false }

/-- How many decided entries are kept. -/
def retained (log : LocalLog) : Nat := log.decided.size

end LocalLog

end ReplicaRing
