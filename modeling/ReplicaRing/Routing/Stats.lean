import ReplicaRing.Node.Id
import ReplicaRing.Operation
import ReplicaRing.Time.Duration

/-!
The load on a router, counted up between reports.
-/

namespace ReplicaRing

/-- What happened in one interval. -/
structure StatsReport where
  node : NodeId
  operations : Nat
  operationsPerSecond : Float
  delta : SizeDelta
  intervalMs : Nat

structure Stats where
  node : NodeId
  operations : Nat
  delta : SizeDelta
  /-- When the last report was made. -/
  lastTick : Duration
  deriving DecidableEq

namespace Stats

def start (node : NodeId) (now : Duration) : Stats := ⟨node, 0, .zero, now⟩

def recordOperation (s : Stats) : Stats := { s with operations := s.operations + 1 }

def recordDelta (s : Stats) (delta : SizeDelta) : Stats := { s with delta := s.delta + delta }

/-- Operations per second; an interval below a millisecond is too short to tell. -/
def throughput (operations : Nat) (elapsed : Duration) : Float :=
  if elapsed < Duration.ofMillis 1 then 0.0 else Float.ofNat operations / elapsed.toSeconds

/-- Reports the interval that ends now, and starts the next. -/
def tick (s : Stats) (now : Duration) : StatsReport × Stats :=
  let elapsed := now - s.lastTick
  (⟨s.node, s.operations, throughput s.operations elapsed, s.delta, elapsed / 1000000⟩,
    .start s.node now)

end Stats

end ReplicaRing
