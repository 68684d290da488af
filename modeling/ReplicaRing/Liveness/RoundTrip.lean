import ReplicaRing.Time.Duration

/-!
Round-trip times learned from probes: a smoothed average and a smoothed mean deviation, from
which the wait before a retransmission follows.
-/

namespace ReplicaRing

structure RoundTrip where
  /-- The smoothed average in microseconds, once there was a sample. -/
  average : Option Float
  /-- The smoothed mean deviation in microseconds. -/
  deviation : Float
  /-- How many deviations the timeout lies above the average. -/
  spread : Float
  /-- The least timeout. -/
  floor : Duration

namespace RoundTrip

def start (spread : Float) (floor : Duration) : RoundTrip := ⟨none, 0.0, spread, floor⟩

/-- Folds a sample in. The first one is the average and twice the deviation; each later one
moves the deviation by a quarter of the way and the average by an eighth. -/
def sample (r : RoundTrip) (rtt : Duration) : RoundTrip :=
  let s := Float.ofNat rtt.toMicros
  match r.average with
  | none => { r with average := some s, deviation := s / 2.0 }
  | some a =>
    { r with
      deviation := (1.0 - 0.25) * r.deviation + 0.25 * (a - s).abs
      average := some ((1.0 - 0.125) * a + 0.125 * s) }

/-- A number of microseconds without its fraction; what is no number or negative counts as
none, and 64 bits are the limit. -/
def wholeMicros (x : Float) : Duration := Duration.ofMicros x.toUInt64.toNat

def averageTime? (r : RoundTrip) : Option Duration := r.average.map wholeMicros

/-- The wait before a frame is sent again, never below the floor. -/
def timeout (r : RoundTrip) : Duration :=
  match r.average with
  | none => r.floor
  | some a => max (wholeMicros (a + r.spread * r.deviation)) r.floor

end RoundTrip

end ReplicaRing
