import ReplicaRing.Liveness.RoundTrip
import ReplicaRing.Sorted.Map
import ReplicaRing.Sorted.Set
import ReplicaRing.Wire.Message

/-!
A failure detector on heartbeats. In every round it compares the nodes it heard from during the
last two rounds with those it takes for live, and reports each change once to every
subscription. Probes on the side measure round trips, from which timeouts are published.
-/

namespace ReplicaRing

abbrev RequestId := UInt64

/-- A change of verdict on a node, told to one subscription. -/
inductive LivenessReport where
  | suspect (node : NodeId) (request : RequestId)
  | restore (node : NodeId) (request : RequestId)
  deriving DecidableEq, Repr, Inhabited

def LivenessReport.node : LivenessReport → NodeId
  | suspect n _ | restore n _ => n

def LivenessReport.request : LivenessReport → RequestId
  | suspect _ r | restore _ r => r

/-- Retransmission timeouts by node. -/
abbrev TimeoutMap := SortedMap NodeId Duration

structure DetectorConfig where
  timeoutMs : Nat := 1000
  probe : Bool := true
  minTimeoutMs : Nat := 50
  spread : Float := 4.0

namespace DetectorConfig

def timeout (c : DetectorConfig) : Duration := Duration.ofMillis c.timeoutMs

def minTimeout (c : DetectorConfig) : Duration := Duration.ofMillis c.minTimeoutMs

/-- The length of a round: half the detection timeout. -/
def period (c : DetectorConfig) : Duration := c.timeout / 2

end DetectorConfig

structure Detector where
  self : NodeId
  config : DetectorConfig
  /-- The node that each subscription watches. -/
  subscriptions : SortedMap RequestId NodeId
  /-- The nodes that get a heartbeat every round. -/
  broadcast : SortedSet NodeId
  /-- The subscribed nodes taken for live. -/
  live : SortedSet NodeId
  /-- The nodes heard from in the current round. -/
  active : SortedSet NodeId
  /-- The nodes heard from in the round before. -/
  lastActive : SortedSet NodeId
  roundTrips : SortedMap NodeId RoundTrip
  /-- The timeouts as last published. -/
  published : TimeoutMap
  /-- The number of the last probe. -/
  lastPing : UInt64

namespace Detector

inductive Input where
  | subscribe (request : RequestId) (node : NodeId)
  | unsubscribe (request : RequestId)
  /-- A message from another node. -/
  | inbound (source : NodeId) (message : Message)
  /-- The end of a round. -/
  | tick

inductive Output where
  | send (envelope : Envelope)
  | report (report : LivenessReport)
  deriving DecidableEq

def start (self : NodeId) (config : DetectorConfig) : Detector :=
  ⟨self, config, ∅, ∅, ∅, ∅, ∅, ∅, ∅, 0⟩

def sendTo (d : Detector) (dst : NodeId) (message : Message) : Output := .send ⟨d.self, dst, message⟩

/-- Whether any subscription watches the node. -/
def watches (d : Detector) (n : NodeId) : Bool := d.subscriptions.values.contains n

/-- The nodes with a subscription. -/
def subscribed (d : Detector) : SortedSet NodeId := .ofList d.subscriptions.values

/-- Tells the timeouts of the round trips as they stand. -/
def publish (d : Detector) : Detector :=
  { d with published := d.roundTrips.map fun _ r => r.timeout }

/-! ## Subscriptions -/

/-- A node that is new here counts as live and as heard from, which gives it one round of grace.
Otherwise the subscription inherits the verdict there is. -/
def subscribe (d : Detector) (request : RequestId) (n : NodeId) : Detector × List Output :=
  let watched := d.watches n
  let d := { d with subscriptions := d.subscriptions.insert request n }
  if watched then
    (d, if d.live.contains n then [] else [.report (.suspect n request)])
  else
    ({ d with
        broadcast := d.broadcast.insert n
        live := d.live.insert n
        lastActive := d.lastActive.insert n }, [d.sendTo n .heartbeat])

/-- Ends one subscription; a node without any is forgotten. -/
def unsubscribe (d : Detector) (request : RequestId) : Detector :=
  match d.subscriptions.get? request with
  | none => d
  | some n =>
    let d := { d with subscriptions := d.subscriptions.erase request }
    if d.watches n then d
    else
      publish { d with
        broadcast := d.broadcast.erase n
        live := d.live.erase n
        roundTrips := d.roundTrips.erase n }

/-! ## Messages -/

/-- The first heartbeat of a round is answered, so that the sender hears us too. A probe is
answered always; the answer to one of ours is a sample if we still send to the node. -/
def receive (d : Detector) (now : Duration) (src : NodeId) : Message → Detector × List Output
  | .heartbeat =>
    if d.active.contains src then (d, [])
    else ({ d with active := d.active.insert src }, [d.sendTo src .heartbeat])
  | .ping id timestamp => (d, [d.sendTo src (.pong id timestamp)])
  | .pong _ timestamp =>
    if d.broadcast.contains src then
      let rtt := Duration.ofMicros (now.toMicros - timestamp.toNat)
      let roundTrip :=
        (d.roundTrips.get? src).getD (.start d.config.spread d.config.minTimeout)
      (publish { d with roundTrips := d.roundTrips.insert src (roundTrip.sample rtt) }, [])
    else (d, [])
  | _ => (d, [])

/-! ## Rounds -/

/-- The nodes heard from in the last two rounds. -/
def heard (d : Detector) : SortedSet NodeId := d.active.union d.lastActive

/-- What a round reports to each subscription, in the order of their numbers. -/
def verdicts (d : Detector) : List LivenessReport :=
  d.subscriptions.entries.filterMap fun (request, n) =>
    match d.live.contains n, d.heard.contains n with
    | true, false => some (.suspect n request)
    | false, true => some (.restore n request)
    | _, _ => none

/-- Probes to nodes, numbered upwards. -/
def pings (d : Detector) (timestamp : UInt64) : UInt64 → List NodeId → List Output
  | _, [] => []
  | last, n :: rest => d.sendTo n (.ping (last + 1) timestamp) :: d.pings timestamp (last + 1) rest

/-- Ends a round: reports, moves the window on, and sends the next heartbeats and probes. -/
def tick (d : Detector) (now : Duration) : Detector × List Output :=
  let subscribed := d.subscribed
  let targets := if d.config.probe then subscribed.toList else []
  let next := { d with
    lastActive := d.active
    active := ∅
    live := d.heard.inter subscribed
    lastPing := d.lastPing + UInt64.ofNat targets.length }
  (next, d.verdicts.map .report ++ d.broadcast.toList.map (d.sendTo · .heartbeat) ++
    d.pings (UInt64.ofNat now.toMicros) d.lastPing targets)

def handle (d : Detector) (now : Duration) : Input → Detector × List Output
  | .subscribe request n => d.subscribe request n
  | .unsubscribe request => (d.unsubscribe request, [])
  | .inbound src message => d.receive now src message
  | .tick => d.tick now

end Detector

end ReplicaRing
