import ReplicaRing.Cluster.Network
import ReplicaRing.Cluster.Replica
import ReplicaRing.Log.Local

/-!
Replicas on one network and one clock. Whatever happens at an instant is queued and handled in
order before time moves on; time moves from alarm to alarm.
-/

namespace ReplicaRing

/-- A log and the replicas that propose to it and read its decisions. -/
structure LogGroup where
  log : LocalLog
  readers : List NodeId

structure Cluster where
  now : Duration
  network : Network
  logs : List LogGroup
  replicas : List Replica
  /-- What is still to happen at this instant, oldest first. -/
  queue : List (NodeId × Replica.Effect)
  /-- The answers that clients got, by ticket. -/
  answers : SortedMap Nat Answer
  nextTicket : Nat

namespace Cluster

/-- The replica of a node. -/
def replica? (c : Cluster) (n : NodeId) : Option Replica := c.replicas.find? (·.self == n)

/-- Changes the replica of a node. -/
def update (c : Cluster) (n : NodeId) (f : Replica → Replica) : Cluster :=
  { c with replicas := c.replicas.map fun r => if r.self == n then f r else r }

/-! ## What happens at an instant -/

/-- Gives a running replica a signal and queues what comes of it. -/
def signal (c : Cluster) (n : NodeId) (s : Replica.Signal) : Cluster :=
  match c.replica? n with
  | none => c
  | some r =>
    if !r.running then c
    else
      let (r, effects) := r.handle c.now s
      { c.update n fun _ => r with
        network := if r.listening then c.network else c.network.close n
        queue := c.queue ++ effects.map (n, ·) }

/-- Sends an envelope; it is queued at the node where it arrives. -/
def post (c : Cluster) (e : Envelope) : Except Fault Cluster := do
  match ← c.network.route e with
  | some n => return { c with queue := c.queue ++ [(n, .signal (.inbound e))] }
  | none => return c

/-- Brings a request to the log of a node, and its decision to every reader. -/
def request (c : Cluster) (n : NodeId) (request : LogRequest) : Cluster :=
  let handled := c.logs.map fun g =>
    if g.readers.contains n then
      let (log, decision) := g.log.handle request
      ({ g with log }, decision.toList.flatMap fun i =>
        g.readers.map fun reader => (reader, Replica.Effect.signal (.decided i)))
    else (g, [])
  { c with logs := handled.map Prod.fst, queue := c.queue ++ handled.flatMap Prod.snd }

/-- Carries out an effect. An envelope that cannot be sent is dropped. -/
def perform (c : Cluster) (n : NodeId) : Replica.Effect → Cluster
  | .signal s => c.signal n s
  | .send e =>
    match c.post e with
    | .ok c => c
    | .error _ => c
  | .log r => c.request n r
  | .answer ticket a => { c with answers := c.answers.insert ticket a }

/-- Carries out what is queued, as far as the fuel reaches. -/
def settleUpTo : Nat → Cluster → Cluster
  | 0, c => c
  | fuel + 1, c =>
    match c.queue with
    | [] => c
    | (n, effect) :: rest => settleUpTo fuel ({ c with queue := rest }.perform n effect)

/-- How much may happen at one instant. -/
def patience : Nat := 1000000

def settle (c : Cluster) : Cluster := settleUpTo patience c

/-! ## Time -/

/-- The instant of the next alarm. -/
def nextInstant? (c : Cluster) : Option Duration :=
  (c.replicas.filterMap fun r => if r.running then r.nextAlarm?.map Prod.fst else none).min?

/-- Lets the alarms of the running replicas go off that are due by now, one of each replica. -/
def ringOnce (c : Cluster) : Cluster :=
  c.replicas.foldl (fun c r =>
    match r.nextAlarm? with
    | some (time, alarm) =>
      if r.running && time ≤ c.now then
        let c := c.update r.self (·.clearAlarm alarm)
        { c with queue := c.queue ++ [(r.self, .signal (.alarm alarm))] }
      else c
    | none => c) c

/-- Moves on to an instant and lets everything happen that one round of alarms sets off. -/
def moveTo (c : Cluster) (instant : Duration) : Cluster := ({ c with now := instant }.ringOnce).settle

/-- Goes from alarm to alarm up to an instant, as far as the fuel reaches. -/
def runUntil (stop : Duration) : Nat → Cluster → Cluster
  | 0, c => c
  | fuel + 1, c =>
    match c.nextInstant? with
    | some instant => if instant ≤ stop then runUntil stop fuel (c.moveTo instant) else c
    | none => c

/-- Lets time pass. Instants are whole milliseconds, so there are at most as many of them as
milliseconds; the rest of the fuel is for alarms that share an instant. -/
def advance (c : Cluster) (ms : Nat) : Cluster :=
  let stop := c.now + Duration.ofMillis ms
  { c.settle.runUntil stop (ms + patience) with now := stop }

end Cluster

end ReplicaRing
