import ReplicaRing.Cluster.Basic

/-!
What is done to a cluster from outside: replicas are started and stopped, clients submit
operations and wait, and links are cut and restored.
-/

namespace ReplicaRing

/-- Where the first view of a replica comes from. -/
inductive FirstView where
  /-- The replica starts without a view. -/
  | none
  /-- The view that the configuration describes. -/
  | configured
  | given (reconfigure : Reconfigure)

/-- A replica to start: its configuration and what it begins with. -/
structure ReplicaSetup where
  config : Config
  first : FirstView
  placement : Placement
  store : Store

/-- Which replicas share a log. -/
inductive LogSharing where
  | shared
  /-- Every replica has a log of its own. -/
  | separate
  deriving DecidableEq, Repr

namespace ReplicaSetup

/-- The first view, and the replica before it is installed. -/
def prepare (s : ReplicaSetup) : Except Fault (Replica × Option Reconfigure) := do
  let self ← s.config.nodeId
  let first ← match s.first with
    | .none => pure Option.none
    | .configured => s.config.bootstrap.map some
    | .given r => pure (some r)
  return (.assemble self s.config s.placement s.store, first)

end ReplicaSetup

namespace Cluster

/-! ## Starting and stopping -/

/-- Starts replicas at time zero, all attached to the network. The first configuration that is
at fault keeps the cluster from starting. -/
def start (sharing : LogSharing) (setups : List ReplicaSetup) : Except Fault Cluster := do
  let prepared ← setups.mapM ReplicaSetup.prepare
  let nodes := prepared.map fun p => p.1.self
  let groups := match sharing with
    | .shared => [nodes]
    | .separate => nodes.map fun n => [n]
  let started := prepared.map fun (r, first) => r.bootstrap first
  return {
    now := 0
    network := nodes.foldl Network.attach .empty
    logs := groups.map fun readers => ⟨.start readers.length, readers⟩
    replicas := started.map Prod.fst
    queue := started.flatMap fun (r, effects) => effects.map fun e => (r.self, e)
    answers := ∅
    nextTicket := 0 }

/-- Stops a replica for good. Its inbox is read no longer, and its clients get no answers. -/
def shutdown (c : Cluster) (n : NodeId) : Cluster :=
  { c.update n fun r => { r with running := false, listening := false } with
    network := c.network.close n }

/-- Whether a node has a replica that runs. -/
def isRunning (c : Cluster) (n : NodeId) : Bool := (c.replica? n).any (·.running)

/-! ## Clients -/

/-- Goes from alarm to alarm until a ticket is answered, as far as the fuel reaches. -/
def awaitUpTo (ticket : Nat) : Nat → Cluster → Cluster
  | 0, c => c
  | fuel + 1, c =>
    if c.answers.contains ticket then c
    else
      match c.nextInstant? with
      | some instant => awaitUpTo ticket fuel (c.moveTo instant)
      | none => c

/-- Submits an operation at a replica and lets time pass until it is answered. A replica that
was stopped answers nothing. -/
def submit (c : Cluster) (n : NodeId) (kind : OperationKind) : Cluster × Option Answer :=
  if !c.isRunning n then (c, none)
  else
    let ticket := c.nextTicket
    let c := { c with
      nextTicket := ticket + 1
      queue := c.queue ++ [(n, Replica.Effect.signal (.request ticket kind))] }
    let c := awaitUpTo ticket patience c.settle
    (c, c.answers.get? ticket)

/-- Asks a replica to propose a change of view. -/
def propose (c : Cluster) (n : NodeId) (next : Reconfigure) : Cluster :=
  { c with queue := c.queue ++ [(n, .signal (.propose next))] }

/-! ## The network -/

def partition (c : Cluster) (a b : NodeId) : Cluster :=
  { c with network := c.network.partition a b }

def heal (c : Cluster) (a b : NodeId) : Cluster := { c with network := c.network.heal a b }

/-- Takes a node off the network; its replica keeps running. -/
def unregister (c : Cluster) (n : NodeId) : Cluster :=
  { c with network := c.network.detach n }

/-! ## Observing -/

/-- The leader that each replica trusts, none for one that was stopped. -/
def leaders (c : Cluster) : List (NodeId × Option NodeId) :=
  c.replicas.map fun r => (r.self, if r.running then r.oracle.watched else none)

/-- The store of a node. -/
def store? (c : Cluster) (n : NodeId) : Option Store := (c.replica? n).map (·.engine.store)

end Cluster

end ReplicaRing
