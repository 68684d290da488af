import ReplicaRing.Log.Value
import ReplicaRing.Fault
import ReplicaRing.Liveness.Detector
import ReplicaRing.Transfer.Session
import ReplicaRing.Replication.Engine

/-!
The configuration of a replica: who it is, whom it starts with, and how its components are
tuned. A configuration is checked as a whole; the first rule that it breaks is the one reported.
-/

namespace ReplicaRing

structure NodeConfig where
  /-- The identity of the replica as text. -/
  id : String
  /-- Where the replica listens. -/
  bindAddress : String
  connectTimeoutMs : Nat := 3000
  deriving DecidableEq, Repr, Inhabited

structure ClusterConfig where
  /-- Whether a first view of this node and its peers is installed at the start. -/
  bootstrap : Bool := false
  /-- The identities of the other replicas as text. -/
  peers : List String := []
  /-- The quorum of the first view; zero stands for a majority. -/
  minQuorum : Nat := 0
  deriving DecidableEq, Repr, Inhabited

structure RouterConfig where
  statsIntervalMs : Nat := 10000
  forwardTimeoutMs : Nat := 5000
  deriving DecidableEq, Repr, Inhabited

namespace RouterConfig

def statsInterval (c : RouterConfig) : Duration := Duration.ofMillis c.statsIntervalMs

def forwardTimeout (c : RouterConfig) : Duration := Duration.ofMillis c.forwardTimeoutMs

end RouterConfig

structure LoggingConfig where
  level : String := "info"
  format : String := "pretty"
  deriving DecidableEq, Repr, Inhabited

structure Config where
  node : NodeConfig
  cluster : ClusterConfig := {}
  detector : DetectorConfig := {}
  replication : ReplicationConfig := {}
  transfer : TransferConfig := {}
  router : RouterConfig := {}
  logging : LoggingConfig := {}

namespace Config

/-! ## Identities -/

def nodeId (c : Config) : Except Fault NodeId := NodeId.read c.node.id

def peerIds (c : Config) : Except Fault (List NodeId) := c.cluster.peers.mapM NodeId.read

def connectTimeout (c : Config) : Duration := Duration.ofMillis c.node.connectTimeoutMs

/-! ## Validation -/

/-- A condition that a configuration has to meet. -/
def require (condition : Bool) (text : String) : Except Fault Unit :=
  if condition then .ok () else .error (.config text)

/-- Checks every rule in turn. A multiplier that is no number is not below one and passes. -/
def validate (c : Config) : Except Fault Unit := do
  require (!c.node.id.isEmpty) "node.id cannot be empty"
  require (!c.node.bindAddress.isEmpty) "node.bind_address cannot be empty"
  let _ ← c.nodeId
  let _ ← c.peerIds
  require (2 ≤ c.detector.timeoutMs) "detector.detection_timeout_ms must be at least 2"
  require (c.transfer.quotaBytes != 0) "transfer.quota_bytes must be positive"
  require (!(c.transfer.backoffMultiplier < 1.0)) "transfer.backoff_multiplier must be >= 1.0"
  require (c.replication.pageItems != 0 && c.replication.pageBytes != 0)
    "replication page limits must be positive"
  require (c.router.forwardTimeoutMs != 0) "router.forward_timeout_ms must be positive"
  require (c.replication.pruneInterval != 0) "replication.prune_interval must be positive"

/-! ## The first view -/

/-- The configured quorum, or a majority of this node and the listed peers. -/
def quorum (c : Config) : Nat :=
  if c.cluster.minQuorum > 0 then c.cluster.minQuorum else (c.cluster.peers.length + 1) / 2 + 1

/-- View one: this node and its peers, responsible for every key and without any data yet. -/
def bootstrap (c : Config) : Except Fault Reconfigure := do
  let peers ← c.peerIds
  let self ← c.nodeId
  return ⟨.ofList 1 (peers ++ [self]), UInt64.ofNat c.quorum, 0, .full⟩

/-- A configuration to start from: a node alone, with every setting at its default. -/
def sample (id bindAddress : String) : Config where
  node := { id, bindAddress }
  cluster := { bootstrap := true }

end Config

end ReplicaRing
