import ReplicaRing.Config.Setting

/-!
Reading configurations: which settings there are, of what kind they are, and which of them may
be missing.
-/

namespace ReplicaRing.Config

open Setting

/-! ## Groups of settings -/

def readNode (m : Manner) (t : Setting) : Except Fault NodeConfig := do
  let s ← t.settings m ["id", "bind_address", "connect_timeout_ms"]
  return {
    id := ← required s "id" readText
    bindAddress := ← required s "bind_address" readText
    connectTimeoutMs := ← optional s "connect_timeout_ms" 3000 (readNat 64) }

def readCluster (m : Manner) (t : Setting) : Except Fault ClusterConfig := do
  let s ← t.settings m ["bootstrap", "peers", "min_quorum"]
  let c : ClusterConfig := {}
  return {
    bootstrap := ← optional s "bootstrap" c.bootstrap readFlag
    peers := ← optional s "peers" c.peers readTexts
    minQuorum := ← optional s "min_quorum" c.minQuorum (readNat 64) }

def readDetector (m : Manner) (t : Setting) : Except Fault DetectorConfig := do
  let s ← t.settings m ["detection_timeout_ms", "probe", "min_rto_ms", "rto_k"]
  let c : DetectorConfig := {}
  return {
    timeoutMs := ← optional s "detection_timeout_ms" c.timeoutMs (readNat 64)
    probe := ← optional s "probe" c.probe readFlag
    minTimeoutMs := ← optional s "min_rto_ms" c.minTimeoutMs (readNat 64)
    spread := ← optional s "rto_k" c.spread readReal }

def readReplication (m : Manner) (t : Setting) : Except Fault ReplicationConfig := do
  let s ← t.settings m ["prune_interval", "dedup_window", "page_items", "page_bytes"]
  let c : ReplicationConfig := {}
  return {
    pruneInterval := ← optional s "prune_interval" c.pruneInterval (readNat 64)
    dedupWindow := ← optional s "dedup_window" c.dedupWindow (readNat 64)
    pageItems := ← optional s "page_items" c.pageItems (readNat 64)
    pageBytes := ← optional s "page_bytes" c.pageBytes (readNat 64) }

def readTransfer (m : Manner) (t : Setting) : Except Fault TransferConfig := do
  let s ← t.settings m ["quota_bytes", "retry_interval_ms", "backoff_multiplier",
    "max_retry_interval_ms", "max_handshake_attempts", "compression"]
  let c : TransferConfig := {}
  return {
    quotaBytes := ← optional s "quota_bytes" c.quotaBytes (readNat 64)
    retryIntervalMs := ← optional s "retry_interval_ms" c.retryIntervalMs (readNat 64)
    backoffMultiplier := ← optional s "backoff_multiplier" c.backoffMultiplier readReal
    maxRetryIntervalMs := ← optional s "max_retry_interval_ms" c.maxRetryIntervalMs (readNat 64)
    maxAttempts := ← optional s "max_handshake_attempts" c.maxAttempts (readNat 32)
    compression := ← optional s "compression" c.compression readFlag }

def readRouter (m : Manner) (t : Setting) : Except Fault RouterConfig := do
  let s ← t.settings m ["stats_interval_ms", "forward_timeout_ms"]
  let c : RouterConfig := {}
  return {
    statsIntervalMs := ← optional s "stats_interval_ms" c.statsIntervalMs (readNat 64)
    forwardTimeoutMs := ← optional s "forward_timeout_ms" c.forwardTimeoutMs (readNat 64) }

def readLogging (m : Manner) (t : Setting) : Except Fault LoggingConfig := do
  let s ← t.settings m ["level", "format"]
  let c : LoggingConfig := {}
  return {
    level := ← optional s "level" c.level readText
    format := ← optional s "format" c.format readText }

/-! ## Whole configurations -/

/-- Reads a configuration, without checking its rules. -/
def ofSetting (m : Manner) (t : Setting) : Except Fault Config := do
  let s ← t.settings m ["node", "cluster", "detector", "replication", "transfer", "router",
    "logging"]
  return {
    node := ← required s "node" (readNode m)
    cluster := ← optional s "cluster" {} (readCluster m)
    detector := ← optional s "detector" {} (readDetector m)
    replication := ← optional s "replication" {} (readReplication m)
    transfer := ← optional s "transfer" {} (readTransfer m)
    router := ← optional s "router" {} (readRouter m)
    logging := ← optional s "logging" {} (readLogging m) }

/-- Reads a configuration from JSON, without checking its rules. -/
def ofJson (j : Json) : Except Fault Config := ofSetting jsonManner (Setting.ofJson j)

/-- Reads a configuration from TOML and checks it. -/
def parse (text : String) : Except Fault Config := do
  match Toml.parse? text with
  | none => throw (.configParse "the text is not TOML")
  | some v =>
    let c ← ofSetting tomlManner (Setting.ofToml v)
    c.validate
    return c

end ReplicaRing.Config
