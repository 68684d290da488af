import ReplicaRing.Config.Basic
import ReplicaRing.Toml.Printer

/-!
Writing configurations.
-/

namespace ReplicaRing.Config

/-- The settings of a configuration as tables. -/
def toTables (c : Config) : List (String × List (String × Toml.Value)) :=
  let whole (n : Nat) : Toml.Value := .integer n
  [("node", [
      ("id", .string c.node.id),
      ("bind_address", .string c.node.bindAddress),
      ("connect_timeout_ms", whole c.node.connectTimeoutMs)]),
    ("cluster", [
      ("bootstrap", .boolean c.cluster.bootstrap),
      ("peers", .array (c.cluster.peers.map .string)),
      ("min_quorum", whole c.cluster.minQuorum)]),
    ("detector", [
      ("detection_timeout_ms", whole c.detector.timeoutMs),
      ("probe", .boolean c.detector.probe),
      ("min_rto_ms", whole c.detector.minTimeoutMs),
      ("rto_k", .float c.detector.spread)]),
    ("replication", [
      ("prune_interval", whole c.replication.pruneInterval),
      ("dedup_window", whole c.replication.dedupWindow),
      ("page_items", whole c.replication.pageItems),
      ("page_bytes", whole c.replication.pageBytes)]),
    ("transfer", [
      ("quota_bytes", whole c.transfer.quotaBytes),
      ("retry_interval_ms", whole c.transfer.retryIntervalMs),
      ("backoff_multiplier", .float c.transfer.backoffMultiplier),
      ("max_retry_interval_ms", whole c.transfer.maxRetryIntervalMs),
      ("max_handshake_attempts", whole c.transfer.maxAttempts),
      ("compression", .boolean c.transfer.compression)]),
    ("router", [
      ("stats_interval_ms", whole c.router.statsIntervalMs),
      ("forward_timeout_ms", whole c.router.forwardTimeoutMs)]),
    ("logging", [
      ("level", .string c.logging.level),
      ("format", .string c.logging.format)])]

/-- A configuration as TOML, every setting written out. -/
def toToml (c : Config) : String := Toml.printTables c.toTables

end ReplicaRing.Config
