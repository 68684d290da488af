import ReplicaRing.Json.Basic
import ReplicaRing.Transfer.Page
import ReplicaRing.Replication.Engine
import ReplicaRing.Routing.Router
import ReplicaRing.Config.Basic

/-!
The JSON forms of keys, nodes, operations, log values, messages and reports. Keys, values and
payloads are hexadecimal, nodes are their text, and an open end of a range is null.
-/

namespace ReplicaRing

open Json (entry)

/-! ## Keys, nodes and views -/

instance : JsonForm KeyBound where
  toJson
    | .included k => .of ("inc", k)
    | .excluded k => .of ("exc", k)
    | .unbounded => .null
  ofJson?
    | .null => .ok .unbounded
    | .array [.string "inc", k] => k.as.map .included
    | .array [.string "exc", k] => k.as.map .excluded
    | _ => .error "expected a bound"

/-- A range is read from its bounds or from the name of a constructor. -/
instance : JsonForm KeyRange where
  toJson r := .object [entry "start" r.start, entry "end" r.stop]
  ofJson? j := do
    match ← j.fieldD "ctor" "" with
    | "full" => return .full
    | "half_open" => return .halfOpen (← j.field "start") (← j.field "end")
    | "closed" => return .closed (← j.field "start") (← j.field "end")
    | "from_key" => return .fromKey (← j.field "start")
    | _ => return ⟨← j.fieldD "start" .unbounded, ← j.fieldD "end" .unbounded⟩

/-- A node is its text; one that has none is read from its parts. -/
instance : JsonForm NodeId where
  toJson n := .of n.render
  ofJson?
    | .string s => (NodeId.parse s).mapError NodeId.ParseError.message
    | j => do return ⟨← j.field "host", ← j.field "port", ← j.field? "vnode"⟩

/-- A node in its parts. -/
def NodeId.partsJson (n : NodeId) : Json :=
  .object [entry "host" n.host, entry "port" n.port, entry "vnode" n.vnode]

instance {α : Type} [Ord α] [Std.TransOrd α] [JsonForm α] : JsonForm (SortedSet α) where
  toJson s := .of s.toList
  ofJson? j := (j.as : Except String (List α)).map SortedSet.ofList

instance : JsonForm View where
  toJson v := .object [entry "id" v.id, entry "members" v.members]
  ofJson? j := do return ⟨← j.field "id", ← j.field "members"⟩

instance : JsonForm Placement where
  toJson p := .of p.partitions.entries
  ofJson? j := j.as.map Placement.ofList

/-! ## Operations and answers -/

instance : JsonForm OperationKind where
  toJson
    | .get k => .object [entry "kind" "get", entry "key" k]
    | .put k v => .object [entry "kind" "put", entry "key" k, entry "value" v]
    | .delete k => .object [entry "kind" "delete", entry "key" k]
    | .rangeQuery r limit => .object [entry "kind" "range", entry "range" r, entry "limit" limit]
    | .other name payload =>
      .object [entry "kind" "other", entry "name" name, entry "payload" payload]
  ofJson? j := do
    match ← j.field "kind" with
    | "get" => return .get (← j.field "key")
    | "put" => return .put (← j.field "key") (← j.field "value")
    | "delete" => return .delete (← j.field "key")
    | "range" => return .rangeQuery (← j.field "range") (← j.field? "limit")
    | "other" => return .other (← j.field "name") (← j.field "payload")
    | other => throw ("unknown kind " ++ other)

/-- The number of an operation stands beside the fields of its kind. -/
instance : JsonForm Operation where
  toJson op :=
    match Json.of op.kind with
    | .object fields => .object (entry "id" op.id :: fields)
    | other => other
  ofJson? j := do return ⟨← j.field "id", ← j.as⟩

instance : JsonForm SizeDelta where
  toJson d := .of (d.bytes, d.keys)
  ofJson? j := do
    let (bytes, keys) ← j.as
    return ⟨bytes, keys⟩

instance : JsonForm Response where
  toJson
    | .value v => .object [entry "type" "Value", entry "value" v]
    | .written => .object [entry "type" "Written"]
    | .deleted => .object [entry "type" "Deleted"]
    | .range items remaining =>
      .object [entry "type" "Range", entry "items" items, entry "remaining" remaining]
    | .unsupported t => .object [entry "type" "Unsupported", entry "text" t]
    | .duplicate => .object [entry "type" "Duplicate"]
    | .unavailable t => .object [entry "type" "Unavailable", entry "text" t]
    | .failed t => .object [entry "type" "Failed", entry "text" t]
  ofJson? j := do
    match ← j.field "type" with
    | "Value" => return .value (← j.field? "value")
    | "Written" => return .written
    | "Deleted" => return .deleted
    | "Range" => return .range (← j.field "items") (← j.field? "remaining")
    | "Unsupported" => return .unsupported (← j.field "text")
    | "Duplicate" => return .duplicate
    | "Unavailable" => return .unavailable (← j.field "text")
    | "Failed" => return .failed (← j.field "text")
    | other => throw ("unknown response " ++ other)

instance : JsonForm Answer where
  toJson a := .object [entry "id" a.id, entry "response" a.response, entry "delta" a.delta]
  ofJson? j := do
    return ⟨← j.field "id", ← j.field "response", ← j.fieldD "delta" .zero⟩

/-! ## The log -/

instance : JsonForm Reconfigure where
  toJson r := .object [entry "view" r.view, entry "quorum" r.quorum,
    entry "version_id" r.versionId, entry "responsibility" r.responsibility]
  ofJson? j := do
    return ⟨← j.field "view", ← j.fieldD "quorum" 1, ← j.fieldD "version_id" 0,
      ← j.fieldD "responsibility" .full⟩

instance : JsonForm LogValue where
  toJson
    | .noop => .object [entry "value" "noop"]
    | .reconfigure r => .object [entry "value" "reconfigure", entry "reconfigure" r]
    | .operation op => .object [entry "value" "op", entry "operation" op]
  ofJson? j := do
    match ← j.field "value" with
    | "noop" => return .noop
    | "reconfigure" => return .reconfigure (← j.field "reconfigure")
    | "op" => return .operation (← j.field "operation")
    | other => throw ("unknown value " ++ other)

instance : JsonForm LogRequest where
  toJson
    | .propose v => .object [entry "propose" v]
    | .prune p => .object [entry "prune" p]
  ofJson? j := do
    match ← j.field? "propose" with
    | some v => return .propose v
    | none => return .prune (← j.field "prune")

instance : JsonForm LogIndication where
  toJson i := .object [entry "position" i.position, entry "decided" i.value]
  ofJson? j := do return ⟨← j.field "position", ← j.field "decided"⟩

/-! ## Store items and messages -/

/-- A tombstone has null for its value. -/
instance : JsonForm StoreItem where
  toJson i := .of (i.key, i.value)
  ofJson? j := do
    let (key, value) ← j.as
    return ⟨key, value⟩

instance : JsonForm StoreCall where
  toJson c := .of c.name
  ofJson? j := do
    match ← j.as with
    | "get" => return .get
    | "put" => return .put
    | "delete" => return .delete
    | "scan" => return .scan
    | other => throw ("unknown call " ++ other)

instance : JsonForm TransferMetadata where
  toJson m := .object [entry "range" m.range, entry "view_id" m.viewId,
    entry "compressed" m.compressed]
  ofJson? j := do
    return ⟨← j.field "range", ← j.fieldD "view_id" 0, ← j.fieldD "compressed" false⟩

/-- The fields of a message besides its type. -/
def Message.jsonFields : Message → List (String × Json)
  | .heartbeat => []
  | .ping id t | .pong id t => [entry "id" id, entry "ts" t]
  | .initiateTransfer id metadata => [entry "id" id, entry "metadata" metadata]
  | .ack id | .requestToSend id | .allReceived id => [entry "id" id]
  | .clearToSend id quota => [entry "id" id, entry "quota" quota]
  | .data id payload isFinal =>
    [entry "id" id, entry "payload" payload, entry "is_final" isFinal]
  | .forward op replyTo => [entry "operation" op, entry "reply_to" replyTo]
  | .reply a => [entry "response" a]

/-- A page may be read from its items in place of its payload. -/
instance : JsonForm Message where
  toJson m := .object (entry "type" m.typeName :: m.jsonFields)
  ofJson? j := do
    match ← j.field "type" with
    | "Heartbeat" => return .heartbeat
    | "Ping" => return .ping (← j.field "id") (← j.field "ts")
    | "Pong" => return .pong (← j.field "id") (← j.field "ts")
    | "InitiateTransfer" => return .initiateTransfer (← j.field "id") (← j.field "metadata")
    | "Ack" => return .ack (← j.field "id")
    | "RequestToSend" => return .requestToSend (← j.field "id")
    | "ClearToSend" => return .clearToSend (← j.field "id") (← j.field "quota")
    | "Data" =>
      let payload ← match ← j.field? "items" with
        | some items => pure (Page.encode items (← j.fieldD "compressed" false))
        | none => j.field "payload"
      return .data (← j.field "id") payload (← j.field "is_final")
    | "AllReceived" => return .allReceived (← j.field "id")
    | "Forward" => return .forward (← j.field "operation") (← j.field "reply_to")
    | "Reply" => return .reply (← j.field "response")
    | other => throw ("unknown message " ++ other)

instance : JsonForm Envelope where
  toJson e := .object [entry "src" e.src, entry "dst" e.dst, entry "message" e.message]
  ofJson? j := do return ⟨← j.field "src", ← j.field "dst", ← j.field "message"⟩

/-! ## Settings -/

/-- A binary64 number is written as the digits of its bits, and read from a decimal number or
one of the names of what no decimal number is. -/
instance : JsonForm Float where
  toJson x :=
    if x.isNaN then .string "nan" else .of (littleEndian 8 x.toBits.toNat).reverse
  ofJson?
    | .string "nan" => .ok (0.0 / 0.0)
    | .string "inf" => .ok (1.0 / 0.0)
    | .string "-inf" => .ok (-1.0 / 0.0)
    | .number t => (Decimal.readFloat? t.toList).elim (.error "expected a number") .ok
    | _ => .error "expected a number"

instance : JsonForm DetectorConfig where
  toJson c := .object [entry "detection_timeout_ms" c.timeoutMs, entry "probe" c.probe,
    entry "min_rto_ms" c.minTimeoutMs, entry "rto_k" c.spread]
  ofJson? j := do
    let c : DetectorConfig := {}
    return ⟨← j.fieldD "detection_timeout_ms" c.timeoutMs, ← j.fieldD "probe" c.probe,
      ← j.fieldD "min_rto_ms" c.minTimeoutMs, ← j.fieldD "rto_k" c.spread⟩

instance : JsonForm TransferConfig where
  toJson c := .object [entry "quota_bytes" c.quotaBytes,
    entry "retry_interval_ms" c.retryIntervalMs,
    entry "backoff_multiplier" c.backoffMultiplier,
    entry "max_retry_interval_ms" c.maxRetryIntervalMs,
    entry "max_handshake_attempts" c.maxAttempts, entry "compression" c.compression]
  ofJson? j := do
    let c : TransferConfig := {}
    return ⟨← j.fieldD "quota_bytes" c.quotaBytes,
      ← j.fieldD "retry_interval_ms" c.retryIntervalMs,
      ← j.fieldD "backoff_multiplier" c.backoffMultiplier,
      ← j.fieldD "max_retry_interval_ms" c.maxRetryIntervalMs,
      ← j.fieldD "max_handshake_attempts" c.maxAttempts,
      ← j.fieldD "compression" c.compression⟩

instance : JsonForm ReplicationConfig where
  toJson c := .object [entry "prune_interval" c.pruneInterval,
    entry "dedup_window" c.dedupWindow, entry "page_items" c.pageItems,
    entry "page_bytes" c.pageBytes]
  ofJson? j := do
    let c : ReplicationConfig := {}
    return ⟨← j.fieldD "prune_interval" c.pruneInterval, ← j.fieldD "dedup_window" c.dedupWindow,
      ← j.fieldD "page_items" c.pageItems, ← j.fieldD "page_bytes" c.pageBytes⟩

/-- How a report, event or command is written. These are told, never taken back in. -/
class JsonReport (α : Type) where
  report : α → Json

instance : JsonReport Config where
  report c := .object [
    ("node", .object [entry "id" c.node.id, entry "bind_address" c.node.bindAddress,
      entry "connect_timeout_ms" c.node.connectTimeoutMs]),
    ("cluster", .object [entry "bootstrap" c.cluster.bootstrap, entry "peers" c.cluster.peers,
      entry "min_quorum" c.cluster.minQuorum]),
    entry "detector" c.detector, entry "replication" c.replication,
    entry "transfer" c.transfer,
    ("router", .object [entry "stats_interval_ms" c.router.statsIntervalMs,
      entry "forward_timeout_ms" c.router.forwardTimeoutMs]),
    ("logging", .object [entry "level" c.logging.level, entry "format" c.logging.format])]

/-! ## Events and reports -/

instance : JsonForm EngineState where
  toJson s := .of s.render
  ofJson? j := do
    match ← j.as with
    | "PASSIVE" => return .passive
    | "SYNCING" => return .syncing
    | "READY" => return .ready
    | other => throw ("unknown state " ++ other)

instance : JsonReport EngineEvent where
  report
    | .viewInstalled v r s =>
      .object [entry "view_installed" v, entry "responsibility" r, entry "state" s]
    | .synced id => .object [entry "synced" id]
    | .response a => .object [entry "response" a]

instance : JsonReport MoverCommand where
  report
    | .startSend n r id => .object [entry "start_send" n, entry "range" r, entry "view_id" id]
    | .stopSend n => .object [entry "stop_send" n]
    | .stopAll => .string "stop_all"

instance : JsonReport LivenessReport where
  report
    | .suspect n r => .object [entry "suspect" n, entry "request_id" r]
    | .restore n r => .object [entry "restore" n, entry "request_id" r]

instance : JsonReport OracleEvent where
  report
    | .trust n id => .object [entry "trust" n, entry "view_id" id]
    | .livenessChanged n => .object [entry "liveness_changed" n]

instance : JsonReport StatsReport where
  report r := .object [entry "node" r.node, entry "ops" r.operations,
    entry "ops_per_sec" r.operationsPerSecond, entry "bytes_delta" r.delta.bytes,
    entry "keys_delta" r.delta.keys, entry "interval_ms" r.intervalMs]

instance : JsonReport ScanPage where
  report p := .object [entry "items" p.items, entry "bytes" p.bytes, entry "more" p.more,
    entry "last_key" p.lastKey?]

instance : JsonForm MoverEvent where
  toJson
    | .transferComplete session node metadata items bytes =>
      .object [entry "event" "complete", entry "session" session, entry "node" node,
        entry "items" items, entry "bytes" bytes, entry "metadata" metadata]
    | .sendFinished session node items bytes =>
      .object [entry "event" "finished", entry "session" session, entry "node" node,
        entry "items" items, entry "bytes" bytes]
    | .sendFailed session node reason =>
      .object [entry "event" "failed", entry "session" session, entry "node" node,
        entry "reason" reason]
  ofJson? j := do
    let session : SessionId ← j.fieldD "session" 0
    let node : NodeId ← j.field "node"
    match ← j.field "event" with
    | "complete" =>
      return .transferComplete session node (← j.field "metadata") (← j.fieldD "items" 0)
        (← j.fieldD "bytes" 0)
    | "finished" =>
      return .sendFinished session node (← j.fieldD "items" 0) (← j.fieldD "bytes" 0)
    | "failed" => return .sendFailed session node (← j.fieldD "reason" "")
    | other => throw ("unknown event " ++ other)

end ReplicaRing
