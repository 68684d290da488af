import ReplicaRing.Wire.Codec
import ReplicaRing.Wire.Message
import ReplicaRing.Log.Value
import ReplicaRing.Store.Item

/-!
The binary forms of the wire and log types. Alternatives are numbered in the order in which
their type lists them.
-/

namespace ReplicaRing.Wire

/-! ## Keys, nodes and views -/

instance : Encode KeyBound where
  put
    | .included k => putTag 0 ++ put k
    | .excluded k => putTag 1 ++ put k
    | .unbounded => putTag 2
  read := readTag.bind fun
    | 0 => (read : Reader Bytes).map .included
    | 1 => (read : Reader Bytes).map .excluded
    | 2 => Reader.pure .unbounded
    | n => Reader.fail (.alternative n 3)

instance : Encode KeyRange where
  put r := put r.start ++ put r.stop
  read := (read : Reader KeyBound).bind fun start => (read : Reader KeyBound).map fun stop =>
    ⟨start, stop⟩

instance : Encode NodeId where
  put n := put n.host ++ put n.port ++ put n.vnode
  read := (read : Reader String).bind fun host => (read : Reader UInt16).bind fun port =>
    (read : Reader (Option UInt32)).map fun vnode => ⟨host, port, vnode⟩

instance : Encode View where
  put v := put v.id ++ put v.members
  read := (read : Reader UInt64).bind fun id =>
    (read : Reader (SortedSet NodeId)).map fun members => ⟨id, members⟩

/-! ## Operations and answers -/

instance : Encode OperationKind where
  put
    | .get k => putTag 0 ++ put k
    | .put k v => putTag 1 ++ put k ++ put v
    | .delete k => putTag 2 ++ put k
    | .rangeQuery r limit => putTag 3 ++ put r ++ put limit
    | .other name payload => putTag 4 ++ put name ++ put payload
  read := readTag.bind fun
    | 0 => (read : Reader Bytes).map .get
    | 1 => (read : Reader Bytes).bind fun k => (read : Reader Bytes).map fun v => .put k v
    | 2 => (read : Reader Bytes).map .delete
    | 3 => (read : Reader KeyRange).bind fun r =>
      (read : Reader (Option UInt64)).map fun limit => .rangeQuery r limit
    | 4 => (read : Reader String).bind fun name =>
      (read : Reader Bytes).map fun payload => .other name payload
    | n => Reader.fail (.alternative n 5)

instance : Encode Operation where
  put op := put op.id ++ put op.kind
  read := (read : Reader UInt64).bind fun id => (read : Reader OperationKind).map fun kind =>
    ⟨id, kind⟩

instance : Encode SizeDelta where
  put d := put d.bytes ++ put d.keys
  read := (read : Reader Int64).bind fun bytes => (read : Reader Int64).map fun keys =>
    ⟨bytes, keys⟩

instance : Encode Response where
  put
    | .value v => putTag 0 ++ put v
    | .written => putTag 1
    | .deleted => putTag 2
    | .range items remaining => putTag 3 ++ put items ++ put remaining
    | .unsupported text => putTag 4 ++ put text
    | .duplicate => putTag 5
    | .unavailable text => putTag 6 ++ put text
    | .failed text => putTag 7 ++ put text
  read := readTag.bind fun
    | 0 => (read : Reader (Option Bytes)).map .value
    | 1 => Reader.pure .written
    | 2 => Reader.pure .deleted
    | 3 => (read : Reader (List (Bytes × Bytes))).bind fun items =>
      (read : Reader (Option KeyRange)).map fun remaining => .range items remaining
    | 4 => (read : Reader String).map .unsupported
    | 5 => Reader.pure .duplicate
    | 6 => (read : Reader String).map .unavailable
    | 7 => (read : Reader String).map .failed
    | n => Reader.fail (.alternative n 8)

instance : Encode Answer where
  put a := put a.id ++ put a.response ++ put a.delta
  read := (read : Reader UInt64).bind fun id => (read : Reader Response).bind fun response =>
    (read : Reader SizeDelta).map fun delta => ⟨id, response, delta⟩

/-! ## The log -/

instance : Encode Reconfigure where
  put r := put r.view ++ put r.quorum ++ put r.versionId ++ put r.responsibility
  read := (read : Reader View).bind fun view => (read : Reader UInt64).bind fun quorum =>
    (read : Reader UInt64).bind fun versionId => (read : Reader KeyRange).map fun responsibility =>
      ⟨view, quorum, versionId, responsibility⟩

instance : Encode LogValue where
  put
    | .noop => putTag 0
    | .reconfigure r => putTag 1 ++ put r
    | .operation op => putTag 2 ++ put op
  read := readTag.bind fun
    | 0 => Reader.pure .noop
    | 1 => (read : Reader Reconfigure).map .reconfigure
    | 2 => (read : Reader Operation).map .operation
    | n => Reader.fail (.alternative n 3)

instance : Encode LogRequest where
  put
    | .propose v => putTag 0 ++ put v
    | .prune p => putTag 1 ++ put p
  read := readTag.bind fun
    | 0 => (read : Reader LogValue).map .propose
    | 1 => (read : Reader UInt64).map .prune
    | n => Reader.fail (.alternative n 2)

/-- The only indication there is still carries the number of its alternative. -/
instance : Encode LogIndication where
  put i := putTag 0 ++ put i.position ++ put i.value
  read := readTag.bind fun
    | 0 => (read : Reader UInt64).bind fun position =>
      (read : Reader LogValue).map fun value => ⟨position, value⟩
    | n => Reader.fail (.alternative n 1)

/-! ## Store items and messages -/

instance : Encode StoreItem where
  put i := put i.key ++ put i.value
  read := (read : Reader Bytes).bind fun key => (read : Reader (Option Bytes)).map fun value =>
    ⟨key, value⟩

instance : Encode TransferMetadata where
  put m := put m.range ++ put m.viewId ++ put m.compressed
  read := (read : Reader KeyRange).bind fun range => (read : Reader UInt64).bind fun viewId =>
    (read : Reader Bool).map fun compressed => ⟨range, viewId, compressed⟩

instance : Encode Message where
  put
    | .heartbeat => putTag 0
    | .ping id timestamp => putTag 1 ++ put id ++ put timestamp
    | .pong id timestamp => putTag 2 ++ put id ++ put timestamp
    | .initiateTransfer id metadata => putTag 3 ++ put id ++ put metadata
    | .ack id => putTag 4 ++ put id
    | .requestToSend id => putTag 5 ++ put id
    | .clearToSend id quota => putTag 6 ++ put id ++ put quota
    | .data id payload isFinal => putTag 7 ++ put id ++ put payload ++ put isFinal
    | .allReceived id => putTag 8 ++ put id
    | .forward operation replyTo => putTag 9 ++ put operation ++ put replyTo
    | .reply answer => putTag 10 ++ put answer
  read := readTag.bind fun
    | 0 => Reader.pure .heartbeat
    | 1 => (read : Reader UInt64).bind fun id => (read : Reader UInt64).map fun t => .ping id t
    | 2 => (read : Reader UInt64).bind fun id => (read : Reader UInt64).map fun t => .pong id t
    | 3 => (read : Reader UInt64).bind fun id =>
      (read : Reader TransferMetadata).map fun metadata => .initiateTransfer id metadata
    | 4 => (read : Reader UInt64).map .ack
    | 5 => (read : Reader UInt64).map .requestToSend
    | 6 => (read : Reader UInt64).bind fun id => (read : Reader UInt64).map fun quota =>
      .clearToSend id quota
    | 7 => (read : Reader UInt64).bind fun id => (read : Reader Bytes).bind fun payload =>
      (read : Reader Bool).map fun isFinal => .data id payload isFinal
    | 8 => (read : Reader UInt64).map .allReceived
    | 9 => (read : Reader Operation).bind fun operation =>
      (read : Reader NodeId).map fun replyTo => .forward operation replyTo
    | 10 => (read : Reader Answer).map .reply
    | n => Reader.fail (.alternative n 11)

instance : Encode Envelope where
  put e := put e.src ++ put e.dst ++ put e.message
  read := (read : Reader NodeId).bind fun src => (read : Reader NodeId).bind fun dst =>
    (read : Reader Message).map fun message => ⟨src, dst, message⟩

end ReplicaRing.Wire
