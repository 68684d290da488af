import ReplicaRing.Operation
import ReplicaRing.Node.Id

/-!
The messages that nodes exchange, each in an envelope that names its source and destination.
-/

namespace ReplicaRing

abbrev SessionId := UInt64

/-- What a transfer session moves. -/
structure TransferMetadata where
  range : KeyRange
  viewId : UInt64
  compressed : Bool
  deriving DecidableEq, Repr, Inhabited

inductive Message where
  | heartbeat
  /-- A round-trip probe; the timestamp means nothing to the receiver and comes back. -/
  | ping (id timestamp : UInt64)
  | pong (id timestamp : UInt64)
  | initiateTransfer (id : SessionId) (metadata : TransferMetadata)
  | ack (id : SessionId)
  | requestToSend (id : SessionId)
  /-- Grants a number of bytes. -/
  | clearToSend (id : SessionId) (quota : UInt64)
  /-- One page of the range. -/
  | data (id : SessionId) (payload : Bytes) (isFinal : Bool)
  | allReceived (id : SessionId)
  | forward (operation : Operation) (replyTo : NodeId)
  | reply (answer : Answer)
  deriving DecidableEq, Repr, Inhabited

/-- The part of a node that consumes a message. -/
inductive Lane where
  | liveness
  | transfer
  | client
  deriving DecidableEq, Repr

namespace Message

def typeName : Message → String
  | heartbeat => "Heartbeat"
  | ping _ _ => "Ping"
  | pong _ _ => "Pong"
  | initiateTransfer _ _ => "InitiateTransfer"
  | ack _ => "Ack"
  | requestToSend _ => "RequestToSend"
  | clearToSend _ _ => "ClearToSend"
  | data _ _ _ => "Data"
  | allReceived _ => "AllReceived"
  | forward _ _ => "Forward"
  | reply _ => "Reply"

def lane : Message → Lane
  | heartbeat | ping _ _ | pong _ _ => .liveness
  | initiateTransfer _ _ | ack _ | requestToSend _ | clearToSend _ _ | data _ _ _
  | allReceived _ => .transfer
  | forward _ _ | reply _ => .client

end Message

structure Envelope where
  src : NodeId
  dst : NodeId
  message : Message
  deriving DecidableEq, Repr, Inhabited

end ReplicaRing
