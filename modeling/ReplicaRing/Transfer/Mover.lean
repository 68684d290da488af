import ReplicaRing.Transfer.Session
import ReplicaRing.Transfer.RecentSet
import ReplicaRing.Transfer.Page
import ReplicaRing.Liveness.Detector
import ReplicaRing.Node.Ids
import ReplicaRing.Time.Timers

/-!
The data mover brings key ranges from node to node and plays both parts of the protocol. The
sender opens a session, waits for its acknowledgement, asks for a grant, and sends a page within
it; the receiver writes the page, acknowledges it, and the round starts over until a page is the
last. Whatever the sender waits on an answer for is sent again on a timer, at growing intervals,
and the receiver takes repeated frames in its stride.
-/

namespace ReplicaRing

inductive MoverCommand where
  /-- Brings a range to a node, in place of any session to it. -/
  | startSend (destination : NodeId) (range : KeyRange) (viewId : UInt64)
  | stopSend (destination : NodeId)
  | stopAll
  deriving DecidableEq, Repr, Inhabited

inductive MoverEvent where
  /-- The final page of an inbound transfer was written. -/
  | transferComplete (session : SessionId) (source : NodeId) (metadata : TransferMetadata)
      (items bytes : Nat)
  | sendFinished (session : SessionId) (destination : NodeId) (items bytes : Nat)
  | sendFailed (session : SessionId) (destination : NodeId) (reason : String)
  deriving DecidableEq, Repr, Inhabited

structure Mover where
  self : NodeId
  config : TransferConfig
  /-- How pages are compressed that are to be. -/
  compressor : BlockCompression.Compressor
  store : Store
  ids : IdSource
  /-- Retransmission timeouts by destination, as the failure detector publishes them. -/
  timeouts : TimeoutMap
  /-- The retransmission timers, by session. -/
  timers : Timers SessionId SessionId
  outbound : SortedMap SessionId SenderSession
  /-- The outbound session to each destination. -/
  byDestination : SortedMap NodeId SessionId
  /-- Outbound sessions that ended. -/
  finished : RecentSet SessionId
  /-- Stopped sessions that are still to be dropped. -/
  teardown : List SessionId
  inbound : SortedMap PeerSession ReceiverSession
  /-- Inbound sessions that ended. -/
  completed : RecentSet PeerSession

namespace Mover

inductive Input where
  | command (command : MoverCommand)
  /-- A transfer frame from another node. -/
  | inbound (source : NodeId) (message : Message)
  /-- The retransmission timer of a session. -/
  | retry (session : SessionId)

inductive Output where
  | send (envelope : Envelope)
  | event (event : MoverEvent)
  deriving DecidableEq

/-- What stops a mover for good. -/
inductive Crash where
  /-- A retransmission interval grew beyond every duration, or became no number. -/
  | backoffOverflow
  deriving DecidableEq, Repr

/-- How many ended sessions are remembered, so that late frames of theirs can be told. -/
def recentSessions : Nat := 1024

def start (self : NodeId) (config : TransferConfig) (store : Store) (ids : IdSource)
    (compressor : BlockCompression.Compressor := .literal) : Mover :=
  ⟨self, config, compressor, store, ids, ∅, .empty, ∅, ∅, .empty recentSessions, [], ∅,
    .empty recentSessions⟩

def sendTo (m : Mover) (dst : NodeId) (message : Message) : Output := .send ⟨m.self, dst, message⟩

/-- The state of the session to a destination. -/
def senderState? (m : Mover) (destination : NodeId) : Option SenderState := do
  let id ← m.byDestination.get? destination
  let s ← m.outbound.get? id
  return s.state

def setSession (m : Mover) (id : SessionId) (s : SenderSession) : Mover :=
  { m with outbound := m.outbound.insert id s }

/-- The first wait for an answer: the configured interval or, if that is longer, the timeout of
the destination. -/
def baseInterval (m : Mover) (destination : NodeId) : Duration :=
  match m.timeouts.get? destination with
  | some timeout => max m.config.retryInterval timeout
  | none => m.config.retryInterval

/-! ## Ending sessions -/

/-- Stops a session: its frames and timers cease, and it waits to be dropped. -/
def stop (m : Mover) (id : SessionId) : Mover :=
  match m.outbound.get? id with
  | none => m
  | some s =>
    if s.stopped then m
    else
      { m.setSession id { s with stopped := true, inFlight := none } with
        timers := m.timers.cancel id
        teardown := m.teardown ++ [id] }

/-- Drops a stopped session, and its destination's entry if it is the session's own. -/
def dropSession (m : Mover) (id : SessionId) : Mover :=
  match m.outbound.get? id with
  | none => m
  | some s =>
    { m with
      outbound := m.outbound.erase id
      byDestination :=
        if m.byDestination.get? s.destination = some id then m.byDestination.erase s.destination
        else m.byDestination
      finished := m.finished.insert id }

/-- Drops every session that was stopped. -/
def finishTeardown (m : Mover) : Mover :=
  m.teardown.foldl dropSession { m with teardown := [] }

/-- Ends a session with a reason. -/
def fail (m : Mover) (id : SessionId) (reason : String) : Mover × List Output :=
  match m.outbound.get? id with
  | none => (m, [])
  | some s => (m.stop id, [.event (.sendFailed id s.destination reason)])

/-! ## Sending -/

/-- Sends a frame that must be answered, and arms its retransmission. -/
def transmit (m : Mover) (id : SessionId) (message : Message) : Mover × List Output :=
  match m.outbound.get? id with
  | none => (m, [])
  | some s =>
    let base := m.baseInterval s.destination
    ({ m.setSession id { s with inFlight := some message, attempts := 1, retryInterval := base } with
        timers := m.timers.once id base id }, [m.sendTo s.destination message])

/-- Reads the next page within a quota and sends it. -/
def serve (m : Mover) (id : SessionId) (quota : UInt64) : Mover × List Output :=
  match m.outbound.get? id with
  | none => (m, [])
  | some s =>
    let s := { s with state := .transferring }
    match m.store.scan s.remaining ⟨none, some quota.toNat⟩ .all with
    | .error e => (m.setSession id s).fail id ("store scan failed: " ++ e.message)
    | .ok page =>
      let s := { s with
        finalSent := !page.more
        bytesSent := s.bytesSent + page.bytes
        itemsSent := s.itemsSent + page.items.length
        lastKey := page.lastKey? <|> s.lastKey }
      (m.setSession id s).transmit id
        (.data id (Page.encodeWith m.compressor page.items s.metadata.compressed) (!page.more))

/-- Serves the oldest grant, or asks for one. -/
def proceed (m : Mover) (id : SessionId) : Mover × List Output :=
  match m.outbound.get? id with
  | none => (m, [])
  | some s =>
    match s.grants with
    | quota :: grants => (m.setSession id { s with grants }).serve id quota
    | [] => m.transmit id (.requestToSend id)

/-- Opens a session under a fresh number. A session there is to the destination ends first. -/
def startSend (m : Mover) (destination : NodeId) (range : KeyRange) (viewId : UInt64) :
    Mover × List Output :=
  let m := match m.byDestination.get? destination with
    | some old => (m.stop old).finishTeardown
    | none => m
  let (id, ids) := m.ids.next
  let metadata := ⟨range, viewId, m.config.compression⟩
  let m := { m.setSession id (.start destination metadata (m.baseInterval destination)) with
    ids
    byDestination := m.byDestination.insert destination id }
  m.transmit id (.initiateTransfer id metadata)

/-- The unstopped session of that number, if its destination is the node that speaks of it. -/
def activeSession? (m : Mover) (src : NodeId) (id : SessionId) : Option SenderSession :=
  if m.finished.contains id then none
  else (m.outbound.get? id).filter fun s => !s.stopped && s.destination == src

/-- Takes the answered frame out of flight and moves the session on. -/
def answered (m : Mover) (id : SessionId) (s : SenderSession) (state : SenderState) : Mover :=
  { m.setSession id { s with state, inFlight := none } with timers := m.timers.cancel id }

def onAck (m : Mover) (src : NodeId) (id : SessionId) : Mover × List Output :=
  match m.activeSession? src id with
  | none => (m, [])
  | some s => if s.state = .initialising then (m.answered id s .waiting).proceed id else (m, [])

/-- A grant is served if one is waited for, and kept for later otherwise. -/
def onClearToSend (m : Mover) (src : NodeId) (id : SessionId) (quota : UInt64) :
    Mover × List Output :=
  match m.activeSession? src id with
  | none => (m, [])
  | some s =>
    match s.state with
    | .waiting => (m.answered id s .waiting).serve id quota
    | .initialising | .transferring =>
      (m.setSession id { s with grants := s.grants ++ [quota] }, [])
    | .done => (m, [])

/-- The page in flight was received; after the final one the session is done. -/
def onAllReceived (m : Mover) (src : NodeId) (id : SessionId) : Mover × List Output :=
  match m.activeSession? src id with
  | none => (m, [])
  | some s =>
    if s.state ≠ .transferring then (m, [])
    else if s.finalSent then
      ((m.setSession id { s with state := .done, inFlight := none }).stop id,
        [.event (.sendFinished id s.destination s.itemsSent s.bytesSent)])
    else (m.answered id s .waiting).proceed id

/-- Sends the frame in flight again after a longer wait, or gives the session up. -/
def onRetry (m : Mover) (id : SessionId) : Except Crash (Mover × List Output) :=
  match m.outbound.get? id with
  | none => .ok (m, [])
  | some s =>
    match s.inFlight with
    | none => .ok (m, [])
    | some message =>
      if s.stopped then .ok (m, [])
      else if 0 < m.config.maxAttempts && m.config.maxAttempts ≤ s.attempts then
        .ok (m.fail id (Fault.handshakeExhausted s.destination.render s.attempts).message)
      else
        match Duration.scale? s.retryInterval m.config.backoffMultiplier with
        | none => .error .backoffOverflow
        | some grown =>
          let interval := min grown m.config.maxRetryInterval
          let s := { s with attempts := s.attempts + 1, retryInterval := interval }
          .ok ({ m.setSession id s with timers := m.timers.once id interval id },
            [m.sendTo s.destination message])

/-! ## Receiving -/

/-- Opens a session unless there is or was one, and acknowledges in any case. -/
def onInitiate (m : Mover) (src : NodeId) (id : SessionId) (metadata : TransferMetadata) :
    Mover × List Output :=
  let key := ⟨src, id⟩
  let m :=
    if m.inbound.contains key || m.completed.contains key then m
    else { m with inbound := m.inbound.insert key (.start metadata) }
  (m, [m.sendTo src (.ack id)])

/-- An open session is granted the configured quota. -/
def onRequestToSend (m : Mover) (src : NodeId) (id : SessionId) : Mover × List Output :=
  if m.inbound.contains ⟨src, id⟩ then
    (m, [m.sendTo src (.clearToSend id (UInt64.ofNat m.config.quotaBytes))])
  else (m, [])

/-- Writes a page and acknowledges it. A page of a completed session is only acknowledged; a
page that does not decode, belongs to no session or cannot be written is not. -/
def onData (m : Mover) (src : NodeId) (id : SessionId) (payload : Bytes) (isFinal : Bool) :
    Mover × List Output :=
  let key : PeerSession := ⟨src, id⟩
  if m.completed.contains key then (m, [m.sendTo src (.allReceived id)])
  else
    match m.inbound.get? key with
    | none => (m, [])
    | some s =>
      match Page.decode payload s.metadata.compressed with
      | .error _ => (m, [])
      | .ok items =>
        let (store, s, written) := ReceiverSession.writeItems m.store s items
        let m := { m with store, inbound := m.inbound.insert key s }
        if !written then (m, [])
        else if isFinal then
          ({ m with inbound := m.inbound.erase key, completed := m.completed.insert key },
            [m.sendTo src (.allReceived id),
              .event (.transferComplete id src s.metadata s.items s.bytes)])
        else (m, [m.sendTo src (.allReceived id)])

/-! ## Inputs -/

def onMessage (m : Mover) (src : NodeId) : Message → Mover × List Output
  | .initiateTransfer id metadata => m.onInitiate src id metadata
  | .requestToSend id => m.onRequestToSend src id
  | .data id payload isFinal => m.onData src id payload isFinal
  | .ack id => m.onAck src id
  | .clearToSend id quota => m.onClearToSend src id quota
  | .allReceived id => m.onAllReceived src id
  | _ => (m, [])

def onCommand (m : Mover) : MoverCommand → Mover × List Output
  | .startSend destination range viewId => m.startSend destination range viewId
  | .stopSend destination =>
    match m.byDestination.get? destination with
    | some id => (m.stop id, [])
    | none => (m, [])
  | .stopAll => (m.outbound.keys.foldl stop m, [])

/-- Handles an input, then drops the sessions that it stopped. -/
def handle (m : Mover) (input : Input) : Except Crash (Mover × List Output) := do
  let (m, out) ← match input with
    | .command c => pure (m.onCommand c)
    | .inbound src message => pure (m.onMessage src message)
    | .retry id => m.onRetry id
  return (m.finishTeardown, out)

end Mover

end ReplicaRing
