import ReplicaRing.Store.Scan
import ReplicaRing.Time.Duration
import ReplicaRing.Wire.Message

/-!
The two ends of a transfer: what the sender keeps of a session, what the receiver keeps, and how
a session is tuned. A receiver knows a session by its sender and number together.
-/

namespace ReplicaRing

structure TransferConfig where
  /-- The bytes granted at a time. -/
  quotaBytes : Nat := 1048576
  retryIntervalMs : Nat := 500
  /-- How much longer each wait is than the one before. -/
  backoffMultiplier : Float := 2.0
  maxRetryIntervalMs : Nat := 10000
  /-- Sends of one frame before giving up, zero for never. -/
  maxAttempts : Nat := 0
  compression : Bool := true

namespace TransferConfig

def retryInterval (c : TransferConfig) : Duration := Duration.ofMillis c.retryIntervalMs

def maxRetryInterval (c : TransferConfig) : Duration := Duration.ofMillis c.maxRetryIntervalMs

end TransferConfig

inductive SenderState where
  /-- The handshake is not acknowledged yet. -/
  | initialising
  /-- Waiting for a grant. -/
  | waiting
  /-- A page is on its way. -/
  | transferring
  /-- The final page was acknowledged. -/
  | done
  deriving DecidableEq, Repr, Inhabited

structure SenderSession where
  destination : NodeId
  metadata : TransferMetadata
  state : SenderState
  /-- Grants not served yet, in the order they came. -/
  grants : List UInt64
  /-- The last key sent; the next page starts above it. -/
  lastKey : Option Key
  finalSent : Bool
  /-- The frame that is sent again until it is answered. -/
  inFlight : Option Message
  attempts : Nat
  retryInterval : Duration
  bytesSent : Nat
  itemsSent : Nat
  stopped : Bool
  deriving DecidableEq

namespace SenderSession

def start (destination : NodeId) (metadata : TransferMetadata) (interval : Duration) :
    SenderSession :=
  ⟨destination, metadata, .initialising, [], none, false, none, 0, interval, 0, 0, false⟩

/-- The part of the range that was not sent yet. -/
def remaining (s : SenderSession) : KeyRange :=
  match s.lastKey with
  | some k => s.metadata.range.after k
  | none => s.metadata.range

end SenderSession

structure ReceiverSession where
  metadata : TransferMetadata
  /-- The highest key written; items up to it are skipped when a page comes again. -/
  lastKey : Option Key
  items : Nat
  bytes : Nat
  deriving DecidableEq

namespace ReceiverSession

def start (metadata : TransferMetadata) : ReceiverSession := ⟨metadata, none, 0, 0⟩

/-- Writes the items of a page that lie above the last key. A write that fails ends the page
there; what was written before it stays, in the store and in the session. -/
def writeItems : Store → ReceiverSession → List StoreItem → Store × ReceiverSession × Bool
  | store, s, [] => (store, s, true)
  | store, s, i :: rest =>
    if s.lastKey.any fun last => (compare i.key last).isLE then writeItems store s rest
    else
      let written := match i.value with
        | some v => store.put i.key v
        | none => store.delete i.key
      match written with
      | .error _ => (store, s, false)
      | .ok (store, _) =>
        writeItems store
          { s with items := s.items + 1, bytes := s.bytes + i.size, lastKey := some i.key } rest

end ReceiverSession

/-- A session as its receiver knows it. -/
structure PeerSession where
  peer : NodeId
  id : SessionId
  deriving DecidableEq, Repr, Inhabited

namespace PeerSession

instance : Ord PeerSession := ⟨compareLex (compareOn peer) (compareOn id)⟩

instance : Std.TransOrd PeerSession :=
  inferInstanceAs (Std.TransCmp (compareLex (compareOn peer) (compareOn id)))

instance : Std.LawfulEqOrd PeerSession where
  eq_of_compare {a b} h := by
    have h : (compare a.peer b.peer).then (compare a.id b.id) = .eq := h
    simp only [Ordering.then_eq_eq, Std.compare_eq_iff_eq] at h
    cases a; cases b; simp_all

end PeerSession

end ReplicaRing
