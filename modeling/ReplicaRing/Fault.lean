import ReplicaRing.Node.Id
import ReplicaRing.Wire.Codec

/-!
Everything that can go wrong, by cause, and the one place where a cause gets its wording.
-/

namespace ReplicaRing

/-- What is wrong with a frame, other than its body. -/
inductive FrameError where
  | tooLong (length : Nat)
  | checksum
  | other (text : String)
  deriving DecidableEq, Repr

def FrameError.message : FrameError → String
  | tooLong n => "frame of " ++ toString n ++ " bytes exceeds limit"
  | checksum => "checksum mismatch"
  | other text => text

/-- Failures of reading and writing. -/
inductive IoError where
  | endOfStream
  | other (text : String)
  deriving DecidableEq, Repr

def IoError.message : IoError → String
  | endOfStream => "early eof"
  | other text => text

inductive Fault where
  | config (text : String)
  | configParse (text : String)
  | serialization (cause : Wire.DecodeError)
  | compression (text : String)
  | frameCorrupted (cause : FrameError)
  | staleView (proposed current : UInt64)
  | notLeader
  | nodeNotFound (node : String)
  | handshakeExhausted (destination : String) (attempts : Nat)
  | network (text : String)
  | connectionFailed (address reason : String)
  | connectionTimeout (address : String)
  | io (cause : IoError)
  | channelClosed (text : String)
  | internal (text : String)
  | shuttingDown
  deriving DecidableEq, Repr

namespace Fault

def message : Fault → String
  | config text => "Configuration error: " ++ text
  | configParse text => "Invalid configuration file: " ++ text
  | serialization cause => "Serialization error: " ++ cause.message
  | compression text => "Compression error: " ++ text
  | frameCorrupted cause => "Frame corrupted: " ++ cause.message
  | staleView proposed current =>
    "Stale view " ++ toString proposed.toNat ++ " (installed view is " ++
      toString current.toNat ++ ")"
  | notLeader => "Not the trusted leader"
  | nodeNotFound node => "Node not found: " ++ node
  | handshakeExhausted destination attempts =>
    "Transfer handshake to " ++ destination ++ " gave up after " ++ toString attempts ++
      " attempts"
  | network text => "Network error: " ++ text
  | connectionFailed address reason => "Connection failed to " ++ address ++ ": " ++ reason
  | connectionTimeout address => "Connection timeout to " ++ address
  | io cause => "I/O error: " ++ cause.message
  | channelClosed text => "Channel closed: " ++ text
  | internal text => "Internal error: " ++ text
  | shuttingDown => "Shutdown in progress"

/-- Trying again may help: the failures of connections and of the network. -/
def retryable : Fault → Bool
  | connectionTimeout _ | connectionFailed _ _ | network _ => true
  | _ => false

/-- A message was handed to a receiver that is gone. -/
def receiverGone : Fault := .channelClosed "receiver dropped"

end Fault

/-- A text that names no node is a configuration error. -/
def NodeId.read (s : String) : Except Fault NodeId :=
  (NodeId.parse s).mapError fun e => .config e.message

end ReplicaRing
