import ReplicaRing.Fault
import ReplicaRing.Sorted.Map
import ReplicaRing.Wire.Message

/-!
Connections to other nodes, one to an address and kept for the next envelope. A connection whose
peer hung up is found dead by the next send, which connects anew.
-/

namespace ReplicaRing

/-- What an attempt to connect to an address comes to. -/
abbrev Dial := String → Except Fault Unit

structure ConnectionPool where
  /-- The connections by address, each with whether its peer still reads. -/
  links : SortedMap String Bool

namespace ConnectionPool

def empty : ConnectionPool := ⟨∅⟩

def size (p : ConnectionPool) : Nat := p.links.size

/-- Whether an envelope to the address would go out on a connection that is open. -/
def isConnected (p : ConnectionPool) (address : String) : Bool := p.links.get? address = some true

/-- The peer at an address closes its end. -/
def hangUp (p : ConnectionPool) (address : String) : ConnectionPool :=
  if p.links.contains address then ⟨p.links.insert address false⟩ else p

/-- Sends on the connection there is, or on a new one. A failed attempt to connect leaves none. -/
def send (p : ConnectionPool) (dial : Dial) (e : Envelope) : ConnectionPool × Except Fault Unit :=
  let address := e.dst.address
  if p.isConnected address then (p, .ok ())
  else
    let p : ConnectionPool := ⟨p.links.erase address⟩
    match dial address with
    | .error fault => (p, .error fault)
    | .ok () => (⟨p.links.insert address true⟩, .ok ())

end ConnectionPool

end ReplicaRing
