import ReplicaRing.Proofs.PageForm
import ReplicaRing.Proofs.PageOrder

/-!
Two movers and a wire that keeps nothing to itself. Every frame that was ever sent may reach its
destination at any later time, any number of times or never, and any retransmission timer may fire
at any time. Beside the movers a link keeps what is needed to speak of one session: what it was
opened with, the frames sent so far, and what the receiver took of it since it opened the session.
-/

namespace ReplicaRing

/-- Whether a message is a page of a session. -/
def Message.isPageOf (id : SessionId) : Message → Bool
  | data id' _ _ => id' == id
  | _ => false

/-- What a session is opened with: where it goes, what it brings, the store it is read from and how
its pages are compressed. -/
structure Opening where
  destination : NodeId
  metadata : TransferMetadata
  store : Store
  compressor : BlockCompression.Compressor

/-- The pages of a session among some frames, as its sender sent them. -/
def pagesIn (id : SessionId) (self : NodeId) (sent : List Envelope) : List Message :=
  (sent.filter fun e => e.src == self && e.message.isPageOf id).map Envelope.message

namespace Opening

/-- The entries that the session is to bring. -/
def entries (o : Opening) : List StoreItem := o.store.matching o.metadata.range .all

/-- The entries can be told from their payloads. -/
def Legible (o : Opening) : Prop :=
  Page.Legible o.compressor o.entries o.metadata.compressed

/-- The frame of a page. -/
def frame (o : Opening) (id : SessionId) (page : List StoreItem × Bool) : Message :=
  .data id (Page.encodeWith o.compressor page.1 o.metadata.compressed) page.2

end Opening

/-- What other parts of a node may change about a mover between its inputs. -/
structure Surroundings where
  store : Store
  ids : IdSource
  timeouts : TimeoutMap
  now : Duration

def Mover.amid (m : Mover) (w : Surroundings) : Mover :=
  { m with
    store := w.store
    ids := w.ids
    timeouts := w.timeouts
    timers := { m.timers with now := w.now } }

/-- What happens around a mover concerns neither its sessions nor its name. -/
lemma Mover.Tidy.amid {m : Mover} (h : m.Tidy) (w : Surroundings) : (m.amid w).Tidy := ⟨h.1, h.2⟩

/-- Two movers, with a record of one session from the first to the second. -/
structure Link where
  sender : Mover
  receiver : Mover
  /-- Every frame that was sent, by either. -/
  sent : List Envelope
  opened : Option Opening
  /-- What the receiver took of the session since it opened it. -/
  receptions : List Reception

namespace Link

inductive Event where
  | sender (input : Mover.Input)
  | receiver (input : Mover.Input)
  | amidSender (w : Surroundings)
  | amidReceiver (w : Surroundings)

def start (sender receiver : Mover) : Link := ⟨sender, receiver, [], none, []⟩

/-- A frame from one mover reaches the other only if it was sent. Frames of other nodes, commands
and timers come at will. -/
def carries (l : Link) (src dst : NodeId) : Mover.Input → Bool
  | .inbound n message => n != src || l.sent.contains ⟨src, dst, message⟩
  | _ => true

section

variable (id : SessionId)

/-- The session as its receiver knows it. -/
def key (l : Link) : PeerSession := ⟨l.sender.self, id⟩

/-- The pages sent in the session, in the order in which they were first sent. -/
def pageFrames (l : Link) : List Message := (pagesIn id l.sender.self l.sent).eraseDups

/-- Whether the sender's store may come to hold some entries: while the session is open, it holds
the same. -/
def mayHold (l : Link) (entries : SortedMap Key (Option Bytes)) : Bool :=
  !l.sender.outbound.contains id || entries == l.sender.store.entries

/-- The sender handles an input. The number of the session is drawn only once. -/
def stepSender (l : Link) (input : Mover.Input) : Option (Link × List Mover.Output) :=
  if l.carries l.receiver.self l.sender.self input then
    match l.sender.handle input with
    | .error _ => none
    | .ok (m, out) =>
      let opening := (l.sender.opening? input id).map fun o =>
        Opening.mk o.1 o.2 l.sender.store l.sender.compressor
      if l.mayHold id m.store.entries && !(opening.isSome && l.opened.isSome) then
        some ({ l with
          sender := m
          sent := l.sent ++ Mover.envelopes out
          opened := opening.or l.opened }, out)
      else none
  else none

/-- The receiver handles an input. What it took of the session counts from its opening. -/
def stepReceiver (l : Link) (input : Mover.Input) : Option (Link × List Mover.Output) :=
  if l.carries l.sender.self l.receiver.self input then
    match l.receiver.handle input with
    | .error _ => none
    | .ok (m, out) =>
      some ({ l with
        receiver := m
        sent := l.sent ++ Mover.envelopes out
        receptions :=
          (if l.receiver.inbound.contains (l.key id) then l.receptions else []) ++
            (l.receiver.receptionOf (l.key id) input).toList }, out)
  else none

/-- One event, with what the mover concerned puts out. -/
def step (l : Link) : Event → Option (Link × List Mover.Output)
  | .sender input => l.stepSender id input
  | .receiver input => l.stepReceiver id input
  | .amidSender w =>
    if l.mayHold id w.store.entries then some ({ l with sender := l.sender.amid w }, []) else none
  | .amidReceiver w => some ({ l with receiver := l.receiver.amid w }, [])

/-- Events one after the other; none if one of them cannot happen. -/
def run (l : Link) : List Event → Option Link
  | [] => some l
  | event :: rest => (l.step id event).bind fun r => run r.1 rest

end

end Link

end ReplicaRing
