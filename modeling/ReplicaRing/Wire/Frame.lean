import ReplicaRing.Wire.Format
import ReplicaRing.Checksum
import ReplicaRing.Fault

/-!
Frames carry envelopes over a byte stream: a header with the length and checksum of the body,
then the body. A body that does not decode spoils its own frame only; what comes after it is
still in step.
-/

namespace ReplicaRing.Wire

/-- Length and checksum of a body. -/
structure FrameHeader where
  length : UInt32
  checksum : UInt32
  deriving DecidableEq, Repr, Inhabited

namespace FrameHeader

/-- The bytes a header takes. -/
def size : Nat := 8

def ofBody (body : Bytes) : FrameHeader := ⟨UInt32.ofNat body.length, crc32 body⟩

def toBytes (h : FrameHeader) : Bytes := put h.length ++ put h.checksum

/-- Reads a header off the first eight bytes. -/
def ofBytes (b : Bytes) : FrameHeader :=
  ⟨UInt32.ofNat (ofLittleEndian (b.take 4)), UInt32.ofNat (ofLittleEndian ((b.drop 4).take 4))⟩

end FrameHeader

/-- Bodies longer than this are refused before they are read. -/
def maxFrameSize : UInt32 := 64 * 1024 * 1024

/-- The bytes of an envelope on a stream. -/
def frame (e : Envelope) : Bytes :=
  let body := put e
  (FrameHeader.ofBody body).toBytes ++ body

/-- Reads one frame. What is left of the stream is returned in every case; a read that runs past
the end takes all there is. -/
def readFrame (stream : Bytes) : Except Fault Envelope × Bytes :=
  if stream.length < FrameHeader.size then (.error (.io .endOfStream), [])
  else
    let header := FrameHeader.ofBytes stream
    let stream := stream.drop FrameHeader.size
    if maxFrameSize < header.length then
      (.error (.frameCorrupted (.tooLong header.length.toNat)), stream)
    else if stream.length < header.length.toNat then (.error (.io .endOfStream), [])
    else
      let body := stream.take header.length.toNat
      let stream := stream.drop header.length.toNat
      if crc32 body ≠ header.checksum then (.error (.frameCorrupted .checksum), stream)
      else ((decode body).mapError .serialization, stream)

/-- What reading frame after frame comes to. -/
structure StreamReading where
  envelopes : List Envelope
  ending : Fault
  left : Bytes

/-- Reads frames up to the first failure. Every frame takes at least its header, so fuel of the
stream's length is enough. -/
def readFramesUpTo : Nat → Bytes → StreamReading
  | 0, stream => ⟨[], .io .endOfStream, stream⟩
  | fuel + 1, stream =>
    match readFrame stream with
    | (.error e, rest) => ⟨[], e, rest⟩
    | (.ok envelope, rest) =>
      let reading := readFramesUpTo fuel rest
      { reading with envelopes := envelope :: reading.envelopes }

def readFrames (stream : Bytes) : StreamReading := readFramesUpTo (stream.length + 1) stream

/-- What a server takes from a connection: frames whose body does not decode are skipped, any
other failure ends the connection. -/
def receiveUpTo : Nat → Bytes → List Envelope
  | 0, _ => []
  | fuel + 1, stream =>
    match readFrame stream with
    | (.ok envelope, rest) => envelope :: receiveUpTo fuel rest
    | (.error (.serialization _), rest) => receiveUpTo fuel rest
    | (.error _, _) => []

def receive (stream : Bytes) : List Envelope := receiveUpTo (stream.length + 1) stream

end ReplicaRing.Wire
