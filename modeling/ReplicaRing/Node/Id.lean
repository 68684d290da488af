import ReplicaRing.Checksum
import ReplicaRing.Text.Decimal

/-!
The identity of a replica: host, port and, for one of several replicas in a process, a
virtual-node number. Identities are ordered by host, then port, then virtual node, and this
order is also the order of the ring.
-/

namespace ReplicaRing

structure NodeId where
  host : String
  port : UInt16
  vnode : Option UInt32
  deriving DecidableEq, Repr, Inhabited

namespace NodeId

/-! ## Order -/

/-- Host by code points, then port, then virtual node with none first. -/
instance : Ord NodeId :=
  ⟨compareLex (compareOn host) (compareLex (compareOn port) (compareOn vnode))⟩

instance : Std.TransOrd NodeId :=
  inferInstanceAs (Std.TransCmp
    (compareLex (compareOn host) (compareLex (compareOn port) (compareOn vnode))))

instance : Std.LawfulEqOrd NodeId where
  eq_of_compare {a b} h := by
    have h : (compare a.host b.host).then
        ((compare a.port b.port).then (compare a.vnode b.vnode)) = .eq := h
    simp only [Ordering.then_eq_eq, Std.compare_eq_iff_eq] at h
    cases a; cases b; simp_all

/-! ## Text form -/

/-- The network address of the process that hosts the node. -/
def address (n : NodeId) : String := n.host ++ ":" ++ toString n.port.toNat

/-- The node that hosts this one, which is itself unless it is virtual. -/
def physical (n : NodeId) : NodeId := { n with vnode := none }

def render (n : NodeId) : String :=
  match n.vnode with
  | some v => n.address ++ "#" ++ toString v.toNat
  | none => n.address

/-- What is wrong with a text that names no node. -/
inductive ParseError where
  | vnode (text : String)
  | shape (text : String)
  | port (text : String)
  | emptyHost (text : String)
  deriving DecidableEq, Repr

def ParseError.message : ParseError → String
  | vnode s => "invalid vnode suffix in '" ++ s ++ "'"
  | shape s => "node id '" ++ s ++ "' must be host:port"
  | port s => "invalid port in '" ++ s ++ "'"
  | emptyHost s => "empty host in '" ++ s ++ "'"

/-- Splits at the first occurrence of a character, which belongs to neither part. -/
def splitFirst (c : Char) : List Char → Option (List Char × List Char)
  | [] => none
  | x :: rest =>
    if x = c then some ([], rest)
    else (splitFirst c rest).map fun (before, after) => (x :: before, after)

/-- Splits at the last occurrence of a character, which belongs to neither part. -/
def splitLast (c : Char) (s : List Char) : Option (List Char × List Char) :=
  (splitFirst c s.reverse).map fun (after, before) => (before.reverse, after.reverse)

/-- Reads `host:port` or `host:port#vnode`. The virtual node is split off at the first `#` and
checked first, the port at the last `:`; the host may be anything but empty. -/
def parse (s : String) : Except ParseError NodeId := do
  let (place, vnode) ← match splitFirst '#' s.toList with
    | none => pure (s.toList, none)
    | some (place, suffix) =>
      match Decimal.read? (0xffffffff) suffix with
      | some v => pure (place, some (UInt32.ofNat v))
      | none => throw (.vnode s)
  match splitLast ':' place with
  | none => throw (.shape s)
  | some (host, port) =>
    match Decimal.read? (0xffff) port with
    | none => throw (.port s)
    | some p =>
      if host.isEmpty then throw (.emptyHost s)
      else return ⟨String.ofList host, UInt16.ofNat p, vnode⟩

/-- The checksum of the text form folded into sixteen bits. -/
def hash16 (n : NodeId) : UInt16 :=
  let crc := crc32 n.render.toUTF8.data.toList
  ((crc >>> 16) ^^^ (crc &&& 0xffff)).toUInt16

end NodeId

end ReplicaRing
