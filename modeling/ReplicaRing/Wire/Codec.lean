import ReplicaRing.Bytes
import ReplicaRing.Sorted.Set

/-!
The binary form of values, written and read side by side. Words are little-endian and of fixed
width; texts, byte strings, lists and sets carry a 64-bit length; an option is a byte zero or
one before its value; alternatives are numbered by a 32-bit word; the fields of a record follow
each other without padding. A reader takes what it needs and leaves the rest.
-/

namespace ReplicaRing.Wire

/-- Why bytes do not decode. -/
inductive DecodeError where
  /-- The input ends inside the value. -/
  | endOfInput
  /-- An option starts with neither zero nor one. -/
  | optionTag (tag : UInt8)
  /-- A truth value is neither zero nor one. -/
  | boolean (byte : UInt8)
  /-- A text is no UTF-8. -/
  | utf8
  /-- There is no alternative of that number. -/
  | alternative (number count : Nat)
  | custom (text : String)
  deriving DecidableEq, Repr

def DecodeError.message : DecodeError → String
  | endOfInput => "io error: "
  | optionTag t => "tag for enum is not valid, found " ++ toString t.toNat
  | boolean b => "invalid u8 while decoding bool, expected 0 or 1, found " ++ toString b.toNat
  | utf8 => "string is not valid utf8"
  | alternative n count =>
    "invalid value: integer \x60" ++ toString n ++ "\x60, expected variant index 0 <= i < " ++
      toString count
  | custom text => text

/-- Takes a value off the front of the input and returns what follows. -/
abbrev Reader (α : Type) := Bytes → Except DecodeError (α × Bytes)

/-- The binary form of a type's values. -/
class Encode (α : Type) where
  put : α → Bytes
  read : Reader α

export Encode (put read)

/-! ## Readers -/

/-- The value without reading anything. -/
def Reader.pure {α : Type} (a : α) : Reader α := fun b => .ok (a, b)

/-- One reader after the other, on what the first left over. -/
def Reader.bind {α β : Type} (r : Reader α) (f : α → Reader β) : Reader β := fun b =>
  match r b with
  | .error e => .error e
  | .ok (a, rest) => f a rest

def Reader.fail {α : Type} (e : DecodeError) : Reader α := fun _ => .error e

def Reader.map {α β : Type} (f : α → β) (r : Reader α) : Reader β :=
  r.bind fun a => Reader.pure (f a)

/-- A number of bytes, all or none of them. -/
def takeBytes (n : Nat) : Reader Bytes := fun b =>
  if n ≤ b.length then .ok (b.take n, b.drop n) else .error .endOfInput

/-- A little-endian number of the given width. -/
def readWord (width : Nat) : Reader Nat := (takeBytes width).map ofLittleEndian

/-- Reads a number of values one after the other, onto those already read. -/
def readMany {α : Type} (r : Reader α) : Nat → List α → Reader (List α)
  | 0, done => Reader.pure done.reverse
  | n + 1, done => r.bind fun a => readMany r n (a :: done)

/-! ## Words -/

instance : Encode UInt8 where
  put n := littleEndian 1 n.toNat
  read := (readWord 1).map UInt8.ofNat

instance : Encode UInt16 where
  put n := littleEndian 2 n.toNat
  read := (readWord 2).map UInt16.ofNat

instance : Encode UInt32 where
  put n := littleEndian 4 n.toNat
  read := (readWord 4).map UInt32.ofNat

instance : Encode UInt64 where
  put n := littleEndian 8 n.toNat
  read := (readWord 8).map UInt64.ofNat

instance : Encode Int64 where
  put n := put n.toUInt64
  read := (read : Reader UInt64).map UInt64.toInt64

instance : Encode Bool where
  put b := [if b then 1 else 0]
  read := (takeBytes 1).bind fun
    | [0] => Reader.pure false
    | [1] => Reader.pure true
    | b => Reader.fail (.boolean (b.headD 0))

/-! ## Compound values -/

/-- A length before that many values. -/
def putLength (n : Nat) : Bytes := littleEndian 8 n

def readLength : Reader Nat := readWord 8

instance : Encode String where
  put s := putLength s.utf8ByteSize ++ s.toByteArray.data.toList
  read := readLength.bind fun n => (takeBytes n).bind fun b =>
    match String.fromUTF8? ⟨b.toArray⟩ with
    | some s => Reader.pure s
    | none => Reader.fail .utf8

instance {α : Type} [Encode α] : Encode (List α) where
  put l := putLength l.length ++ l.flatMap put
  read := readLength.bind fun n => readMany read n []

/-- A set is written in ascending order; values that repeat when it is read count once. -/
instance {α : Type} [Ord α] [Std.TransOrd α] [Encode α] : Encode (SortedSet α) where
  put s := put s.toList
  read := (read : Reader (List α)).map SortedSet.ofList

instance {α : Type} [Encode α] : Encode (Option α) where
  put
    | none => [0]
    | some a => 1 :: put a
  read := (takeBytes 1).bind fun
    | [0] => Reader.pure none
    | [1] => (read : Reader α).map some
    | b => Reader.fail (.optionTag (b.headD 0))

instance {α β : Type} [Encode α] [Encode β] : Encode (α × β) where
  put p := put p.1 ++ put p.2
  read := (read : Reader α).bind fun a => (read : Reader β).map fun b => (a, b)

/-- The number of an alternative. -/
def putTag (n : Nat) : Bytes := littleEndian 4 n

def readTag : Reader Nat := readWord 4

/-- Decodes a value and ignores what follows it. -/
def decode {α : Type} [Encode α] (b : Bytes) : Except DecodeError α :=
  match (read : Reader α) b with
  | .error e => .error e
  | .ok (a, _) => .ok a

end ReplicaRing.Wire
