import ReplicaRing.Key.Range

/-!
What clients ask of the store and what they are answered. Operations travel to the replicas
through the log, so both sides of the exchange carry the number of the operation.
-/

namespace ReplicaRing

abbrev OperationId := UInt64

inductive OperationKind where
  | get (key : Key)
  | put (key : Key) (value : Bytes)
  | delete (key : Key)
  /-- Reads a range. A limit caps the items the caller wants; without one the whole range is
  meant, however many pages it takes. -/
  | rangeQuery (range : KeyRange) (limit : Option UInt64)
  /-- Something this library does not understand. -/
  | other (name : String) (payload : Bytes)
  deriving DecidableEq, Repr, Inhabited

structure Operation where
  id : OperationId
  kind : OperationKind
  deriving DecidableEq, Repr, Inhabited

/-- The part of the key space an operation touches. -/
inductive Target where
  | key (key : Key)
  | range (range : KeyRange)
  | unrouted
  deriving DecidableEq, Repr

/-- Whether a range takes in what an operation touches. What touches nothing is inside. -/
def KeyRange.admits (r : KeyRange) : Target → Bool
  | .key k => r.contains k
  | .range q => r.covers q
  | .unrouted => true

def OperationKind.target : OperationKind → Target
  | get k | put k _ | delete k => .key k
  | rangeQuery r _ => .range r
  | other _ _ => .unrouted

def Operation.target (op : Operation) : Target := op.kind.target

def Operation.typeName (op : Operation) : String :=
  match op.kind with
  | .get _ => "Get"
  | .put _ _ => "Put"
  | .delete _ => "Delete"
  | .rangeQuery _ _ => "RangeQuery"
  | .other _ _ => "Other"

/-- A change of the store's size, in bytes and in live keys. -/
structure SizeDelta where
  bytes : Int64
  keys : Int64
  deriving DecidableEq, Repr, Inhabited

def SizeDelta.zero : SizeDelta := ⟨0, 0⟩

instance : Add SizeDelta := ⟨fun a b => ⟨a.bytes + b.bytes, a.keys + b.keys⟩⟩

inductive Response where
  | value (value : Option Bytes)
  | written
  | deleted
  /-- A page of a range query. What is left of the range is named when the page ended before
  the range did. -/
  | range (items : List (Key × Bytes)) (remaining : Option KeyRange)
  | unsupported (text : String)
  /-- The operation was executed before. -/
  | duplicate
  | unavailable (text : String)
  | failed (text : String)
  deriving DecidableEq, Repr, Inhabited

/-- A response under the number of its operation, with the size change that it caused. -/
structure Answer where
  id : OperationId
  response : Response
  delta : SizeDelta
  deriving DecidableEq, Repr, Inhabited

/-- An answer that left the store as it was. -/
def Answer.unchanged (id : OperationId) (response : Response) : Answer := ⟨id, response, .zero⟩

end ReplicaRing
