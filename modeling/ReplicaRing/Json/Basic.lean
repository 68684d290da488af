import ReplicaRing.Bytes

/-!
JSON values, with the text of a number kept as it was written, and the class of types that have
a JSON form. Reading and writing of a form stand side by side.
-/

namespace ReplicaRing

/-- A JSON value. The fields of an object keep their order, and a number its literal. -/
inductive Json where
  | null
  | bool (value : Bool)
  | number (literal : String)
  | string (text : String)
  | array (items : List Json)
  | object (fields : List (String × Json))
  deriving Inhabited

/-- A type whose values have a JSON form. -/
class JsonForm (α : Type) where
  toJson : α → Json
  ofJson? : Json → Except String α

namespace Json

/-! ## Objects -/

/-- A field that is there and not null. -/
def get? (j : Json) (name : String) : Option Json :=
  match j with
  | object fields =>
    match (fields.find? fun f => f.1 == name).map Prod.snd with
    | some null => none
    | value => value
  | _ => none

/-- The value of a form. -/
def «of» {α : Type} [JsonForm α] (a : α) : Json := JsonForm.toJson a

/-- Reads a value in its form. -/
def as {α : Type} [JsonForm α] (j : Json) : Except String α := JsonForm.ofJson? j

/-- Reads a field that must be there. -/
def field {α : Type} [JsonForm α] (j : Json) (name : String) : Except String α :=
  match j.get? name with
  | some v => v.as
  | none => .error ("missing " ++ name)

/-- Reads a field that may be absent or null. -/
def field? {α : Type} [JsonForm α] (j : Json) (name : String) : Except String (Option α) :=
  match j.get? name with
  | some v => v.as.map some
  | none => .ok none

/-- Reads a field, with a value for the case that it is absent. -/
def fieldD {α : Type} [JsonForm α] (j : Json) (name : String) (absent : α) : Except String α := do
  return (← j.field? name).getD absent

/-- A field to write. -/
def entry {α : Type} [JsonForm α] (name : String) (a : α) : String × Json := (name, JsonForm.toJson a)

end Json

/-! ## Forms of plain types -/

instance : JsonForm Json := ⟨id, .ok⟩

instance : JsonForm Bool where
  toJson := .bool
  ofJson?
    | .bool b => .ok b
    | _ => .error "expected a truth value"

instance : JsonForm String where
  toJson := .string
  ofJson?
    | .string s => .ok s
    | _ => .error "expected a string"

instance : JsonForm Int where
  toJson n := .number (toString n)
  ofJson?
    | .number t => t.toInt?.elim (.error "expected an integer") .ok
    | _ => .error "expected an integer"

instance : JsonForm Nat where
  toJson n := .number (toString n)
  ofJson?
    | .number t => t.toNat?.elim (.error "expected a natural number") .ok
    | _ => .error "expected a natural number"

instance : JsonForm UInt16 where
  toJson n := .of n.toNat
  ofJson? j := (j.as : Except String Nat).map UInt16.ofNat

instance : JsonForm UInt32 where
  toJson n := .of n.toNat
  ofJson? j := (j.as : Except String Nat).map UInt32.ofNat

instance : JsonForm UInt64 where
  toJson n := .of n.toNat
  ofJson? j := (j.as : Except String Nat).map UInt64.ofNat

instance : JsonForm Int64 where
  toJson n := .of n.toInt
  ofJson? j := (j.as : Except String Int).map Int64.ofInt

/-- Byte strings are written in hexadecimal. -/
instance : JsonForm Bytes where
  toJson b := .string b.toHex
  ofJson?
    | .string s => (Bytes.ofHex? s).elim (.error "expected hexadecimal digits") .ok
    | _ => .error "expected hexadecimal digits"

instance {α : Type} [JsonForm α] : JsonForm (Option α) where
  toJson
    | some a => .of a
    | none => .null
  ofJson?
    | .null => .ok none
    | j => j.as.map some

instance {α : Type} [JsonForm α] : JsonForm (List α) where
  toJson l := .array (l.map Json.of)
  ofJson?
    | .array l => l.mapM Json.as
    | _ => .error "expected an array"

instance {α β : Type} [JsonForm α] [JsonForm β] : JsonForm (α × β) where
  toJson p := .array [.of p.1, .of p.2]
  ofJson?
    | .array [a, b] => do return (← a.as, ← b.as)
    | _ => .error "expected a pair"

instance {α β γ : Type} [JsonForm α] [JsonForm β] [JsonForm γ] : JsonForm (α × β × γ) where
  toJson p := .array [.of p.1, .of p.2.1, .of p.2.2]
  ofJson?
    | .array [a, b, c] => do return (← a.as, ← b.as, ← c.as)
    | _ => .error "expected three values"

end ReplicaRing
