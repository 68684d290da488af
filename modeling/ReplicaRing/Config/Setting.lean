import ReplicaRing.Config.Basic
import ReplicaRing.Json.Basic
import ReplicaRing.Toml.Parser

/-!
Configurations as trees of settings, the common ground of the notations they are written in.
Settings that are not known are passed over, those that are missing take their default, and a
record may also be given as the list of its settings in order.
-/

namespace ReplicaRing.Config

/-- A setting, or a group of settings, before it is known what they are for. -/
inductive Setting where
  | null
  | flag (b : Bool)
  | whole (n : Int)
  | real (x : Float)
  | text (s : String)
  | list (items : List Setting)
  | record (fields : List (String × Setting))
  deriving Inhabited

/-- What notations differ in. -/
structure Manner where
  /-- Whether the list of a record's settings may go on after the last one. -/
  surplus : Bool

namespace Setting

/-! ## From TOML -/

mutual

/-- A date or time is a record without any known setting. -/
def ofToml : Toml.Value → Setting
  | .string s => .text s
  | .integer n => .whole n
  | .float x => .real x
  | .boolean b => .flag b
  | .datetime _ => .record []
  | .array items => .list (ofTomlItems items)
  | .table fields => .record (ofTomlFields fields)

def ofTomlItems : List Toml.Value → List Setting
  | [] => []
  | v :: rest => ofToml v :: ofTomlItems rest

def ofTomlFields : List (String × Toml.Value) → List (String × Setting)
  | [] => []
  | (name, v) :: rest => (name, ofToml v) :: ofTomlFields rest

end

def tomlManner : Manner := ⟨true⟩

/-! ## From JSON -/

/-- A number without fraction and exponent is whole if it fits 64 bits, and real otherwise; the
negative zero is real. -/
def ofLiteral (literal : String) : Setting :=
  let real : Setting :=
    match Decimal.readFloat? literal.toList with
    | some x => .real x
    | none => .null
  match literal.toInt? with
  | some n => if literal = "-0" ∨ n < -(1 <<< 63 : Nat) ∨ (1 <<< 64 : Nat) ≤ n then real else .whole n
  | none => real

mutual

def ofJson : Json → Setting
  | .null => .null
  | .bool b => .flag b
  | .number literal => ofLiteral literal
  | .string s => .text s
  | .array items => .list (ofJsonItems items)
  | .object fields => .record (ofJsonFields fields)

def ofJsonItems : List Json → List Setting
  | [] => []
  | v :: rest => ofJson v :: ofJsonItems rest

def ofJsonFields : List (String × Json) → List (String × Setting)
  | [] => []
  | (name, v) :: rest => (name, ofJson v) :: ofJsonFields rest

end

def jsonManner : Manner := ⟨false⟩

/-! ## Reading settings -/

/-- Settings by name. -/
abbrev Settings := String → Option Setting

def mismatch (expected : String) : Fault := .configParse ("expected " ++ expected)

/-- The settings of a record that has so many, by name or in order. -/
def settings (m : Manner) (names : List String) : Setting → Except Fault Settings
  | .record fields => .ok fun name => fields.lookup name
  | .list items =>
    if m.surplus || items.length ≤ names.length then .ok fun name => (names.zip items).lookup name
    else .error (mismatch "fewer settings")
  | _ => .error (mismatch "a group of settings")

/-- A setting that must be there. -/
def required {α : Type} (s : Settings) (name : String) (read : Setting → Except Fault α) :
    Except Fault α :=
  match s name with
  | some t => read t
  | none => .error (.configParse ("missing " ++ name))

/-- A setting with a default. -/
def optional {α : Type} (s : Settings) (name : String) (default : α)
    (read : Setting → Except Fault α) : Except Fault α :=
  match s name with
  | some t => read t
  | none => .ok default

def readFlag : Setting → Except Fault Bool
  | .flag b => .ok b
  | _ => .error (mismatch "a truth value")

def readText : Setting → Except Fault String
  | .text s => .ok s
  | _ => .error (mismatch "a text")

/-- A natural number of so many bits. -/
def readNat (bits : Nat) : Setting → Except Fault Nat
  | .whole n =>
    if 0 ≤ n ∧ n < (1 <<< bits : Nat) then .ok n.toNat else .error (mismatch "a natural number in range")
  | _ => .error (mismatch "a natural number")

/-- A real number; a whole one will do. -/
def readReal : Setting → Except Fault Float
  | .real x => .ok x
  | .whole n => .ok (Float.ofInt n)
  | _ => .error (mismatch "a number")

def readTexts : Setting → Except Fault (List String)
  | .list items => items.mapM readText
  | _ => .error (mismatch "a list of texts")

end Setting

end ReplicaRing.Config
