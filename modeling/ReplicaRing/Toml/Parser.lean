import ReplicaRing.Toml.Number
import ReplicaRing.Toml.Table
import ReplicaRing.Toml.Text

/-!
TOML documents, read line by line: headers open tables, and assignments fill the table that was
opened last.
-/

namespace ReplicaRing.Toml

/-- Arrays, inline tables and dotted keys go less deep than this. -/
def maxDepth : Nat := 80

/-! ## Keys -/

def isBareKeyChar (c : Char) : Bool := c.isAlphanum || c == '_' || c == '-'

/-- A bare key, or a one-line string. -/
def simpleKey? : List Char → Option (String × List Char)
  | '"' :: rest => basicBody (rest.length + 1) [] rest
  | '\'' :: rest => literalBody rest
  | text =>
    match text.takeWhile isBareKeyChar with
    | [] => none
    | key => some (String.ofList key, text.dropWhile isBareKeyChar)

/-- Keys between dots, with blanks around each. -/
def dottedKey? : Nat → List Char → Option (List String × List Char)
  | 0, _ => none
  | fuel + 1, text => do
    let (key, rest) ← simpleKey? (skipBlanks text)
    match skipBlanks rest with
    | '.' :: rest => do
      let (path, rest) ← dottedKey? fuel rest
      return (key :: path, rest)
    | rest => return ([key], rest)

def key? (text : List Char) : Option (List String × List Char) := dottedKey? (maxDepth - 1) text

/-! ## Values -/

mutual

/-- Reads a value that stands in so many arrays and inline tables. -/
def value? : Nat → Nat → List Char → Option (Value × List Char)
  | 0, _, _ => none
  | fuel + 1, depth, text =>
    match text with
    | '"' :: _ | '\'' :: _ => (string? text).map fun (s, rest) => (.string s, rest)
    | '[' :: rest =>
      if maxDepth ≤ depth + 1 then none else items? fuel (depth + 1) [] rest
    | '\x7b' :: rest =>
      if maxDepth ≤ depth + 1 then none
      else
        match skipBlanks rest with
        | '\x7d' :: rest => some (.table [], rest)
        | rest => fields? fuel (depth + 1) [] rest
    | 't' :: 'r' :: 'u' :: 'e' :: rest => some (.boolean true, rest)
    | 'f' :: 'a' :: 'l' :: 's' :: 'e' :: rest => some (.boolean false, rest)
    | _ => number? text

/-- The rest of an array, onto the items already read. A comma may follow the last item. -/
def items? : Nat → Nat → List Value → List Char → Option (Value × List Char)
  | 0, _, _, _ => none
  | fuel + 1, depth, done, text =>
    match skipLines text.length text with
    | ']' :: rest => some (.array done.reverse, rest)
    | text =>
      match value? fuel depth text with
      | none => none
      | some (v, rest) =>
        match skipLines rest.length rest with
        | ']' :: rest => some (.array (v :: done).reverse, rest)
        | ',' :: rest => items? fuel depth (v :: done) rest
        | _ => none

/-- The rest of an inline table, onto the entries already read. -/
def fields? : Nat → Nat → Entries → List Char → Option (Value × List Char)
  | 0, _, _, _ => none
  | fuel + 1, depth, done, text =>
    match key? text with
    | some (path, '=' :: rest) =>
      match value? fuel depth (skipBlanks rest) with
      | none => none
      | some (v, rest) =>
        match done.assign path v, skipBlanks rest with
        | some done, '\x7d' :: rest => some (.table (closeEntries done), rest)
        | some done, ',' :: rest => fields? fuel depth done rest
        | _, _ => none
    | _ => none

end

/-! ## Documents -/

inductive Statement where
  | header (path : List String)
  | rowHeader (path : List String)
  | assignment (path : List String) (value : Value)

/-- Reads a statement, or nothing on a line without one, and the line end after it. -/
def statement? : List Char → Option (Option Statement × List Char)
  | '[' :: '[' :: rest =>
    match key? rest with
    | some (path, ']' :: ']' :: rest) =>
      (afterLine? rest).map fun rest => (some (.rowHeader path), rest)
    | _ => none
  | '[' :: rest =>
    match key? rest with
    | some (path, ']' :: rest) => (afterLine? rest).map fun rest => (some (.header path), rest)
    | _ => none
  | text =>
    match afterLine? text with
    | some rest => some (none, rest)
    | none =>
      match key? text with
      | some (path, '=' :: rest) => do
        let (v, rest) ← value? (rest.length + 1) 0 (skipBlanks rest)
        return (some (.assignment path v), ← afterLine? rest)
      | _ => none

/-- Reads all statements; the fuel bounds the number of lines. -/
def statements? : Nat → List Char → Option (List Statement)
  | 0, _ => some []
  | fuel + 1, text =>
    match skipBlanks text with
    | [] => some []
    | text => do
      let (s, rest) ← statement? text
      return s.toList ++ (← statements? fuel rest)

/-- Carries out statements on a document, with the path of the table that is open. -/
def build : List String → Entries → List Statement → Option Entries
  | _, root, [] => some root
  | _, root, .header path :: rest => do build path (← root.openTable path) rest
  | _, root, .rowHeader path :: rest => do build path (← root.openRow path) rest
  | current, root, .assignment path v :: rest => do
    build current (← Entries.atHeader (·.assign path v) current root) rest

/-- Reads a document, after a byte order mark if there is one. -/
def parse? (text : String) : Option Value := do
  let chars := match text.toList with
    | '\ufeff' :: rest => rest
    | other => other
  let statements ← statements? (chars.length + 1) chars
  let root ← build [] [] statements
  return .table (closeEntries root)

end ReplicaRing.Toml
