import ReplicaRing.Toml.Value

/-!
How the tables of a document come about. A table is defined once: by its header, by a header of
one of its subtables, which leaves it open to a header of its own, or by dotted keys, which only
more dotted keys may extend. Rows of an array of tables are added one by one, and what follows
goes to the last.
-/

namespace ReplicaRing.Toml

/-- What a table was defined by. -/
inductive Origin where
  | header
  /-- The header of a table within it. -/
  | inner
  | dottedKey
  deriving DecidableEq, Repr

/-- An entry of a table while the document is read. -/
inductive Item where
  | value (value : Value)
  | table (origin : Origin) (entries : List (String × Item))
  /-- An array of tables, row by row. -/
  | rows (rows : List (List (String × Item)))
  deriving Inhabited

abbrev Entries := List (String × Item)

namespace Entries

def get? (t : Entries) (key : String) : Option Item := (t.find? fun e => e.1 == key).map Prod.snd

/-- Replaces the entry of a key, or adds one at the end. -/
def set (t : Entries) (key : String) (item : Item) : Entries :=
  if (get? t key).isSome then t.map fun e => if e.1 == key then (key, item) else e
  else t ++ [(key, item)]

/-- Changes the table that a path leads to, with its origin. Tables on the way that do not exist
are created with an origin of `made`. Dotted keys do not lead into a table with a header. -/
def descend (made : Origin) (f : Origin → Entries → Option Entries) :
    List String → Origin → Entries → Option Entries
  | [], origin, t => f origin t
  | key :: path, _, t =>
    match get? t key with
    | none => (descend made f path made []).map fun sub => set t key (.table made sub)
    | some (.value _) => none
    | some (.table origin sub) =>
      if made = .dottedKey ∧ origin = .header then none
      else (descend made f path origin sub).map fun sub => set t key (.table origin sub)
    | some (.rows rows) =>
      match rows.getLast? with
      | none => none
      | some row => (descend made f path .header row).map fun row =>
          set t key (.rows (rows.dropLast ++ [row]))

/-- Parts a path into the way to a table and a key in it. -/
def splitPath? : List String → Option (List String × String)
  | [] => none
  | [key] => some ([], key)
  | key :: path => (splitPath? path).map fun (way, last) => (key :: way, last)

/-- Gives a new key, dotted or not, its value. A dotted key's table must stem from dotted keys. -/
def assign (t : Entries) (path : List String) (v : Value) : Option Entries := do
  let (way, key) ← splitPath? path
  descend .dottedKey (fun origin sub =>
    if (origin = .dottedKey ↔ way ≠ []) ∧ (get? sub key).isNone then
      some (sub ++ [(key, .value v)])
    else none) way .header t

/-- Opens the table of a header. It must be new, or known by the headers of its subtables only. -/
def openTable (t : Entries) (path : List String) : Option Entries := do
  let (way, key) ← splitPath? path
  descend .inner (fun _ sub =>
    match get? sub key with
    | none => some (sub ++ [(key, .table .header [])])
    | some (.table .inner entries) => some (set sub key (.table .header entries))
    | some _ => none) way .header t

/-- Adds a row to the array of tables of a header. -/
def openRow (t : Entries) (path : List String) : Option Entries := do
  let (way, key) ← splitPath? path
  descend .inner (fun _ sub =>
    match get? sub key with
    | none => some (sub ++ [(key, .rows [[]])])
    | some (.rows rows) => some (set sub key (.rows (rows ++ [[]])))
    | some _ => none) way .header t

/-- Changes the table that a header opened. -/
def atHeader (f : Entries → Option Entries) (path : List String) (t : Entries) : Option Entries :=
  descend .inner (fun _ sub => f sub) path .header t

end Entries

mutual

/-- The value of an entry once the document is complete. -/
def Item.close : Item → Value
  | .value v => v
  | .table _ entries => .table (closeEntries entries)
  | .rows rows => .array (closeRows rows)

def closeEntries : List (String × Item) → List (String × Value)
  | [] => []
  | (key, item) :: rest => (key, item.close) :: closeEntries rest

def closeRows : List (List (String × Item)) → List Value
  | [] => []
  | row :: rest => .table (closeEntries row) :: closeRows rest

end

end ReplicaRing.Toml
