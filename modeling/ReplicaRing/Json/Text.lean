import ReplicaRing.Json.Basic

/-!
JSON text, read and printed. Escapes outside the basic plane come as surrogate pairs; an escape
that is half of a pair alone makes the text unreadable.
-/

namespace ReplicaRing.Json

/-! ## Reading -/

def skipBlank : List Char → List Char
  | [] => []
  | c :: rest => if c = ' ' ∨ c = '\n' ∨ c = '\r' ∨ c = '\t' then skipBlank rest else c :: rest

/-- The value of four hexadecimal digits. -/
def hexUnit? (a b c d : Char) : Option Nat := do
  return (((← hexValue? a) * 16 + (← hexValue? b)) * 16 + (← hexValue? c)) * 16 + (← hexValue? d)

/-- The character that a letter after a backslash stands for. -/
def escaped : Char → Char
  | 'n' => '\n'
  | 't' => '\t'
  | 'r' => '\r'
  | 'b' => '\x08'
  | 'f' => '\x0c'
  | c => c

/-- The rest of a string after its opening quote, onto the characters already read. -/
def readString (done : List Char) : List Char → Option (String × List Char)
  | [] => none
  | '"' :: rest => some (String.ofList done.reverse, rest)
  | '\\' :: 'u' :: a :: b :: c :: d :: '\\' :: 'u' :: e :: f :: g :: h :: rest =>
    match hexUnit? a b c d, hexUnit? e f g h with
    | some u, some v =>
      if 0xd800 ≤ u ∧ u < 0xdc00 then
        if 0xdc00 ≤ v ∧ v < 0xe000 then
          readString (Char.ofNat (0x10000 + (u - 0xd800) * 1024 + (v - 0xdc00)) :: done) rest
        else none
      else readString (Char.ofNat u :: done) ('\\' :: 'u' :: e :: f :: g :: h :: rest)
    | some u, none => readString (Char.ofNat u :: done) ('\\' :: 'u' :: e :: f :: g :: h :: rest)
    | none, _ => none
  | '\\' :: 'u' :: a :: b :: c :: d :: rest =>
    match hexUnit? a b c d with
    | some u => readString (Char.ofNat u :: done) rest
    | none => none
  | '\\' :: c :: rest => readString (escaped c :: done) rest
  | c :: rest => readString (c :: done) rest
termination_by s => s.length

def isNumberChar (c : Char) : Bool :=
  c.isDigit || c == '-' || c == '+' || c == '.' || c == 'e' || c == 'E'

mutual

/-- Reads a value; the fuel bounds how deep values nest and how many follow each other. -/
def readValue : Nat → List Char → Option (Json × List Char)
  | 0, _ => none
  | fuel + 1, text =>
    match skipBlank text with
    | '"' :: rest => (readString [] rest).map fun (s, rest) => (.string s, rest)
    | '[' :: rest =>
      match skipBlank rest with
      | ']' :: rest => some (.array [], rest)
      | rest => readItems fuel [] rest
    | '\x7b' :: rest =>
      match skipBlank rest with
      | '\x7d' :: rest => some (.object [], rest)
      | rest => readFields fuel [] rest
    | 't' :: 'r' :: 'u' :: 'e' :: rest => some (.bool true, rest)
    | 'f' :: 'a' :: 'l' :: 's' :: 'e' :: rest => some (.bool false, rest)
    | 'n' :: 'u' :: 'l' :: 'l' :: rest => some (.null, rest)
    | rest =>
      let literal := rest.takeWhile isNumberChar
      if literal.isEmpty then none
      else some (.number (String.ofList literal), rest.dropWhile isNumberChar)

def readItems : Nat → List Json → List Char → Option (Json × List Char)
  | 0, _, _ => none
  | fuel + 1, done, text =>
    match readValue fuel text with
    | none => none
    | some (v, rest) =>
      match skipBlank rest with
      | ',' :: rest => readItems fuel (v :: done) rest
      | ']' :: rest => some (.array (v :: done).reverse, rest)
      | _ => none

def readFields : Nat → List (String × Json) → List Char → Option (Json × List Char)
  | 0, _, _ => none
  | fuel + 1, done, text =>
    match skipBlank text with
    | '"' :: rest =>
      match readString [] rest with
      | none => none
      | some (name, rest) =>
        match skipBlank rest with
        | ':' :: rest =>
          match readValue fuel rest with
          | none => none
          | some (v, rest) =>
            match skipBlank rest with
            | ',' :: rest => readFields fuel ((name, v) :: done) rest
            | '\x7d' :: rest => some (.object ((name, v) :: done).reverse, rest)
            | _ => none
        | _ => none
    | _ => none

end

/-- Reads a text that is one value. -/
def parse? (text : String) : Option Json :=
  let chars := text.toList
  match readValue (chars.length + 1) chars with
  | some (v, rest) => if (skipBlank rest).isEmpty then some v else none
  | none => none

/-! ## Printing -/

/-- Quotes, backslashes and control characters are escaped. -/
def quoteChar (c : Char) : List Char :=
  if c = '"' then ['\\', '"']
  else if c = '\\' then ['\\', '\\']
  else if c.toNat < 32 then
    ['\\', 'u', '0', '0', hexDigit (c.toNat / 16), hexDigit (c.toNat % 16)]
  else [c]

def quote (s : String) : String :=
  "\"" ++ String.ofList (s.toList.flatMap quoteChar) ++ "\""

/-- The text without any blanks. -/
def print : Json → String
  | null => "null"
  | bool b => if b then "true" else "false"
  | number t => t
  | string s => quote s
  | array items => "[" ++ ",".intercalate (items.attach.map fun ⟨v, _⟩ => v.print) ++ "]"
  | object fields =>
    "\x7b" ++ ",".intercalate (fields.attach.map fun ⟨(name, v), _⟩ =>
      quote name ++ ":" ++ v.print) ++ "\x7d"
termination_by j => sizeOf j
decreasing_by
  · have := List.sizeOf_lt_of_mem ‹v ∈ items›
    simp only [array.sizeOf_spec]; omega
  · have := List.sizeOf_lt_of_mem ‹(name, v) ∈ fields›
    simp only [object.sizeOf_spec, Prod.mk.sizeOf_spec] at *; omega

end ReplicaRing.Json
