import ReplicaRing.Bytes
import ReplicaRing.Toml.Value

/-!
TOML text for documents of tables. A string is written in the plainest way that holds it; lists
of two or more items take a line for each; numbers are written with all their digits.
-/

namespace ReplicaRing.Toml

/-! ## Strings -/

/-- What decides how a string is written. -/
structure StringShape where
  /-- The longest run of single quotes. -/
  singleQuotes : Nat
  /-- The longest run of double quotes. -/
  doubleQuotes : Nat
  backslash : Bool
  newline : Bool
  /-- Whether there are control characters other than tabs and line feeds. -/
  control : Bool

/-- The longest run of a character. -/
def longestRun (c : Char) (text : List Char) : Nat :=
  (text.foldl (fun (run, longest) x =>
    if x = c then (run + 1, max longest (run + 1)) else (0, longest)) (0, 0)).2

def isControl (c : Char) : Bool := c.toNat < 32 || c.toNat == 127

def StringShape.of (text : List Char) : StringShape where
  singleQuotes := longestRun '\'' text
  doubleQuotes := longestRun '"' text
  backslash := text.contains '\\'
  newline := text.contains '\n'
  control := text.any fun c => isControl c && c != '\t' && c != '\n'

/-- The four ways to write a string. -/
inductive StringStyle where
  | basic
  | literal
  | multilineBasic
  | multilineLiteral
  deriving DecidableEq, Repr

/-- The first style, from plain to heavy, that needs no escapes; one with escapes if none does. -/
def StringShape.style (s : StringShape) : StringStyle :=
  let plain := !s.control && !s.backslash
  if plain && s.doubleQuotes == 0 && !s.newline then .basic
  else if !s.control && s.singleQuotes == 0 && !s.newline then .literal
  else if plain && s.doubleQuotes ≤ 2 then .multilineBasic
  else if !s.control && s.singleQuotes ≤ 2 then .multilineLiteral
  else if s.newline then .multilineBasic
  else .basic

/-- Writes the characters of a string between double quotes, where at most so many quotes may
follow each other unescaped and line feeds may be allowed to stand. -/
def escapeBasic (maxQuotes : Nat) (newlines : Bool) : Nat → List Char → List Char
  | _, [] => []
  | quotes, '"' :: rest =>
    if quotes < maxQuotes then '"' :: escapeBasic maxQuotes newlines (quotes + 1) rest
    else '\\' :: '"' :: escapeBasic maxQuotes newlines 0 rest
  | _, c :: rest =>
    let written :=
      if c = '\x08' then ['\\', 'b']
      else if c = '\t' then ['\\', 't']
      else if c = '\n' then (if newlines then ['\n'] else ['\\', 'n'])
      else if c = '\x0c' then ['\\', 'f']
      else if c = '\r' then ['\\', 'r']
      else if c = '\\' then ['\\', '\\']
      else if isControl c then
        '\\' :: 'u' :: '0' :: '0' ::
          [(hexDigit (c.toNat / 16)).toUpper, (hexDigit (c.toNat % 16)).toUpper]
      else [c]
    written ++ escapeBasic maxQuotes newlines 0 rest

def quoteString (s : String) : String :=
  let text := s.toList
  let shape := StringShape.of text
  let first := if shape.newline then "\n" else ""
  match shape.style with
  | .basic => "\"" ++ String.ofList (escapeBasic 0 false 0 text) ++ "\""
  | .literal => "'" ++ s ++ "'"
  | .multilineBasic =>
    "\"\"\"" ++ first ++ String.ofList (escapeBasic 2 true 0 text) ++ "\"\"\""
  | .multilineLiteral => "'''" ++ first ++ s ++ "'''"

/-! ## Numbers -/

/-- A binary64 number in full: every digit of its whole part and of its fraction, and at least
one after the point. -/
def floatText (x : Float) : String :=
  let bits := x.toBits.toNat
  let minus := if bits ≥ 1 <<< 63 then "-" else ""
  let exponent := bits >>> 52 % 1 <<< 11
  let mantissa := bits % 1 <<< 52 + (if exponent = 0 then 0 else 1 <<< 52)
  if x.isNaN then "nan"
  else if x.isInf then minus ++ "inf"
  else
    -- the magnitude is `mantissa * 2 ^ (max exponent 1 - 1075)`
    let places := 1075 - max exponent 1
    let scaled := mantissa <<< (exponent - 1075)
    let fraction := scaled % 1 <<< places * Nat.pow 5 places
    let digits := Nat.toDigits 10 fraction
    let padded := List.replicate (places - digits.length) '0' ++ digits
    let trimmed := (padded.reverse.dropWhile (· == '0')).reverse
    minus ++ toString (scaled >>> places) ++ "." ++
      (if trimmed.isEmpty then "0" else String.ofList trimmed)

/-! ## Values and documents -/

mutual

def Value.print : Value → String
  | .string s => quoteString s
  | .integer n => toString n
  | .float x => floatText x
  | .boolean b => if b then "true" else "false"
  | .datetime literal => literal
  | .array items =>
    match printItems items with
    | [] => "[]"
    | [item] => "[" ++ item ++ "]"
    | lines => "[\n" ++ String.join (lines.map fun l => "    " ++ l ++ ",\n") ++ "]"
  | .table fields => "\x7b " ++ ", ".intercalate (printFields fields) ++ " \x7d"

def printItems : List Value → List String
  | [] => []
  | v :: rest => v.print :: printItems rest

/-- Assignments; the keys must be bare. -/
def printFields : List (String × Value) → List String
  | [] => []
  | (key, v) :: rest => (key ++ " = " ++ v.print) :: printFields rest

end

/-- A table under its header, an assignment a line. -/
def printTable (name : String) (fields : List (String × Value)) : String :=
  "[" ++ name ++ "]\n" ++ String.join ((printFields fields).map (· ++ "\n"))

/-- Tables with an empty line between them. -/
def printTables (tables : List (String × List (String × Value))) : String :=
  "\n".intercalate (tables.map fun (name, fields) => printTable name fields)

end ReplicaRing.Toml
