import ReplicaRing.Bytes
import ReplicaRing.Text.Decimal
import ReplicaRing.Toml.Value

/-!
Numbers, dates and times in TOML text. Digits may be parted by single underscores, whole numbers
fit 64 bits, and a decimal must not be so large that it reads as positive infinity.
-/

namespace ReplicaRing.Toml

/-! ## Digits -/

/-- Digits with underscores between them, and the rest. An underscore must be followed by a
digit. -/
def digitRun (isDigit : Char → Bool) : List Char → Option (List Char × List Char)
  | [] => some ([], [])
  | ['_'] => none
  | '_' :: c :: rest =>
    if isDigit c then (digitRun isDigit rest).map fun (ds, rest) => (c :: ds, rest) else none
  | c :: rest =>
    if isDigit c then (digitRun isDigit rest).map fun (ds, rest) => (c :: ds, rest)
    else some ([], c :: rest)

/-- A run that starts with a digit. -/
def digits? (isDigit : Char → Bool) : List Char → Option (List Char × List Char)
  | c :: rest => if isDigit c then digitRun isDigit (c :: rest) else none
  | [] => none

/-- A sign, if there is one, and whether it is a minus. -/
def sign : List Char → Bool × List Char
  | '-' :: rest => (true, rest)
  | '+' :: rest => (false, rest)
  | text => (false, text)

/-- The digits of a decimal whole number: those after a leading zero do not belong to it. -/
def wholeDigits? : List Char → Option (List Char × List Char)
  | '0' :: rest => some (['0'], rest)
  | text => digits? Char.isDigit text

/-! ## Numbers -/

def infinity : Float := 1.0 / 0.0

/-- Keeps a whole number that fits a signed 64-bit word. -/
def integer64? (negative : Bool) (n : Nat) : Option Value :=
  if negative then (if n ≤ 1 <<< 63 then some (.integer (-(n : Int))) else none)
  else if n < 1 <<< 63 then some (.integer n)
  else none

/-- A whole number in a base that is a power of two, after its marker. -/
def based? (base : Nat) (text : List Char) : Option (Value × List Char) := do
  let isDigit (c : Char) := (hexValue? c).any (· < base)
  let (ds, rest) ← digits? isDigit text
  let n := ds.foldl (fun n c => n * base + (hexValue? c).getD 0) 0
  return (← integer64? false n, rest)

/-- An exponent, if one follows: its value, and the rest. -/
def exponent? : List Char → Option (Int × List Char)
  | 'e' :: rest | 'E' :: rest => do
    let (negative, rest) := sign rest
    let (ds, rest) ← digits? Char.isDigit rest
    let n ← Decimal.readDigits 0 ds
    return (if negative then -(n : Int) else n, rest)
  | _ => none

/-- A decimal number with a fraction, an exponent or both. -/
def decimal? (text : List Char) : Option (Value × List Char) := do
  let (negative, text) := sign text
  let (whole, text) ← wholeDigits? text
  let (fraction, e, rest) ← match text with
    | '.' :: rest => do
      let (fraction, rest) ← digits? Char.isDigit rest
      match exponent? rest with
      | some (e, rest) => some (fraction, e, rest)
      | none => some (fraction, 0, rest)
    | _ => (exponent? text).map fun (e, rest) => ([], e, rest)
  let x ← Decimal.floatOfParts negative whole fraction e
  guard !(x == infinity)
  return (.float x, rest)

/-- Infinity or the number that is none, with or without a sign. -/
def special? (text : List Char) : Option (Value × List Char) :=
  let (negative, text) := sign text
  let signed (x : Float) : Value := .float (if negative then -x else x)
  match text with
  | 'i' :: 'n' :: 'f' :: rest => some (signed infinity, rest)
  | 'n' :: 'a' :: 'n' :: rest => some (signed (0.0 / 0.0), rest)
  | _ => none

def integer? : List Char → Option (Value × List Char)
  | '0' :: 'x' :: rest => based? 16 rest
  | '0' :: 'o' :: rest => based? 8 rest
  | '0' :: 'b' :: rest => based? 2 rest
  | text => do
    let (negative, text) := sign text
    let (ds, rest) ← wholeDigits? text
    return (← integer64? negative (← Decimal.readDigits 0 ds), rest)

/-! ## Dates and times -/

/-- Two digits, as a number within bounds. -/
def twoDigits? (low high : Nat) : List Char → Option (Nat × List Char)
  | a :: b :: rest => do
    let n ← Decimal.readDigits 0 [a, b]
    guard (low ≤ n ∧ n ≤ high)
    return (n, rest)
  | _ => none

/-- The rest after a character that must be there. -/
def skip? (c : Char) : List Char → Option (List Char)
  | x :: rest => if x = c then some rest else none
  | [] => none

/-- How many days a month has. -/
def daysIn (year month : Nat) : Nat :=
  match month with
  | 2 => if year % 4 = 0 ∧ (year % 100 ≠ 0 ∨ year % 400 = 0) then 29 else 28
  | 4 | 6 | 9 | 11 => 30
  | _ => 31

/-- The rest after a date. -/
def afterDate? : List Char → Option (List Char)
  | a :: b :: c :: d :: rest => do
    let year ← Decimal.readDigits 0 [a, b, c, d]
    let (month, rest) ← twoDigits? 1 12 (← skip? '-' rest)
    let (_, rest) ← twoDigits? 1 (daysIn year month) (← skip? '-' rest)
    return rest
  | _ => none

/-- The rest after a time; a sixtieth second may be a leap second. -/
def afterTime? (text : List Char) : Option (List Char) := do
  let (_, rest) ← twoDigits? 0 23 text
  let (_, rest) ← twoDigits? 0 59 (← skip? ':' rest)
  let (_, rest) ← twoDigits? 0 60 (← skip? ':' rest)
  match rest with
  | '.' :: c :: more => if c.isDigit then some (more.dropWhile Char.isDigit) else some rest
  | _ => some rest

/-- The rest after an offset from universal time. -/
def afterOffset? : List Char → Option (List Char)
  | 'Z' :: rest | 'z' :: rest => some rest
  | '+' :: rest | '-' :: rest => do
    let (_, rest) ← twoDigits? 0 23 rest
    let (_, rest) ← twoDigits? 0 59 (← skip? ':' rest)
    return rest
  | _ => none

/-- The rest after a date, a time, or a date and a time with or without an offset. -/
def afterMoment? (text : List Char) : Option (List Char) :=
  match afterDate? text with
  | none => afterTime? text
  | some rest =>
    match rest with
    | c :: more =>
      if c == 'T' || c == 't' || c == ' ' then
        match afterTime? more with
        | some after => some ((afterOffset? after).getD after)
        | none => some rest
      else some rest
    | [] => some rest

def moment? (text : List Char) : Option (Value × List Char) :=
  (afterMoment? text).map fun rest =>
    (.datetime (String.ofList (text.take (text.length - rest.length))), rest)

/-- Anything that starts with a digit or a sign. -/
def number? (text : List Char) : Option (Value × List Char) :=
  moment? text <|> decimal? text <|> special? text <|> integer? text

end ReplicaRing.Toml
