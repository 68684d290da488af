/-!
Reading numbers from decimal text: natural numbers in the lenient form that addresses use, with
an optional plus sign and leading zeros, and binary64 numbers with an optional fraction and
exponent.
-/

namespace ReplicaRing.Decimal

/-- Appends digits to a value already read; anything but an ASCII digit fails. -/
def readDigits : Nat → List Char → Option Nat
  | n, [] => some n
  | n, c :: rest =>
    if '0' ≤ c ∧ c ≤ '9' then readDigits (10 * n + (c.toNat - 48)) rest else none

/-- A signless or plus-signed number of at most `max`. -/
def read? (max : Nat) (text : List Char) : Option Nat := do
  let digits := match text with
    | '+' :: rest => rest
    | other => other
  guard !digits.isEmpty
  let n ← readDigits 0 digits
  guard (n ≤ max)
  return n

/-- The binary64 number nearest to `mantissa * 10 ^ shift`. A decimal that reaches 10^310 is
infinite and one below 10^(-330) is zero, whatever its digits are. -/
def floatOfScientific (mantissa : Nat) (shift : Int) : Float :=
  let magnitude := (Nat.toDigits 10 mantissa).length + shift
  if mantissa = 0 ∨ magnitude < -330 then 0.0
  else if magnitude > 311 then 1.0 / 0.0
  else Float.ofScientific mantissa (shift < 0) shift.natAbs

/-- A binary64 number from its parts: digits before and after the point, and the exponent. -/
def floatOfParts (negative : Bool) (whole fraction : List Char) (exponent : Int) : Option Float := do
  let mantissa ← readDigits 0 (whole ++ fraction)
  let x := floatOfScientific mantissa (exponent - fraction.length)
  return if negative then -x else x

/-- Splits off the digits at the front. -/
def spanDigits (text : List Char) : List Char × List Char :=
  (text.takeWhile Char.isDigit, text.dropWhile Char.isDigit)

/-- An optionally signed whole number. -/
def readInt? : List Char → Option Int
  | '-' :: rest => if rest.isEmpty then none else (readDigits 0 rest).map fun n => -(n : Int)
  | '+' :: rest => if rest.isEmpty then none else (readDigits 0 rest).map Int.ofNat
  | text => if text.isEmpty then none else (readDigits 0 text).map Int.ofNat

/-- An optionally signed decimal number: digits, then a point and digits or not, then an exponent
or not. -/
def readFloat? (text : List Char) : Option Float := do
  let (negative, text) := match text with
    | '-' :: rest => (true, rest)
    | '+' :: rest => (false, rest)
    | other => (false, other)
  let (whole, text) := spanDigits text
  guard !whole.isEmpty
  let (fraction, text) ← match text with
    | '.' :: rest =>
      let (fraction, rest) := spanDigits rest
      if fraction.isEmpty then none else some (fraction, rest)
    | other => some ([], other)
  match text with
  | [] => floatOfParts negative whole fraction 0
  | 'e' :: rest | 'E' :: rest => floatOfParts negative whole fraction (← readInt? rest)
  | _ => none

end ReplicaRing.Decimal
