/-!
Spans of time as whole nanoseconds: their text in the largest unit that leaves a whole part, and
growth by a floating-point factor, rounded to the nearest nanosecond.
-/

namespace ReplicaRing

/-- A span of time in nanoseconds. -/
abbrev Duration := Nat

namespace Duration

def ofMillis (ms : Nat) : Duration := ms * 1000000

def ofMicros (us : Nat) : Duration := us * 1000

def nanosPerSecond : Nat := 1000000000

/-- Whole microseconds, rest dropped. -/
def toMicros (d : Duration) : Nat := d / 1000

/-- The first whole millisecond that is not earlier. -/
def ceilMillis (d : Duration) : Nat := (d + 999999) / 1000000

/-! ## Text -/

/-- The digits of `rest / unit` after the point, without the zeros at the end. -/
def fractionDigits (rest unit : Nat) : List Char :=
  let width := (Nat.toDigits 10 unit).length - 1
  let digits := Nat.toDigits 10 rest
  let padded := List.replicate (width - digits.length) '0' ++ digits
  (padded.reverse.dropWhile (· == '0')).reverse

/-- A count of nanoseconds as a decimal number of units. -/
def renderIn (nanos unit : Nat) (suffix : String) : String :=
  let fraction := fractionDigits (nanos % unit) unit
  let point := if fraction.isEmpty then "" else "." ++ String.ofList fraction
  toString (nanos / unit) ++ point ++ suffix

/-- In seconds, milliseconds, microseconds or nanoseconds, whichever is the largest that the
span reaches. -/
def render (d : Duration) : String :=
  if d ≥ 1000000000 then renderIn d 1000000000 "s"
  else if d ≥ 1000000 then renderIn d 1000000 "ms"
  else if d ≥ 1000 then renderIn d 1000 "µs"
  else renderIn d 1 "ns"

/-! ## Floating point -/

/-- Seconds as a binary64 number: whole seconds plus the rest over a billion. -/
def toSeconds (d : Duration) : Float :=
  Float.ofNat (d / nanosPerSecond) + Float.ofNat (d % nanosPerSecond) / 1e9

/-- The quotient rounded to the nearest natural number, a half to the even one. -/
def roundDiv (num den : Nat) : Nat :=
  let q := num / den
  let r := num % den
  if 2 * r > den || (2 * r == den && q % 2 == 1) then q + 1 else q

/-- A number of seconds rounded to nanoseconds. Refused are negative numbers, those that are no
number, and spans of 2^64 seconds or more. -/
def ofSeconds? (x : Float) : Option Duration :=
  let bits := x.toBits.toNat
  let exponent := bits >>> 52 % 1 <<< 11
  let mantissa := bits % 1 <<< 52 + (if exponent = 0 then 0 else 1 <<< 52)
  -- the magnitude is `mantissa * 2 ^ (max exponent 1 - 1075)`
  if bits ≥ 1 <<< 63 && mantissa ≠ 0 then none
  else if exponent ≥ 1087 then none
  else if exponent ≥ 1075 then some (mantissa <<< (exponent - 1075) * nanosPerSecond)
  else some (roundDiv (mantissa * nanosPerSecond) (1 <<< (1075 - max exponent 1)))

/-- The span times a factor, computed in seconds and rounded back. -/
def scale? (d : Duration) (factor : Float) : Option Duration := ofSeconds? (d.toSeconds * factor)

end Duration

end ReplicaRing
