import ReplicaRing.Bytes

/-!
Keys are byte strings in lexicographic order, and a range is an interval of that order whose
ends are each inclusive, exclusive or open. `KeyRange.contains` is what a range means; the
bound orders below answer inclusion (`covers`) and emptiness without looking at keys.
-/

namespace ReplicaRing

abbrev Key := Bytes

/-- One end of a range. -/
inductive KeyBound where
  | included (key : Key)
  | excluded (key : Key)
  | unbounded
  deriving DecidableEq, Repr, Inhabited

structure KeyRange where
  start : KeyBound
  stop : KeyBound
  deriving DecidableEq, Repr, Inhabited

namespace KeyBound

/-- The key a bound is drawn at. -/
def key? : KeyBound → Option Key
  | included k | excluded k => some k
  | unbounded => none

/-- Whether a start at this bound admits the key. -/
def admitsAbove (b : KeyBound) (k : Key) : Bool :=
  match b with
  | included s => (compare s k).isLE
  | excluded s => (compare s k).isLT
  | unbounded => true

/-- Whether an end at this bound admits the key. -/
def admitsBelow (b : KeyBound) (k : Key) : Bool :=
  match b with
  | included e => (compare k e).isLE
  | excluded e => (compare k e).isLT
  | unbounded => true

/-- Orders start bounds: a lower start admits more keys. Bounds of one kind compare by key. -/
def compareStarts : KeyBound → KeyBound → Ordering
  | unbounded, unbounded => .eq
  | unbounded, _ => .lt
  | _, unbounded => .gt
  | included x, included y | excluded x, excluded y => compare x y
  | included x, excluded y => if (compare x y).isLE then .lt else .gt
  | excluded x, included y => if (compare x y).isLT then .lt else .gt

/-- Orders end bounds: a greater end reaches further. Bounds of one kind compare by key. -/
def compareStops : KeyBound → KeyBound → Ordering
  | unbounded, unbounded => .eq
  | unbounded, _ => .gt
  | _, unbounded => .lt
  | included x, included y | excluded x, excluded y => compare x y
  | included x, excluded y => if (compare x y).isGE then .gt else .lt
  | excluded x, included y => if (compare x y).isGT then .gt else .lt

end KeyBound

namespace KeyRange

/-! ## Building ranges -/

/-- The whole key space. -/
def full : KeyRange := ⟨.unbounded, .unbounded⟩

/-- From `start` up to but excluding `stop`. -/
def halfOpen (start stop : Key) : KeyRange := ⟨.included start, .excluded stop⟩

/-- From `start` to `stop`, both inside. -/
def closed (start stop : Key) : KeyRange := ⟨.included start, .included stop⟩

/-- Everything from `start` on. -/
def fromKey (start : Key) : KeyRange := ⟨.included start, .unbounded⟩

/-! ## Asking ranges -/

def contains (r : KeyRange) (k : Key) : Bool := r.start.admitsAbove k && r.stop.admitsBelow k

/-- No key can satisfy the range. The immediate successor of a key is the key with a zero byte
appended, so an exclusive pair of those two is empty as well. -/
def isEmpty (r : KeyRange) : Bool :=
  match r.start, r.stop with
  | .unbounded, _ | _, .unbounded => false
  | .included s, .included e => (compare s e).isGT
  | .included s, .excluded e | .excluded s, .included e => (compare s e).isGE
  | .excluded s, .excluded e => (compare s e).isGE || e == s ++ [0]

/-- Whether every key of `other` lies in `r`, read off the bounds alone. -/
def covers (r other : KeyRange) : Bool :=
  other.isEmpty ||
    ((r.start.compareStarts other.start).isLE && (r.stop.compareStops other.stop).isGE)

/-- The part of the range strictly above a key. -/
def after (r : KeyRange) (k : Key) : KeyRange where
  start := if (r.start.compareStarts (.excluded k)).isGT then r.start else .excluded k
  stop := r.stop

/-- The key the range starts at, if it is bounded below. -/
def startKey? (r : KeyRange) : Option Key := r.start.key?

/-- Interval notation with the keys in hexadecimal. -/
def render (r : KeyRange) : String :=
  let lower := match r.start with
    | .included k => "[" ++ k.toHex
    | .excluded k => "(" ++ k.toHex
    | .unbounded => "(-inf"
  let upper := match r.stop with
    | .included k => k.toHex ++ "]"
    | .excluded k => k.toHex ++ ")"
    | .unbounded => "+inf)"
  lower ++ ", " ++ upper

end KeyRange

end ReplicaRing
