import ReplicaRing.Sorted.Map
import ReplicaRing.Time.Duration

/-!
Keyed timers on a clock that moves only when told to. A key holds one timer; arming it again
replaces the timer, cancelling removes it, and nothing fires afterwards. Timers fire on whole
milliseconds: the first one that is not before the deadline.
-/

namespace ReplicaRing

structure Timer (ε : Type) where
  deadline : Duration
  /-- The wait until the next firing, for a timer that repeats. -/
  period : Option Duration
  event : ε
  deriving DecidableEq, Inhabited

/-- The instant a timer fires at. -/
def Timer.fireTime {ε : Type} (t : Timer ε) : Duration :=
  Duration.ofMillis (Duration.ceilMillis t.deadline)

structure Timers (κ ε : Type) [Ord κ] where
  now : Duration
  armed : SortedMap κ (Timer ε)

namespace Timers

variable {κ ε : Type} [Ord κ] [Std.TransOrd κ] [Std.LawfulEqOrd κ]

def empty : Timers κ ε := ⟨0, ∅⟩

/-! ## Arming and cancelling -/

/-- Fires once, after the delay. -/
def once (t : Timers κ ε) (key : κ) (delay : Duration) (event : ε) : Timers κ ε :=
  { t with armed := t.armed.insert key ⟨t.now + delay, none, event⟩ }

/-- Fires again and again, first after one period. A period of zero arms nothing, and the timer
that held the key is gone all the same. -/
def periodic (t : Timers κ ε) (key : κ) (period : Duration) (event : ε) : Timers κ ε :=
  if period = 0 then { t with armed := t.armed.erase key }
  else { t with armed := t.armed.insert key ⟨t.now + period, some period, event⟩ }

def isArmed (t : Timers κ ε) (key : κ) : Bool := t.armed.contains key

def cancel (t : Timers κ ε) (key : κ) : Timers κ ε := { t with armed := t.armed.erase key }

def cancelAll (t : Timers κ ε) : Timers κ ε := { t with armed := ∅ }

/-! ## Firing -/

/-- Earlier instants come first, then lower events. -/
def firesBefore [Ord ε] (a b : κ × Timer ε) : Bool :=
  ((compare a.2.fireTime b.2.fireTime).then (compare a.2.event b.2.event)).isLE

/-- The timer that fires next. -/
def next? [Ord ε] (t : Timers κ ε) : Option (κ × Timer ε) :=
  t.armed.entries.foldl (fun best e =>
    match best with
    | none => some e
    | some b => if firesBefore b e then some b else some e) none

/-- Fires one timer: the clock moves to its instant. A timer that repeats is armed anew, one
period after its deadline, so that waiting for whole milliseconds does not add up. -/
def fire (t : Timers κ ε) (key : κ) (timer : Timer ε) : Timers κ ε :=
  let now := timer.fireTime
  match timer.period with
  | none => { now, armed := t.armed.erase key }
  | some p => { now, armed := t.armed.insert key { timer with deadline := timer.deadline + p } }

/-- A bound on the number of firings within a span: one for each timer, and for a repeating one
another for each period. -/
def firingBound (t : Timers κ ε) (span : Duration) : Nat :=
  (t.armed.entries.map fun e =>
    match e.2.period with
    | none => 1
    | some p => span / p + 2).foldl (· + ·) 0

/-- Fires what is due up to and including an instant, as far as the fuel reaches. -/
def fireUntil [Ord ε] (stop : Duration) : Nat → Timers κ ε → List (Duration × ε) × Timers κ ε
  | 0, t => ([], t)
  | fuel + 1, t =>
    match t.next? with
    | some (key, timer) =>
      if timer.fireTime ≤ stop then
        let (fired, t) := fireUntil stop fuel (t.fire key timer)
        ((timer.fireTime, timer.event) :: fired, t)
      else ([], t)
    | none => ([], t)

/-- Lets time pass, and tells what fired and when. -/
def advance [Ord ε] (t : Timers κ ε) (span : Duration) : List (Duration × ε) × Timers κ ε :=
  let stop := t.now + span
  let (fired, t) := fireUntil stop (t.firingBound span) t
  (fired, { t with now := stop })

end Timers

end ReplicaRing
