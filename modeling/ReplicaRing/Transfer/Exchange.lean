import ReplicaRing.Transfer.Mover

/-!
Data movers and the wire between them. Frames on the wire may be delivered in any order, more
than once or never; timers fire when the clock, common to all, reaches them.
-/

namespace ReplicaRing

structure Exchange where
  movers : List Mover
  /-- The frames that are on their way, oldest first. -/
  wire : List Envelope
  now : Duration

namespace Exchange

/-- What came of some inputs, in order and with the instants at which it happened. -/
structure Trace where
  sent : List (Duration × Envelope)
  /-- Events, with the mover that told them. -/
  events : List (Duration × NodeId × MoverEvent)
  /-- Retransmission timers that fired. -/
  retries : List (Duration × NodeId × SessionId)

instance : EmptyCollection Trace := ⟨⟨[], [], []⟩⟩

instance : Append Trace :=
  ⟨fun a b => ⟨a.sent ++ b.sent, a.events ++ b.events, a.retries ++ b.retries⟩⟩

abbrev Step := Except Mover.Crash (Exchange × Trace)

def start (movers : List Mover) : Exchange := ⟨movers, [], 0⟩

/-- The mover of a node. -/
def mover? (x : Exchange) (n : NodeId) : Option Mover := x.movers.find? fun m => m.self == n

/-- Changes the mover of a node. -/
def update (x : Exchange) (n : NodeId) (f : Mover → Mover) : Exchange :=
  { x with movers := x.movers.map fun m => if m.self == n then f m else m }

/-- The trace of what one mover put out at once. -/
def traceOf (now : Duration) (self : NodeId) (out : List Mover.Output) : Trace where
  sent := out.filterMap fun
    | .send e => some (now, e)
    | .event _ => none
  events := out.filterMap fun
    | .send _ => none
    | .event e => some (now, self, e)
  retries := []

/-- Gives a mover an input; its frames go on the wire. A node without a mover loses it. -/
def handle (x : Exchange) (n : NodeId) (input : Mover.Input) : Step :=
  match x.mover? n with
  | none => .ok (x, ∅)
  | some m => do
    let (m, out) ← Mover.handle { m with timers := { m.timers with now := x.now } } input
    let trace := traceOf x.now n out
    return ({ x.update n fun _ => m with wire := x.wire ++ trace.sent.map Prod.snd }, trace)

/-! ## The wire -/

/-- Hands a frame to the mover it is for. -/
def hand (x : Exchange) (e : Envelope) : Step := x.handle e.dst (.inbound e.src e.message)

/-- Takes a frame off the wire and delivers it. -/
def deliver (x : Exchange) (index : Nat) : Option Step :=
  (x.wire[index]?).map fun e => { x with wire := x.wire.eraseIdx index }.hand e

/-- Delivers a copy of a frame that stays on the wire. -/
def replay (x : Exchange) (index : Nat) : Option Step := (x.wire[index]?).map x.hand

/-- Loses a frame. -/
def drop (x : Exchange) (index : Nat) : Option Exchange :=
  (x.wire[index]?).map fun _ => { x with wire := x.wire.eraseIdx index }

/-- Delivers frames in order until none is left, at most so many. -/
def pump : Nat → Exchange → Step
  | 0, x => .ok (x, ∅)
  | n + 1, x =>
    match x.deliver 0 with
    | none => .ok (x, ∅)
    | some step => do
      let (x, trace) ← step
      let (x, rest) ← pump n x
      return (x, trace ++ rest)

/-! ## Time -/

/-- The retransmission timer that fires next. Of several at one instant that of the first mover
comes first. -/
def nextTimer? (x : Exchange) : Option (Duration × NodeId × SessionId) :=
  x.movers.foldl (fun best m =>
    match m.timers.next?, best with
    | none, _ => best
    | some (id, t), none => some (t.fireTime, m.self, id)
    | some (id, t), some b =>
      if t.fireTime < b.1 then some (t.fireTime, m.self, id) else best) none

/-- Fires timers up to an instant, as far as the fuel reaches. -/
def fireUntil (stop : Duration) : Nat → Exchange → Step
  | 0, x => .ok (x, ∅)
  | fuel + 1, x =>
    match x.nextTimer? with
    | none => .ok (x, ∅)
    | some (time, n, id) =>
      if stop < time then .ok (x, ∅)
      else do
        let x := { x with now := time }.update n fun m =>
          { m with timers := { m.timers with armed := m.timers.armed.erase id } }
        let (x, trace) ← x.handle n (.retry id)
        let (x, rest) ← fireUntil stop fuel x
        return (x, { trace with retries := [(time, n, id)] } ++ rest)

/-- Lets time pass. A timer that is armed anew fires a millisecond later at the earliest, unless
its interval is zero, so there is fuel for each timer at each millisecond. -/
def advance (x : Exchange) (ms : Nat) : Step := do
  let stop := x.now + Duration.ofMillis ms
  let armed := (x.movers.map fun m => m.timers.armed.size).foldl (· + ·) 0
  let (x, trace) ← fireUntil stop ((ms + 1) * armed) x
  return ({ x with now := stop }, trace)

/-- Opens and at once completes a run of sessions at a mover, each with a single empty page.
What is on the wire then is lost. -/
def flood (x : Exchange) (n src : NodeId) (first : UInt64) : Nat → Step
  | 0 => .ok ({ x with wire := [] }, ∅)
  | count + 1 => do
    let x := { x with wire := [] }
    let (x, opened) ← x.handle n (.inbound src (.initiateTransfer first ⟨.full, 0, false⟩))
    let (x, closed) ← x.handle n (.inbound src (.data first [] true))
    let (x, rest) ← x.flood n src (first + 1) count
    return (x, opened ++ closed ++ rest)

end Exchange

end ReplicaRing
