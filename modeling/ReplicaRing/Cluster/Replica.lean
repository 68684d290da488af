import ReplicaRing.Config.Basic
import ReplicaRing.Routing.Router

/-!
A replica: detector, oracle, mover, engine and router, and what they tell one another.

    liveness frames   ->  detector  ->  oracle and router
    transfer frames   ->  mover     <-> engine
    client frames     ->  router    <-> engine  <->  log and oracle

Every message between components is a signal; handling one yields further signals and effects
on the world outside. All components draw their numbers from one source, and engine and mover
work on one store.
-/

namespace ReplicaRing

/-- What a replica does at regular intervals. -/
inductive Chore where
  /-- The detector ends its round. -/
  | round
  /-- The router reports its statistics. -/
  | report
  deriving DecidableEq, Repr, Inhabited

namespace Chore

def rank : Chore → Nat
  | round => 0
  | report => 1

instance : Ord Chore := ⟨compareOn rank⟩

instance : Std.TransOrd Chore := inferInstanceAs (Std.TransCmp (compareOn rank))

instance : Std.LawfulEqOrd Chore where
  eq_of_compare {a b} h := by
    have h : compare a.rank b.rank = .eq := h
    simp only [Std.compare_eq_iff_eq] at h
    cases a <;> cases b <;> simp_all [rank]

end Chore

/-- A timer of some component. -/
inductive Alarm where
  | chore (chore : Chore)
  | retry (session : SessionId)
  | forwardTimeout (id : OperationId)
  deriving DecidableEq, Repr, Inhabited

structure Replica where
  self : NodeId
  ids : IdSource
  detector : Detector
  oracle : Oracle
  /-- The mover, unless it crashed. -/
  mover : Option Mover
  /-- The engine, with the store that the mover works on too. -/
  engine : Engine
  router : Router
  chores : Timers Chore Chore
  /-- Whether envelopes from the network are still taken. -/
  listening : Bool
  running : Bool

namespace Replica

/-- A message to a component of a replica. -/
inductive Signal where
  /-- An envelope from the network. -/
  | inbound (envelope : Envelope)
  /-- A decision of the log. -/
  | decided (indication : LogIndication)
  /-- A client of this process wants an operation run. -/
  | request (ticket : Nat) (kind : OperationKind)
  | propose (next : Reconfigure)
  | alarm (alarm : Alarm)
  | submit (operation : Operation)
  | install (view : View)
  | subscribe (request : RequestId) (node : NodeId)
  | unsubscribe (request : RequestId)
  | liveness (report : LivenessReport)
  | oracle (event : OracleEvent)
  | command (command : MoverCommand)
  | mover (event : MoverEvent)
  | engine (event : EngineEvent)

/-- What comes of a signal. -/
inductive Effect where
  | signal (signal : Signal)
  | send (envelope : Envelope)
  | log (request : LogRequest)
  | answer (ticket : Nat) (answer : Answer)

/-! ## Components -/

def engineEffect : Engine.Output → Effect
  | .log r => .log r
  | .install v => .signal (.install v)
  | .mover c => .signal (.command c)
  | .event e => .signal (.engine e)

def withEngine (r : Replica) (result : Engine × List Engine.Output) : Replica × List Effect :=
  ({ r with engine := result.1 }, result.2.map engineEffect)

def oracleEffect : Oracle.Output → Option Effect
  | .subscribe request n => some (.signal (.subscribe request n))
  | .unsubscribe request => some (.signal (.unsubscribe request))
  | .event e => some (.signal (.oracle e))
  | .announce _ => none

def withOracle (r : Replica) (f : Oracle → Oracle × List Oracle.Output) :
    Replica × List Effect :=
  let (oracle, out) := f { r.oracle with ids := r.ids }
  ({ r with oracle, ids := oracle.ids }, out.filterMap oracleEffect)

def detectorEffect : Detector.Output → Effect
  | .send e => .send e
  | .report l => .signal (.liveness l)

def withDetector (r : Replica) (now : Duration) (input : Detector.Input) :
    Replica × List Effect :=
  let (detector, out) := r.detector.handle now input
  ({ r with detector }, out.map detectorEffect)

def routerEffect : Router.Output → Option Effect
  | .submit op => some (.signal (.submit op))
  | .send e => some (.send e)
  | .answer ticket a => some (.answer ticket a)
  | .report _ => none

def withRouter (r : Replica) (now : Duration) (f : Router → Router × List Router.Output) :
    Replica × List Effect :=
  let (router, out) :=
    f { r.router with ids := r.ids, timers := { r.router.timers with now } }
  ({ r with router, ids := router.ids }, out.filterMap routerEffect)

def moverEffect : Mover.Output → Effect
  | .send e => .send e
  | .event e => .signal (.mover e)

/-- Gives the mover an input, on the engine's store and with the timeouts that the detector
published. A crash leaves the replica without a mover. -/
def withMover (r : Replica) (now : Duration) (input : Mover.Input) : Replica × List Effect :=
  match r.mover with
  | none => (r, [])
  | some m =>
    let m := { m with
      ids := r.ids
      store := r.engine.store
      timeouts := r.detector.published
      timers := { m.timers with now } }
    match m.handle input with
    | .error _ => ({ r with mover := none }, [])
    | .ok (m, out) =>
      ({ r with mover := some m, ids := m.ids, engine := { r.engine with store := m.store } },
        out.map moverEffect)

/-! ## Signals -/

/-- Hands an envelope to the component of its lane. Once a transfer frame finds no mover, no
envelope is taken any more. -/
def dispatch (r : Replica) (now : Duration) (e : Envelope) : Replica × List Effect :=
  if !r.listening then (r, [])
  else
    match e.message.lane with
    | .liveness => r.withDetector now (.inbound e.src e.message)
    | .client => r.withRouter now (·.message e.message)
    | .transfer =>
      if r.mover.isSome then r.withMover now (.inbound e.src e.message)
      else ({ r with listening := false }, [])

/-- Submits an operation of a client under a fresh number. -/
def request (r : Replica) (now : Duration) (ticket : Nat) (kind : OperationKind) :
    Replica × List Effect :=
  let (id, ids) := r.ids.next
  { r with ids }.withRouter now (·.request ⟨id, kind⟩ (.caller ticket))

/-- Brings a report to the oracle and to the router. -/
def spreadLiveness (r : Replica) (now : Duration) (report : LivenessReport) :
    Replica × List Effect :=
  let (r, first) := r.withOracle (·.liveness report)
  let (r, second) := r.withRouter now (·.liveness report)
  (r, first ++ second)

def handle (r : Replica) (now : Duration) : Signal → Replica × List Effect
  | .inbound e => r.dispatch now e
  | .decided i => r.withEngine (r.engine.decide i.position.toNat i.value)
  | .request ticket kind => r.request now ticket kind
  | .propose next => r.withEngine (r.engine, r.engine.propose next)
  | .alarm (.chore .round) => r.withDetector now .tick
  | .alarm (.chore .report) => r.withRouter now (·.statsTick now)
  | .alarm (.retry session) => r.withMover now (.retry session)
  | .alarm (.forwardTimeout id) => r.withRouter now (·.forwardTimeoutFired id)
  | .submit op => r.withEngine (r.engine, r.engine.submit op)
  | .install view => r.withOracle (·.install view)
  | .subscribe request n => r.withDetector now (.subscribe request n)
  | .unsubscribe request => r.withDetector now (.unsubscribe request)
  | .liveness report => r.spreadLiveness now report
  | .oracle event => r.withEngine (r.engine.handleOracle event, [])
  | .command c => r.withMover now (.command c)
  | .mover event => r.withEngine (r.engine.handleMover event)
  | .engine event => r.withRouter now (·.engineEvent event)

/-! ## Starting -/

/-- Assembles a replica at time zero, with its regular timers armed. -/
def assemble (self : NodeId) (config : Config) (placement : Placement) (store : Store)
    (compressor : BlockCompression.Compressor := .literal) (draws : Nat → Nat := fun _ => 0) :
    Replica :=
  let ids := IdSource.ofSeed self.hash16 0
  { self, ids
    detector := .start self config.detector
    oracle := .start self ids
    mover := some (.start self config.transfer store ids compressor)
    engine := .start self config.replication store
    router := .start self config.router.forwardTimeout placement ids draws
    chores := (Timers.empty.periodic Chore.round config.detector.period .round).periodic
      .report config.router.statsInterval .report
    listening := true
    running := true }

/-- Installs the first view before anything else happens. -/
def bootstrap (r : Replica) (first : Option Reconfigure) : Replica × List Effect :=
  match first with
  | some reconfigure => r.withEngine (r.engine.bootstrap reconfigure)
  | none => (r, [])

/-! ## Alarms -/

/-- The earlier of two alarms. -/
def earlier (a b : Option (Duration × Alarm)) : Option (Duration × Alarm) :=
  match a, b with
  | some x, some y => if y.1 < x.1 then some y else some x
  | some x, none => some x
  | none, other => other

/-- The alarm that goes off next, and when. -/
def nextAlarm? (r : Replica) : Option (Duration × Alarm) :=
  let chore := r.chores.next?.map fun (_, t) => (t.fireTime, Alarm.chore t.event)
  let retry := (r.mover.bind (·.timers.next?)).map fun (_, t) => (t.fireTime, Alarm.retry t.event)
  let timeout := r.router.timers.next?.map fun (_, t) =>
    (t.fireTime, Alarm.forwardTimeout t.event)
  earlier chore (earlier retry timeout)

/-- An alarm has gone off: its timer is gone, or armed for its next time. -/
def clearAlarm (r : Replica) : Alarm → Replica
  | .chore c =>
    match r.chores.armed.get? c with
    | some t => { r with chores := r.chores.fire c t }
    | none => r
  | .retry id =>
    { r with mover := r.mover.map fun m => { m with timers := m.timers.cancel id } }
  | .forwardTimeout id =>
    { r with router := { r.router with timers := r.router.timers.cancel id } }

end Replica

end ReplicaRing
