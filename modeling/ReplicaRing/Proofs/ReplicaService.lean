import ReplicaRing.Proofs.OperationTraffic
import ReplicaRing.Proofs.PagedCalls
import ReplicaRing.Proofs.RangePages

/-!
A replica as its clients see it: the router, the engine, and what is under way between them and the
log. Submissions, decisions and events of the engine wait in queues, each first in, first out, and
are taken whenever it comes to that, amid all else that the router, the engine and the log have to
handle. The log decides what the engine proposes, and values of other replicas in between.
-/

namespace ReplicaRing

/-- Whether an input is an event of the engine. -/
def Router.Input.isEngine : Input → Bool
  | .engine _ => true
  | .request _ _ | .message _ | .liveness _ | .statsTick | .forwardTimeout _ => false

/-- Whether an arrival comes neither from the router nor from the log. -/
def Engine.Arrival.isAside : Arrival → Bool
  | .input i => !i.isDecision
  | .propose _ | .store _ => true
  | .submit _ => false

structure Service where
  router : Router
  /-- Submitted operations that the engine did not take yet. -/
  submitted : List Operation
  engine : Engine
  /-- Decided values that the engine was not told yet, from its next position on. -/
  decided : List LogValue
  /-- Events of the engine that the router did not take yet. -/
  events : List EngineEvent
  /-- The answers that the router gave, and where they went. -/
  given : List (ReplyTo × Answer)

namespace Service

/-! ## Steps -/

inductive Step where
  /-- The engine takes the oldest submission. -/
  | submission
  /-- The engine is told the oldest decision. -/
  | decision
  /-- The router takes the oldest event. -/
  | event
  /-- The log decides a value that this replica did not propose. -/
  | value (value : LogValue)
  /-- Something else comes to the engine. -/
  | engine (arrival : Engine.Arrival) (h : arrival.isAside = true)
  /-- Something else comes to the router. -/
  | router (input : Router.Input) (h : input.isEngine = false)
  /-- Time passes, others draw numbers, and the placement changes. -/
  | amid (ids : IdSource) (timers : Timers OperationId OperationId) (placement : Placement)
      (placementFault : Option Fault)

/-- The engine handles an arrival: what it proposes will be decided, and its events wait. -/
def arrive (s : Service) (a : Engine.Arrival) : Service :=
  { s with
    engine := s.engine.react a
    decided := s.decided ++ Engine.proposalsIn (s.engine.outputOn a)
    events := s.events ++ Engine.eventsIn (s.engine.outputOn a) }

/-- The router handles an input: what it submits waits. -/
def hand (s : Service) (input : Router.Input) : Service :=
  { s with
    router := (s.router.handle input).1
    submitted := s.submitted ++ Router.submittedIn (s.router.handle input).2
    given := s.given ++ Router.givenIn (s.router.handle input).2 }

def step (s : Service) : Step → Service
  | .submission =>
    match s.submitted with
    | [] => s
    | op :: rest => { s with submitted := rest }.arrive (.submit op)
  | .decision =>
    match s.decided with
    | [] => s
    | value :: rest =>
      { s with decided := rest }.arrive (.input (.decided s.engine.next value))
  | .event =>
    match s.events with
    | [] => s
    | event :: rest => { s with events := rest }.hand (.engine event)
  | .value value => { s with decided := s.decided ++ [value] }
  | .engine a _ => s.arrive a
  | .router input _ => s.hand input
  | .amid ids timers placement placementFault =>
    { s with router := { s.router with ids, timers, placement, placementFault } }

/-- A service after the first steps of a schedule. -/
def after (s : Service) (schedule : ℕ → Step) : ℕ → Service
  | 0 => s
  | k + 1 => (s.after schedule k).step (schedule k)

/-! ## Numbers -/

/-- The numbers of the operations that are under way. -/
def numbers (s : Service) : List OperationId :=
  s.submitted.map Operation.id ++ s.decided.filterMap LogValue.number? ++
    s.events.filterMap EngineEvent.number?

/-- A number that a service knows no operation by. -/
structure Fresh (s : Service) (n : OperationId) : Prop where
  pending : s.router.pending.get? n = none
  executed : s.engine.executed.contains n = false
  unused : n ∉ s.numbers

/-- Whether a caller waits under a number. -/
def WaitsUnder (s : Service) (q n : OperationId) : Prop :=
  ∃ p, s.router.pending.get? n = some p ∧ p.origin = q

/-- Whether the number that an input makes the router draw, if it does, is fresh. -/
def DrawsFresh (s : Service) (input : Router.Input) : Prop :=
  ∀ old new, s.router.renews? input = some (old, new) → s.Fresh new

/-- A step respects the numbers of a caller: the router draws fresh numbers, others do not use the
caller's own number for a request, and neither answers of peers nor operations of other replicas
have the number that the caller waits under. -/
def Respects (s : Service) (q : OperationId) : Step → Prop
  | .router input _ =>
    (∀ op reply, input.wanted? = some (op, reply) → op.id ≠ q) ∧
      (∀ a, input.answer? = some a → ¬ s.WaitsUnder q a.id) ∧ s.DrawsFresh input
  | .event => ∀ event ∈ s.events.head?, s.DrawsFresh (.engine event)
  | .value value => ∀ n, value.number? = some n → ¬ s.WaitsUnder q n
  | .submission | .decision | .engine _ _ | .amid _ _ _ _ => True

/-! ## The engine of a service -/

/-- An engine in order: it holds no value, since it is told all of them in turn, and its pages have
room for an item. -/
structure InOrder (e : Engine) : Prop where
  consistent : e.Consistent
  held : e.held = ∅
  pageItems : 1 ≤ e.config.pageItems

variable {s : Service}

lemma InOrder.react {e : Engine} (h : InOrder e) {a : Engine.Arrival}
    (ha : ∀ p value, a = .input (.decided p value) → p = e.next) : InOrder (e.react a) := by
  refine ⟨h.consistent.react a, ?_, ?_⟩
  · by_cases hdecided : ∃ p value, a = .input (.decided p value)
    · obtain ⟨p, value, rfl⟩ := hdecided
      rw [ha p value rfl]
      exact Engine.held_empty_next h.held value
    · exact Engine.held_empty_react h.consistent h.held fun p value heq => hdecided ⟨p, value, heq⟩
  · rw [Engine.config_react h.consistent]
    exact h.pageItems

/-- The engine stays in order, whatever happens. -/
lemma InOrder.step (h : InOrder s.engine) (t : Step) : InOrder (s.step t).engine := by
  cases t with
  | submission =>
    unfold Service.step
    cases s.submitted with
    | nil => exact h
    | cons op rest => exact h.react (a := .submit op) fun p value heq => by cases heq
  | decision =>
    unfold Service.step
    cases s.decided with
    | nil => exact h
    | cons value rest =>
      refine h.react (a := .input (.decided s.engine.next value)) fun p value' heq => ?_
      cases heq
      rfl
  | event =>
    unfold Service.step
    cases s.events with
    | nil => exact h
    | cons event rest => exact h
  | value value => exact h
  | engine a haside =>
    refine h.react fun p value heq => ?_
    rw [heq] at haside
    cases haside
  | router input _ => exact h
  | amid ids timers placement placementFault => exact h

lemma InOrder.after (h : InOrder s.engine) (schedule : ℕ → Step) (k : ℕ) :
    InOrder (s.after schedule k).engine := by
  induction k with
  | zero => exact h
  | succ k ih => exact ih.step (schedule k)

end Service

end ReplicaRing
