import ReplicaRing.Proofs.EngineStates
import ReplicaRing.Proofs.ReceiverSteps

/-!
Runs of an engine, seen in two ways. What reaches an engine are its inputs, among them decisions in
any order. What happens to it are steps, among them the values of the log, each applied in its
turn. A decision is held until its turn comes, and it sets off the values at the next positions up
to the first gap; so a run of inputs is a run of steps, `Engine.run_eq`, and what every step
preserves holds in every run.
-/

namespace ReplicaRing

namespace Engine

/-- What reaches an engine: decisions of the log, a first configuration, events of the oracle and
of the mover, and items of pages that the mover writes into the store. -/
inductive Input where
  | decided (position : Nat) (value : LogValue)
  | bootstrap (r : Reconfigure)
  | oracle (event : OracleEvent)
  | mover (event : MoverEvent)
  | page (items : List StoreItem)

def receive (e : Engine) : Input → Engine
  | .decided position value => (e.decide position value).1
  | .bootstrap r => (e.bootstrap r).1
  | .oracle event => e.handleOracle event
  | .mover event => (e.handleMover event).1
  | .page items => { e with store := e.store.writeAll items }

/-- Handles inputs one after the other. -/
def run (e : Engine) (inputs : List Input) : Engine := inputs.foldl receive e

/-- What happens to an engine: a value is held until its turn comes, the value of the next position
is applied, and all that is no decision happens as it comes. -/
inductive Step where
  | hold (position : Nat) (value : LogValue)
  | value (value : LogValue)
  | bootstrap (r : Reconfigure)
  | oracle (event : OracleEvent)
  | mover (event : MoverEvent)
  | page (items : List StoreItem)

/-- Applies the value of the next position, which is held no longer. -/
def applyNext (e : Engine) (value : LogValue) : Engine :=
  (apply { e with held := e.held.erase e.next } value).1.countApplied.1

def step (e : Engine) : Step → Engine
  | .hold position value => { e with held := e.held.insert position value }
  | .value value => e.applyNext value
  | .bootstrap r => (e.bootstrap r).1
  | .oracle event => e.handleOracle event
  | .mover event => (e.handleMover event).1
  | .page items => { e with store := e.store.writeAll items }

/-- Takes steps one after the other. -/
def follow (e : Engine) (steps : List Step) : Engine := steps.foldl step e

/-! ## Decisions as steps -/

/-- The values at the next positions up to the first gap, as far as the fuel reaches. -/
def heldFrom : Nat → Nat → SortedMap Nat LogValue → List LogValue
  | 0, _, _ => []
  | fuel + 1, next, held =>
    match held.get? next with
    | none => []
    | some value => value :: heldFrom fuel (next + 1) (held.erase next)

/-- The values that a decision makes due. -/
def due (e : Engine) (position : Nat) (value : LogValue) : List LogValue :=
  if position < e.next then []
  else heldFrom (e.held.insert position value).size e.next (e.held.insert position value)

/-- The steps that an input sets off. -/
def stepsOf (e : Engine) : Input → List Step
  | .decided position value =>
    if position < e.next then []
    else .hold position value :: (e.due position value).map .value
  | .bootstrap r => [.bootstrap r]
  | .oracle event => [.oracle event]
  | .mover event => [.mover event]
  | .page items => [.page items]

/-- The steps of a run. -/
def stepsOfAll (e : Engine) : List Input → List Step
  | [] => []
  | input :: rest => e.stepsOf input ++ (e.receive input).stepsOfAll rest

variable {e : Engine}

lemma follow_nil (e : Engine) : e.follow [] = e := rfl

lemma follow_append (e : Engine) (steps more : List Step) :
    e.follow (steps ++ more) = (e.follow steps).follow more := List.foldl_append

/-- Applying a value leaves the place in the log alone. -/
lemma apply_place (e : Engine) (value : LogValue) :
    (e.apply value).1.next = e.next ∧ (e.apply value).1.held = e.held := by
  cases value with
  | noop => exact ⟨rfl, rfl⟩
  | operation op =>
    unfold apply
    simp only
    by_cases hwait : e.awaiting.isSome = true
    · rw [if_pos hwait]
      exact ⟨rfl, rfl⟩
    · obtain ⟨store, executed, hexecute⟩ := e.execute_rest op
      rw [if_neg hwait, hexecute]
      exact ⟨rfl, rfl⟩
  | reconfigure r =>
    obtain ⟨state, installed, awaiting, deferred, hmove⟩ := e.reconfigure_rest r
    show (e.reconfigure r).1.next = e.next ∧ (e.reconfigure r).1.held = e.held
    rw [hmove]
    exact ⟨rfl, rfl⟩

/-- Counting a position moves on to the next one. -/
lemma countApplied_place (e : Engine) :
    e.countApplied.1.next = e.next + 1 ∧ e.countApplied.1.held = e.held := by
  unfold countApplied
  simp only
  split
  · exact ⟨rfl, rfl⟩
  · exact ⟨rfl, rfl⟩

lemma applyNext_place (e : Engine) (value : LogValue) :
    (e.applyNext value).next = e.next + 1 ∧
      (e.applyNext value).held = e.held.erase e.next := by
  obtain ⟨hnext, hheld⟩ := countApplied_place (apply { e with held := e.held.erase e.next } value).1
  obtain ⟨hnext', hheld'⟩ := apply_place { e with held := e.held.erase e.next } value
  exact ⟨by rw [applyNext, hnext, hnext'], by rw [applyNext, hheld, hheld']⟩

lemma applyHeld_eq (fuel : Nat) (e : Engine) :
    (applyHeld fuel e).1 = e.follow ((heldFrom fuel e.next e.held).map .value) := by
  induction fuel generalizing e with
  | zero => rfl
  | succ fuel ih =>
    unfold applyHeld heldFrom
    cases hget : e.held.get? e.next with
    | none => rfl
    | some value =>
      -- applying the value moves the place on, so the rest is due from there
      have hrest := ih (e.applyNext value)
      rw [(e.applyNext_place value).1, (e.applyNext_place value).2] at hrest
      rw [List.map_cons]
      exact hrest

/-- A decision applies the values that it makes due, one after the other. -/
theorem decide_eq (e : Engine) (position : Nat) (value : LogValue) :
    (e.decide position value).1 = e.follow (e.stepsOf (.decided position value)) := by
  unfold Engine.decide stepsOf due
  by_cases hold : position < e.next
  · simp only [if_pos hold]
    rfl
  · simp only [if_neg hold]
    exact applyHeld_eq _ _

/-- Inputs do what their steps do. -/
theorem run_eq (e : Engine) (inputs : List Input) :
    e.run inputs = e.follow (e.stepsOfAll inputs) := by
  induction inputs generalizing e with
  | nil => rfl
  | cons input rest ih =>
    have hinput : e.receive input = e.follow (e.stepsOf input) := by
      cases input with
      | decided position value => exact e.decide_eq position value
      | _ => rfl
    calc (e.receive input).run rest
        = (e.receive input).follow ((e.receive input).stepsOfAll rest) := ih _
      _ = (e.follow (e.stepsOf input)).follow ((e.receive input).stepsOfAll rest) := by
          rw [← hinput]
      _ = e.follow (e.stepsOfAll (input :: rest)) := (e.follow_append _ _).symm

/-! ## What belongs to the states, in every run -/

lemma Consistent.step (h : e.Consistent) (s : Step) : (e.step s).Consistent := by
  cases s with
  | hold position value => exact h.with_log e.next e.appliedSincePrune _
  | value value =>
    -- taken off the held ones, applied, and counted
    have happly := (h.with_log e.next e.appliedSincePrune (e.held.erase e.next)).apply value
    obtain ⟨next, count, hcount⟩ :=
      countApplied_rest (Engine.apply { e with held := e.held.erase e.next } value).1
    show (countApplied _).1.Consistent
    rw [hcount]
    exact happly.with_log next count _
  | bootstrap r => exact h.reconfigure r
  | oracle event =>
    cases event with
    | trust leader view => exact ⟨h.passive, h.syncing, h.deferred, h.awaited⟩
    | livenessChanged leader => exact ⟨h.passive, h.syncing, h.deferred, h.awaited⟩
  | mover event => exact h.handleMover event
  | page items => exact h.with_store _ e.executed

lemma Consistent.follow (h : e.Consistent) (steps : List Step) : (e.follow steps).Consistent := by
  induction steps generalizing e with
  | nil => exact h
  | cons s steps ih => exact ih (h.step s)

theorem Consistent.run (h : e.Consistent) (inputs : List Input) : (e.run inputs).Consistent := by
  rw [run_eq]
  exact h.follow _

end Engine

end ReplicaRing
