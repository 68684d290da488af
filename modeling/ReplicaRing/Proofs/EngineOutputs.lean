import ReplicaRing.Proofs.EngineRuns

/-!
What an engine says: requests to the log, views for the oracle, commands for the mover, and events
for the router. An input makes an engine say what its steps do, `Engine.outputOfRun_eq`, so what
holds of the output of each step holds of the output of every run. The values that are held for
their turn play no part in what the value of the next position does, `Engine.apply_withHeld`.
-/

namespace ReplicaRing

namespace Engine

/-- What an engine says when an input reaches it. -/
def outputOf (e : Engine) : Input → List Output
  | .decided position value => (e.decide position value).2
  | .bootstrap r => (e.bootstrap r).2
  | .mover event => (e.handleMover event).2
  | .oracle _ | .page _ => []

/-- What an engine says while inputs reach it one after the other. -/
def outputOfRun (e : Engine) : List Input → List Output
  | [] => []
  | input :: rest => e.outputOf input ++ (e.receive input).outputOfRun rest

/-- What an engine says when it takes a step. -/
def outputAt (e : Engine) : Step → List Output
  | .value value => (e.apply value).2 ++ (e.apply value).1.countApplied.2
  | .bootstrap r => (e.bootstrap r).2
  | .mover event => (e.handleMover event).2
  | .hold _ _ | .oracle _ | .page _ => []

/-- What an engine says while it takes steps one after the other. -/
def outputAlong (e : Engine) : List Step → List Output
  | [] => []
  | s :: rest => e.outputAt s ++ (e.step s).outputAlong rest

variable {e : Engine}

lemma outputOfRun_append (e : Engine) (inputs more : List Input) :
    e.outputOfRun (inputs ++ more) = e.outputOfRun inputs ++ (e.run inputs).outputOfRun more := by
  induction inputs generalizing e with
  | nil => rfl
  | cons input rest ih =>
    show e.outputOf input ++ (e.receive input).outputOfRun (rest ++ more) =
      e.outputOf input ++ (e.receive input).outputOfRun rest ++ _
    rw [ih, List.append_assoc]
    rfl

lemma outputAlong_append (e : Engine) (steps more : List Step) :
    e.outputAlong (steps ++ more) =
      e.outputAlong steps ++ (e.follow steps).outputAlong more := by
  induction steps generalizing e with
  | nil => rfl
  | cons s rest ih =>
    show e.outputAt s ++ (e.step s).outputAlong (rest ++ more) =
      e.outputAt s ++ (e.step s).outputAlong rest ++ _
    rw [ih, List.append_assoc]
    rfl

/-! ## The parts of a change of view -/

/-- The engine with another configuration installed, and nothing else done about it. -/
def adopt (e : Engine) (r : Reconfigure) : Engine := { e with installed := some r }

/-- The transfers that an engine stops and starts when it goes over to a configuration. -/
def transfers (e : Engine) (r : Reconfigure) : List Output :=
  match e.installed with
  | some previous => if e.isMember then reassignTransfers e.self previous r else []
  | none => []

/-- Leaves a view, joins it or stays in it. -/
def move (e : Engine) (r : Reconfigure) (wasMember : Bool) : Engine × List Output :=
  if !r.view.contains e.self then e.retire
  else if !wasMember then (e.join r, [])
  else (e, [])

/-- Becomes ready if nothing is awaited any more. -/
def catchUp (e : Engine) (member : Bool) : Engine × List Output :=
  if member && e.state = .syncing && e.awaiting.isNone then e.markReady else (e, [])

lemma reconfigure_of_stale {r : Reconfigure} (h : e.isStale r = true) :
    e.reconfigure r = (e, []) := if_pos h

/-- A newer configuration is adopted: the transfers are reassigned, the oracle is told the view, the
replica leaves, joins or stays, and it is announced how. -/
lemma reconfigure_of_new {r : Reconfigure} (h : e.isStale r = false) :
    e.reconfigure r =
      let moved := (e.adopt r).move r e.isMember
      let ready := moved.1.catchUp (r.view.contains e.self)
      (ready.1, e.transfers r ++ .install r.view :: moved.2 ++
        .event (.viewInstalled r.view r.responsibility moved.1.state) :: ready.2) := by
  have hnew : ¬ e.installed.any (r.view.id ≤ ·.view.id) = true := by
    show ¬ e.isStale r = true
    rw [h]
    simp
  unfold reconfigure
  rw [if_neg hnew]
  rfl

/-! ## The values that are held -/

/-- The engine with other values held for their turn. -/
def withHeld (held : SortedMap Nat LogValue) (e : Engine) : Engine := { e with held }

lemma execute_withHeld (e : Engine) (held : SortedMap Nat LogValue) (op : Operation) :
    (e.withHeld held).execute op = (e.execute op).map (withHeld held) id := by
  have hperform : ∀ executed, perform { e.withHeld held with executed } op.kind =
      perform { e with executed } op.kind := fun _ => rfl
  obtain ⟨self, config, store, state, installed, next, held₀, count, executed, leader, awaiting,
    deferred⟩ := e
  unfold execute withHeld at *
  by_cases hknown : executed.contains op.id = true
  · rw [if_pos hknown, if_pos hknown]
    rfl
  · rw [if_neg hknown, if_neg hknown]
    cases installed with
    | none => rfl
    | some r =>
      simp only
      by_cases hin : r.responsibility.admits op.target = true
      · simp only [hin, Bool.not_true, Bool.false_eq_true, if_false, hperform]
        cases perform _ op.kind with
        | ok result => rfl
        | error fault => rfl
      · simp only [hin, Bool.not_false, if_true]
        rfl

lemma move_withHeld (e : Engine) (held : SortedMap Nat LogValue) (r : Reconfigure)
    (wasMember : Bool) :
    (e.withHeld held).move r wasMember = (e.move r wasMember).map (withHeld held) id := by
  have hself : (e.withHeld held).self = e.self := rfl
  unfold move
  rw [hself]
  cases r.view.contains e.self with
  | false => rfl
  | true =>
    cases wasMember with
    | false => rfl
    | true => rfl

lemma catchUp_withHeld (e : Engine) (held : SortedMap Nat LogValue) (member : Bool) :
    (e.withHeld held).catchUp member = (e.catchUp member).map (withHeld held) id := by
  have hstate : (e.withHeld held).state = e.state := rfl
  have hawaiting : (e.withHeld held).awaiting = e.awaiting := rfl
  unfold catchUp
  rw [hstate, hawaiting]
  cases member && e.state = .syncing && e.awaiting.isNone with
  | false => rfl
  | true => rfl

lemma reconfigure_withHeld (e : Engine) (held : SortedMap Nat LogValue) (r : Reconfigure) :
    (e.withHeld held).reconfigure r = (e.reconfigure r).map (withHeld held) id := by
  cases hstale : e.isStale r with
  | true =>
    rw [reconfigure_of_stale hstale, reconfigure_of_stale (e := e.withHeld held) hstale]
    rfl
  | false =>
    have hadopt : (e.withHeld held).adopt r = (e.adopt r).withHeld held := rfl
    have hmember : (e.withHeld held).isMember = e.isMember := rfl
    rw [reconfigure_of_new hstale, reconfigure_of_new (e := e.withHeld held) hstale]
    simp only [hadopt, hmember, move_withHeld, Prod.map_fst, catchUp_withHeld]
    rfl

/-- What a value does to an engine does not depend on what the engine holds. -/
theorem apply_withHeld (e : Engine) (held : SortedMap Nat LogValue) (value : LogValue) :
    (e.withHeld held).apply value = (e.apply value).map (withHeld held) id := by
  cases value with
  | noop => rfl
  | reconfigure r => exact e.reconfigure_withHeld held r
  | operation op =>
    have hawaiting : (e.withHeld held).awaiting = e.awaiting := rfl
    unfold apply
    simp only [hawaiting, execute_withHeld]
    by_cases hwait : e.awaiting.isSome = true
    · rw [if_pos hwait, if_pos hwait]
      rfl
    · rw [if_neg hwait, if_neg hwait]
      rfl

lemma countApplied_withHeld (e : Engine) (held : SortedMap Nat LogValue) :
    (e.withHeld held).countApplied = e.countApplied.map (withHeld held) id := by
  unfold countApplied withHeld
  simp only
  by_cases hfull : e.config.pruneInterval ≤ e.appliedSincePrune + 1
  · rw [if_pos hfull, if_pos hfull]
    rfl
  · rw [if_neg hfull, if_neg hfull]
    rfl

lemma outputAt_withHeld (e : Engine) (held : SortedMap Nat LogValue) (value : LogValue) :
    (e.withHeld held).outputAt (.value value) = e.outputAt (.value value) := by
  show ((e.withHeld held).apply value).2 ++ ((e.withHeld held).apply value).1.countApplied.2 = _
  rw [apply_withHeld, Prod.map_fst, countApplied_withHeld]
  rfl

lemma applyNext_withHeld (e : Engine) (held : SortedMap Nat LogValue) (value : LogValue) :
    (e.withHeld held).applyNext value = (e.applyNext value).withHeld (held.erase e.next) := by
  have herase : ∀ e' : Engine, e'.applyNext value =
      ((e'.withHeld (e'.held.erase e'.next)).apply value).1.countApplied.1 := fun _ => rfl
  rw [herase, herase]
  show (((e.withHeld (held.erase e.next)).apply value).1).countApplied.1 = _
  simp only [apply_withHeld, Prod.map_fst, countApplied_withHeld]
  rfl

/-! ## Inputs as steps -/

lemma applyHeld_output (fuel : Nat) (e : Engine) :
    (applyHeld fuel e).2 = e.outputAlong ((heldFrom fuel e.next e.held).map .value) := by
  induction fuel generalizing e with
  | zero => rfl
  | succ fuel ih =>
    unfold applyHeld heldFrom
    cases hget : e.held.get? e.next with
    | none => rfl
    | some value =>
      -- the value says what it does on an engine that holds it no longer
      have hrest := ih (e.applyNext value)
      have hhead := e.outputAt_withHeld (e.held.erase e.next) value
      rw [(e.applyNext_place value).1, (e.applyNext_place value).2] at hrest
      rw [List.map_cons]
      show _ = e.outputAt (.value value) ++ (e.applyNext value).outputAlong _
      rw [← hrest, ← hhead]
      rfl

/-- A decision says what the values say that it makes due. -/
theorem decide_output (e : Engine) (position : Nat) (value : LogValue) :
    (e.decide position value).2 = e.outputAlong (e.stepsOf (.decided position value)) := by
  unfold Engine.decide stepsOf due
  by_cases hold : position < e.next
  · simp only [if_pos hold]
    rfl
  · simp only [if_neg hold]
    exact applyHeld_output _ _

/-- Inputs say what their steps say. -/
theorem outputOfRun_eq (e : Engine) (inputs : List Input) :
    e.outputOfRun inputs = e.outputAlong (e.stepsOfAll inputs) := by
  induction inputs generalizing e with
  | nil => rfl
  | cons input rest ih =>
    have hone : ∀ s, e.outputAt s = e.outputAlong [s] := fun s => (List.append_nil _).symm
    have hinput : e.outputOf input = e.outputAlong (e.stepsOf input) := by
      cases input with
      | decided position value => exact e.decide_output position value
      | bootstrap r => exact hone (.bootstrap r)
      | oracle event => rfl
      | mover event => exact hone (.mover event)
      | page items => rfl
    have hstate : e.receive input = e.follow (e.stepsOf input) := by
      have hrun := e.run_eq [input]
      rw [stepsOfAll, stepsOfAll, List.append_nil] at hrun
      exact hrun
    calc e.outputOf input ++ (e.receive input).outputOfRun rest
        = e.outputAlong (e.stepsOf input) ++
            (e.receive input).outputAlong ((e.receive input).stepsOfAll rest) := by rw [hinput, ih]
      _ = e.outputAlong (e.stepsOf input) ++
            (e.follow (e.stepsOf input)).outputAlong ((e.receive input).stepsOfAll rest) := by
          rw [hstate]
      _ = e.outputAlong (e.stepsOfAll (input :: rest)) := (e.outputAlong_append _ _).symm

end Engine

end ReplicaRing
