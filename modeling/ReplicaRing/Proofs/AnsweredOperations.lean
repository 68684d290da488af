import ReplicaRing.Proofs.Arrivals

/-!
Every decided operation is answered, once and in its turn. A step answers the operations that wait
in front, or holds back the one that it decides: what is answered and what is then held back is what
was held back before and what is decided, `Engine.answered_step`. So in every run the answers and
the operations held back at its end are the operations of the log, as far as it is applied,
`Engine.answered_in_order`.
-/

namespace ReplicaRing

/-- The operation that a value decides. -/
def LogValue.operation? : LogValue → Option Operation
  | operation op => some op
  | noop | reconfigure _ => none

/-- The operations among applied values, in the order of their positions. -/
def operationsAmong (applied : List (Nat × LogValue)) : List Operation :=
  applied.filterMap fun entry => entry.2.operation?

namespace Engine

variable {e : Engine}

/-- The numbers that are answered, and then those that are held back. -/
def accounted (answers : List Answer) (deferred : List Operation) : List OperationId :=
  answers.map Answer.id ++ deferred.map Operation.id

/-- What is answered first and what is answered then. -/
lemma accounted_trans {first second : List Answer} {before between after ops more : List Operation}
    (h : accounted first between = accounted [] (before ++ ops))
    (h' : accounted second after = accounted [] (between ++ more)) :
    accounted (first ++ second) after = accounted [] (before ++ (ops ++ more)) := by
  unfold accounted at *
  calc (first ++ second).map Answer.id ++ after.map Operation.id
      = first.map Answer.id ++ (between ++ more).map Operation.id := by
        rw [List.map_append, List.append_assoc, h']
        rfl
    _ = (before ++ ops).map Operation.id ++ more.map Operation.id := by
        rw [List.map_append, ← List.append_assoc, h]
        rfl
    _ = (before ++ (ops ++ more)).map Operation.id := by
        rw [← List.map_append, List.append_assoc]

lemma ids_executionsOf (e : Engine) (ops : List Operation) :
    ((e.executionsOf ops).map Execution.answer).map Answer.id = ops.map Operation.id := by
  have hids : Answer.id ∘ Execution.answer = Operation.id ∘ Execution.op :=
    funext Execution.id_answer
  rw [List.map_map, hids, ← List.map_map, executionsOf_op]

lemma ids_giveUp (ops : List Operation) :
    (ops.map giveUp).map Answer.id = ops.map Operation.id := by
  rw [List.map_map]
  rfl

/-- A change of view answers all that is held back, or goes on holding it back. -/
lemma abandoned_reconfigure (h : e.Consistent) (r : Reconfigure) :
    e.abandonedBy r ++ (e.reconfigure r).1.deferred = e.deferred := by
  unfold abandonedBy
  rw [reconfigure_eq h]
  cases hstale : e.isStale r with
  | true => rfl
  | false =>
    cases hstays : r.view.contains e.self with
    | false => exact List.append_nil _
    | true =>
      cases e.isMember with
      | true => rfl
      | false => rfl

/-- What a step answers, and what is held back after it, is what was held back before it and what it
decides. -/
theorem answered_step (h : e.Consistent) (s : Step) :
    accounted (answersIn (e.outputAt s)) (e.step s).deferred =
      accounted [] (e.deferred ++ s.operations) := by
  unfold accounted
  rw [answersIn_outputAt, List.map_append, ids_giveUp]
  rcases s.kinds with ⟨r, hr, hoperations, hmover⟩ | ⟨op, rfl⟩ | ⟨event, rfl⟩ |
    ⟨hchanges, hoperations, hmover⟩
  · -- nothing comes up for execution on a change of view
    have habandoned : e.abandonedAt s = e.abandonedBy r := by
      unfold abandonedAt
      rw [hr]
      exact List.append_nil _
    rw [executionsAt_eq_nil hoperations hmover, habandoned, (standsAs_change h hr).deferred,
      hoperations, List.append_nil, ← abandoned_reconfigure h r, List.map_append]
    rfl
  · -- an operation is held back, or answered at once while nothing is held back
    rw [(e.standsAs_operation op).deferred, executionsAt_operation]
    by_cases hwait : e.awaiting.isSome = true
    · rw [if_pos hwait, if_pos hwait]
      rfl
    · have hnone : e.deferred = [] := by
        refine h.deferred ?_
        simpa using hwait
      rw [if_neg hwait, if_neg hwait, ids_executionsOf, hnone]
      rfl
  · -- the end of a wait answers all that is held back
    have hoperations : (Step.mover event).operations = [] := rfl
    rw [(standsAs_mover h event).deferred, executionsAt_mover, hoperations, List.append_nil]
    by_cases hdone : e.completedBy event = true
    · rw [if_pos hdone, if_pos hdone, ids_executionsOf]
      exact (List.append_nil _).trans (List.append_nil _)
    · rw [if_neg hdone, if_neg hdone]
      rfl
  · have habandoned : e.abandonedAt s = [] := by
      unfold abandonedAt
      rw [hchanges]
      rfl
    rw [executionsAt_eq_nil hoperations hmover, habandoned,
      (standsAs_quiet hchanges hoperations hmover).deferred, hoperations, List.append_nil]
    rfl

lemma answered_along (h : e.Consistent) (steps : List Step) :
    accounted (answersIn (e.outputAlong steps)) (e.follow steps).deferred =
      accounted [] (e.deferred ++ steps.flatMap Step.operations) := by
  induction steps generalizing e with
  | nil => exact congrArg (accounted []) (List.append_nil _).symm
  | cons s rest ih =>
    have hrest := accounted_trans (answered_step h s) (ih (h.step s))
    rw [← answersIn_append] at hrest
    exact hrest

lemma operations_along (e : Engine) (steps : List Step) :
    operationsAmong (e.appliedAlong steps) = steps.flatMap Step.operations := by
  induction steps generalizing e with
  | nil => rfl
  | cons s rest ih =>
    have hfirst : operationsAmong (e.appliedAt s) = s.operations := by
      cases s with
      | value value =>
        cases value with
        | operation op => rfl
        | noop => rfl
        | reconfigure r => rfl
      | _ => rfl
    show operationsAmong (e.appliedAt s ++ (e.step s).appliedAlong rest) = _
    rw [List.flatMap_cons, ← ih (e.step s), ← hfirst]
    exact List.filterMap_append

/-- The answers of a run and the operations held back at its end are the operations held back at
its start and those that the run applies. -/
theorem answered_arrivals (h : e.Consistent) (arrivals : List Arrival) :
    accounted (e.answers arrivals) (e.course arrivals).deferred =
      accounted [] (e.deferred ++ operationsAmong (e.applied arrivals)) := by
  induction arrivals generalizing e with
  | nil => exact congrArg (accounted []) (List.append_nil _).symm
  | cons a rest ih =>
    -- a change of the store leaves what is held back alone
    obtain ⟨store, ha⟩ := e.react_eq a
    have hdeferred : (e.react a).deferred = (e.follow (e.stepsOn a)).deferred := by rw [ha]
    have hlater := ih (h.react a)
    rw [hdeferred] at hlater
    have hall := accounted_trans (answered_along h (e.stepsOn a)) hlater
    have hoperations : operationsAmong (e.applied (a :: rest)) =
        (e.stepsOn a).flatMap Step.operations ++ operationsAmong ((e.react a).applied rest) := by
      rw [← operations_along e]
      exact List.filterMap_append
    rw [← hoperations, ← answersOn_eq] at hall
    exact hall

/-- In every run of an engine, the answers to decided operations, and then the operations that are
held back, are the operations of the log in the order of their positions, from the first one up to
the place that is reached; each value was decided for its position. Nothing is held back unless a
transfer is awaited. -/
theorem answered_in_order (self : NodeId) (config : ReplicationConfig) (store : Store)
    (arrivals : List Arrival) :
    let e := start self config store
    (e.answers arrivals).map Answer.id ++ (e.course arrivals).deferred.map Operation.id =
        (operationsAmong (e.applied arrivals)).map Operation.id ∧
      (e.applied arrivals).map Prod.fst = List.range' 1 ((e.course arrivals).next - 1) ∧
      (∀ p value, (p, value) ∈ e.applied arrivals → .input (.decided p value) ∈ arrivals) ∧
      ((e.course arrivals).awaiting = none → (e.course arrivals).deferred = []) := by
  intro e
  have hstart : e.Consistent := consistent_start self config store
  obtain ⟨hpositions, hnext⟩ := positions_applied hstart arrivals
  refine ⟨answered_arrivals hstart arrivals, ?_, fun p value hvalue => ?_,
    (hstart.course arrivals).deferred⟩
  · have hcount : (e.course arrivals).next - 1 = (e.applied arrivals).length := by
      have hfirst : e.next = 1 := rfl
      omega
    rw [hcount]
    exact hpositions
  · -- nothing is held at the start
    refine (decided_of_applied hstart hvalue).resolve_left fun hheld => ?_
    have hnone : e.held.get? p = none := rfl
    rw [hnone] at hheld
    cases hheld

end Engine

end ReplicaRing
