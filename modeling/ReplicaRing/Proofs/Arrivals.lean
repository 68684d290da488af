import ReplicaRing.Proofs.ExecutionTrace

/-!
All that comes to an engine: its inputs, requests of the router, which change nothing, and changes
of the store that others make, who share it. A run of an engine applies values at one position after
the other, `Engine.positions_applied`, each of which was decided for its position,
`Engine.decided_of_applied`. What it brings up for execution is chained by its memory,
`Engine.chained_arrivals`.
-/

namespace ReplicaRing

namespace Engine

/-- What comes to an engine. -/
inductive Arrival where
  | input (input : Input)
  /-- A client's operation, to be proposed to the log. -/
  | submit (op : Operation)
  | propose (r : Reconfigure)
  /-- The store comes to hold other entries, or to refuse other calls. -/
  | store (store : Store)

def react (e : Engine) : Arrival → Engine
  | .input input => e.receive input
  | .store store => { e with store }
  | .submit _ | .propose _ => e

/-- The engine after some arrivals. -/
def course (e : Engine) (arrivals : List Arrival) : Engine := arrivals.foldl react e

/-- The steps that an arrival sets off. -/
def stepsOn (e : Engine) : Arrival → List Step
  | .input input => e.stepsOf input
  | .submit _ | .propose _ | .store _ => []

/-- What an engine says on an arrival. -/
def outputOn (e : Engine) : Arrival → List Output
  | .input input => e.outputOf input
  | .submit op => e.submit op
  | .propose r => e.propose r
  | .store _ => []

/-- The answers to decided operations on an arrival. What is said to a client's request is none. -/
def answersOn (e : Engine) : Arrival → List Answer
  | .input input => answersIn (e.outputOn (.input input))
  | .submit _ | .propose _ | .store _ => []

/-- The answers to decided operations in a run. -/
def answers (e : Engine) : List Arrival → List Answer
  | [] => []
  | a :: rest => e.answersOn a ++ (e.react a).answers rest

/-- The operations that come up for execution in a run. -/
def executions (e : Engine) : List Arrival → List Execution
  | [] => []
  | a :: rest => e.executionsAlong (e.stepsOn a) ++ (e.react a).executions rest

/-- The value that a step applies, with its position. -/
def appliedAt (e : Engine) : Step → List (Nat × LogValue)
  | .value value => [(e.next, value)]
  | .hold _ _ | .bootstrap _ | .oracle _ | .mover _ | .page _ => []

def appliedAlong (e : Engine) : List Step → List (Nat × LogValue)
  | [] => []
  | s :: rest => e.appliedAt s ++ (e.step s).appliedAlong rest

/-- The values that a run applies, with their positions. -/
def applied (e : Engine) : List Arrival → List (Nat × LogValue)
  | [] => []
  | a :: rest => e.appliedAlong (e.stepsOn a) ++ (e.react a).applied rest

variable {e : Engine}

/-! ## Arrivals as steps -/

/-- An arrival does what its steps do, on whatever store. -/
lemma react_eq (e : Engine) (a : Arrival) :
    ∃ store, e.react a = { e.follow (e.stepsOn a) with store } := by
  cases a with
  | input input =>
    refine ⟨(e.follow (e.stepsOf input)).store, ?_⟩
    show e.receive input = e.follow (e.stepsOf input)
    have hrun := e.run_eq [input]
    rw [stepsOfAll, stepsOfAll, List.append_nil] at hrun
    exact hrun
  | submit op => exact ⟨e.store, rfl⟩
  | propose r => exact ⟨e.store, rfl⟩
  | store store => exact ⟨store, rfl⟩

lemma Consistent.react (h : e.Consistent) (a : Arrival) : (e.react a).Consistent := by
  obtain ⟨store, ha⟩ := e.react_eq a
  have hsteps := h.follow (e.stepsOn a)
  rw [ha]
  exact hsteps.with_store store (e.follow (e.stepsOn a)).executed

lemma Consistent.course (h : e.Consistent) (arrivals : List Arrival) :
    (e.course arrivals).Consistent := by
  induction arrivals generalizing e with
  | nil => exact h
  | cons a rest ih => exact ih (h.react a)

/-- The answers along some steps. -/
lemma answersOn_eq (e : Engine) (a : Arrival) :
    e.answersOn a = answersIn (e.outputAlong (e.stepsOn a)) := by
  cases a with
  | input input =>
    have hout := e.outputOfRun_eq [input]
    rw [stepsOfAll, stepsOfAll, List.append_nil] at hout
    show answersIn (e.outputOf input) = answersIn (e.outputAlong (e.stepsOf input))
    rw [← hout]
    exact congrArg answersIn (List.append_nil _).symm
  | submit op => rfl
  | propose r => rfl
  | store store => rfl

/-- What is executed is answered, in that order, and every other answer is to an operation that is
given up. -/
lemma answers_along (e : Engine) (steps : List Step) :
    ((e.executionsAlong steps).map Execution.answer).Sublist (answersIn (e.outputAlong steps)) ∧
      ∀ a ∈ answersIn (e.outputAlong steps),
        a ∈ (e.executionsAlong steps).map Execution.answer ∨ ∃ op, a = giveUp op := by
  induction steps generalizing e with
  | nil => exact ⟨List.Sublist.refl [], fun a ha => by cases ha⟩
  | cons s rest ih =>
    obtain ⟨hsublist, hothers⟩ := ih (e.step s)
    show ((e.executionsAt s ++ (e.step s).executionsAlong rest).map _).Sublist
        (answersIn (e.outputAt s ++ (e.step s).outputAlong rest)) ∧
      ∀ a ∈ answersIn (e.outputAt s ++ (e.step s).outputAlong rest),
        a ∈ (e.executionsAt s ++ (e.step s).executionsAlong rest).map _ ∨ _
    rw [List.map_append, answersIn_append, answersIn_outputAt]
    refine ⟨(List.sublist_append_left _ _).append hsublist, fun a ha => ?_⟩
    rw [List.mem_append, List.mem_append] at ha
    rcases ha with (hnow | habandoned) | hlater
    · exact .inl (List.mem_append_left _ hnow)
    · obtain ⟨op, -, rfl⟩ := List.mem_map.1 habandoned
      exact .inr ⟨op, rfl⟩
    · exact (hothers a hlater).imp_left (List.mem_append_right _)

/-- The same of a run. -/
lemma answers_arrivals (e : Engine) (arrivals : List Arrival) :
    ((e.executions arrivals).map Execution.answer).Sublist (e.answers arrivals) ∧
      ∀ a ∈ e.answers arrivals,
        a ∈ (e.executions arrivals).map Execution.answer ∨ ∃ op, a = giveUp op := by
  induction arrivals generalizing e with
  | nil => exact ⟨List.Sublist.refl [], fun a ha => by cases ha⟩
  | cons first rest ih =>
    obtain ⟨hsublist, hothers⟩ := ih (e.react first)
    obtain ⟨hsublist', hothers'⟩ := e.answers_along (e.stepsOn first)
    show ((e.executionsAlong (e.stepsOn first) ++ (e.react first).executions rest).map _).Sublist
        (e.answersOn first ++ (e.react first).answers rest) ∧
      ∀ a ∈ e.answersOn first ++ (e.react first).answers rest,
        a ∈ (e.executionsAlong (e.stepsOn first) ++ (e.react first).executions rest).map _ ∨ _
    rw [List.map_append, answersOn_eq]
    refine ⟨hsublist'.append hsublist, fun a ha => ?_⟩
    rcases List.mem_append.1 ha with hnow | hlater
    · exact (hothers' a hnow).imp_left (List.mem_append_left _)
    · exact (hothers a hlater).imp_left (List.mem_append_right _)

/-- In a run, each execution finds the memory that the ones before it left. -/
theorem chained_arrivals (h : e.Consistent) (arrivals : List Arrival) :
    Execution.Chained e.executed (e.executions arrivals) := by
  induction arrivals generalizing e with
  | nil => trivial
  | cons a rest ih =>
    obtain ⟨hsteps, hmemory⟩ := chained_along h (e.stepsOn a)
    obtain ⟨store, ha⟩ := e.react_eq a
    have hrest := ih (h.react a)
    have hafter : (e.react a).executed = (e.follow (e.stepsOn a)).executed := by rw [ha]
    rw [hafter, hmemory] at hrest
    exact Execution.chained_append.2 ⟨hsteps, hrest⟩

/-! ## Applied values -/

/-- A step that applies no value leaves the place in the log alone. -/
lemma next_step (h : e.Consistent) (s : Step) :
    (e.step s).next = e.next + (e.appliedAt s).length := by
  cases s with
  | hold position value => rfl
  | page items => rfl
  | oracle event =>
    cases event with
    | trust leader view => rfl
    | livenessChanged leader => rfl
  | value value => exact (e.applyNext_place value).1
  | bootstrap r =>
    obtain ⟨_, _, _, _, hmove⟩ := e.reconfigure_rest r
    show (e.reconfigure r).1.next = e.next
    rw [hmove]
  | mover event =>
    show (e.handleMover event).1.next = e.next
    obtain ⟨_, _, hexecute⟩ :=
      executeAll_rest { e with awaiting := none, deferred := [] } e.deferred
    rw [handleMover_eq h, hexecute]
    split
    · rfl
    · rfl

/-- Values are applied at one position after the other. -/
lemma positions_along (h : e.Consistent) (steps : List Step) :
    (e.appliedAlong steps).map Prod.fst =
        List.range' e.next (e.appliedAlong steps).length ∧
      (e.follow steps).next = e.next + (e.appliedAlong steps).length := by
  induction steps generalizing e with
  | nil => exact ⟨rfl, rfl⟩
  | cons s rest ih =>
    obtain ⟨hpositions, hnext⟩ := ih (h.step s)
    have hplace := next_step h s
    have hfirst : (e.appliedAt s).map Prod.fst = List.range' e.next (e.appliedAt s).length := by
      cases s with
      | value value => rfl
      | _ => rfl
    show (e.appliedAt s ++ (e.step s).appliedAlong rest).map Prod.fst = List.range' e.next
        (e.appliedAt s ++ (e.step s).appliedAlong rest).length ∧
      ((e.step s).follow rest).next = e.next +
        (e.appliedAt s ++ (e.step s).appliedAlong rest).length
    rw [List.map_append, List.length_append, hpositions, hfirst, hplace, hnext, hplace]
    exact ⟨List.range'_append_1, Nat.add_assoc ..⟩

/-- A run applies values at one position after the other, up to the place where it is then. -/
theorem positions_applied (h : e.Consistent) (arrivals : List Arrival) :
    (e.applied arrivals).map Prod.fst = List.range' e.next (e.applied arrivals).length ∧
      (e.course arrivals).next = e.next + (e.applied arrivals).length := by
  induction arrivals generalizing e with
  | nil => exact ⟨rfl, rfl⟩
  | cons a rest ih =>
    obtain ⟨hpositions, hnext⟩ := ih (h.react a)
    obtain ⟨hfirst, hplace⟩ := positions_along h (e.stepsOn a)
    obtain ⟨store, ha⟩ := e.react_eq a
    have hafter : (e.react a).next = (e.follow (e.stepsOn a)).next := by rw [ha]
    rw [hafter, hplace] at hpositions hnext
    show (e.appliedAlong (e.stepsOn a) ++ (e.react a).applied rest).map Prod.fst =
        List.range' e.next (e.appliedAlong (e.stepsOn a) ++ (e.react a).applied rest).length ∧
      ((e.react a).course rest).next = e.next +
        (e.appliedAlong (e.stepsOn a) ++ (e.react a).applied rest).length
    rw [List.map_append, List.length_append, hpositions, hfirst, hnext]
    exact ⟨List.range'_append_1, Nat.add_assoc ..⟩

/-- The values that are due were held for their positions. -/
lemma held_of_due (fuel : Nat) {held : SortedMap Nat LogValue} {p : Nat} {value : LogValue}
    (h : (p, value) ∈ e.appliedAlong ((heldFrom fuel e.next held).map .value)) :
    held.get? p = some value := by
  induction fuel generalizing e held with
  | zero => cases h
  | succ fuel ih =>
    unfold heldFrom at h
    cases hget : held.get? e.next with
    | none =>
      rw [hget] at h
      cases h
    | some first =>
      rw [hget] at h
      rcases List.mem_cons.1 h with heq | hrest
      · obtain ⟨rfl, rfl⟩ := Prod.mk.inj heq
        exact hget
      · have hnext : (e.step (.value first)).next = e.next + 1 := (e.applyNext_place first).1
        rw [← hnext] at hrest
        have hlater := ih hrest
        rw [SortedMap.get?_erase] at hlater
        split at hlater
        · cases hlater
        · exact hlater

/-- What is held was held before, or is held from this step on. -/
lemma held_step (h : e.Consistent) {s : Step} {p : Nat} {value : LogValue}
    (hheld : (e.step s).held.get? p = some value) :
    e.held.get? p = some value ∨ s = .hold p value := by
  cases s with
  | hold position v =>
    have hinsert : (e.held.insert position v).get? p = some value := hheld
    rw [SortedMap.get?_insert] at hinsert
    split at hinsert
    · obtain rfl := ‹p = position›
      exact .inr (by rw [Option.some.inj hinsert])
    · exact .inl hinsert
  | page items => exact .inl hheld
  | oracle event =>
    cases event with
    | trust leader view => exact .inl hheld
    | livenessChanged leader => exact .inl hheld
  | value v =>
    have herase : (e.applyNext v).held.get? p = some value := hheld
    rw [(e.applyNext_place v).2, SortedMap.get?_erase] at herase
    split at herase
    · cases herase
    · exact .inl herase
  | bootstrap r =>
    obtain ⟨_, _, _, _, hmove⟩ := e.reconfigure_rest r
    have hafter : (e.reconfigure r).1.held.get? p = some value := hheld
    rw [hmove] at hafter
    exact .inl hafter
  | mover event =>
    obtain ⟨_, _, hexecute⟩ :=
      executeAll_rest { e with awaiting := none, deferred := [] } e.deferred
    have hafter : (e.handleMover event).1.held.get? p = some value := hheld
    rw [handleMover_eq h, hexecute] at hafter
    split at hafter
    · exact .inl hafter
    · exact .inl hafter

lemma held_follow (h : e.Consistent) {steps : List Step} {p : Nat} {value : LogValue}
    (hheld : (e.follow steps).held.get? p = some value) :
    e.held.get? p = some value ∨ .hold p value ∈ steps := by
  induction steps generalizing e with
  | nil => exact .inl hheld
  | cons s rest ih =>
    rcases ih (h.step s) hheld with hbefore | hin
    · rcases held_step h hbefore with hold | rfl
      · exact .inl hold
      · exact .inr (by simp)
    · exact .inr (List.mem_cons_of_mem _ hin)

/-- What an arrival applies, and what is held after it, was held before or is decided with it. -/
lemma decided_on (h : e.Consistent) {a : Arrival} {p : Nat} {value : LogValue}
    (hvalue : (p, value) ∈ e.appliedAlong (e.stepsOn a) ∨
      (e.react a).held.get? p = some value) :
    e.held.get? p = some value ∨ a = .input (.decided p value) := by
  -- the only step that holds a value is that of its decision
  have hholds : .hold p value ∈ e.stepsOn a → a = .input (.decided p value) := by
    intro hin
    cases a with
    | input input =>
      cases input with
      | decided position v =>
        have hsteps : e.stepsOn (.input (.decided position v)) = if position < e.next then []
            else .hold position v :: (e.due position v).map .value := rfl
        rw [hsteps] at hin
        split at hin
        · cases hin
        · simpa [eq_comm] using hin
      | bootstrap r => simp [stepsOn, stepsOf] at hin
      | oracle event => simp [stepsOn, stepsOf] at hin
      | mover event => simp [stepsOn, stepsOf] at hin
      | page items => simp [stepsOn, stepsOf] at hin
    | submit op => cases hin
    | propose r => cases hin
    | store store => cases hin
  rcases hvalue with happlied | hheld
  · cases a with
    | input input =>
      cases input with
      | decided position v =>
        have hsteps : e.stepsOn (.input (.decided position v)) = if position < e.next then []
            else .hold position v :: (e.due position v).map .value := rfl
        have hdue : e.due position v = if position < e.next then []
            else heldFrom (e.held.insert position v).size e.next (e.held.insert position v) := rfl
        rw [hsteps, hdue] at happlied
        by_cases hold : position < e.next
        · rw [if_pos hold] at happlied
          cases happlied
        · rw [if_neg hold, if_neg hold] at happlied
          have hheld : (e.held.insert position v).get? p = some value :=
            held_of_due (e := e.step (.hold position v)) _ happlied
          rcases held_step (s := .hold position v) h hheld with hbefore | heq
          · exact .inl hbefore
          · exact .inr (by cases heq; rfl)
      | bootstrap r => cases happlied
      | oracle event => cases happlied
      | mover event => cases happlied
      | page items => cases happlied
    | submit op => cases happlied
    | propose r => cases happlied
    | store store => cases happlied
  · obtain ⟨store, ha⟩ := e.react_eq a
    rw [ha] at hheld
    exact (held_follow h hheld).imp_right hholds

/-- What a run applies was decided for its position in the run, or was held before. -/
theorem decided_of_applied (h : e.Consistent) {arrivals : List Arrival} {p : Nat}
    {value : LogValue} (hvalue : (p, value) ∈ e.applied arrivals) :
    e.held.get? p = some value ∨ .input (.decided p value) ∈ arrivals := by
  induction arrivals generalizing e with
  | nil => cases hvalue
  | cons a rest ih =>
    rcases List.mem_append.1 hvalue with hnow | hlater
    · rcases decided_on h (.inl hnow) with hbefore | rfl
      · exact .inl hbefore
      · exact .inr (by simp)
    · rcases ih (h.react a) hlater with hheld | hin
      · rcases decided_on h (.inr hheld) with hbefore | rfl
        · exact .inl hbefore
        · exact .inr (by simp)
      · exact .inr (List.mem_cons_of_mem _ hin)

end Engine

end ReplicaRing
