import ReplicaRing.Proofs.Announcements
import ReplicaRing.Proofs.AnsweredOperations
import ReplicaRing.Proofs.RecentMemory

/-!
The numbers of operations on their way through an engine. While nothing is held back, the answers
that an engine tells the router of, and the numbers that it puts in mind, are those of operations
that are decided just then, `Engine.decides_of_told` and `Engine.decides_of_executed`. What it
proposes to the log is what it was asked to propose, `Engine.proposalsIn_outputOf`.
-/

namespace ReplicaRing

/-- The number of the operation that a value decides. -/
def LogValue.number? (value : LogValue) : Option OperationId := value.operation?.map Operation.id

/-- The number of the operation that an event answers. -/
def EngineEvent.number? : EngineEvent → Option OperationId
  | response a => some a.id
  | viewInstalled _ _ _ | synced _ => none

/-- The value that a request proposes. -/
def LogRequest.value? : LogRequest → Option LogValue
  | propose value => some value
  | prune _ => none

namespace Engine

/-- The value that an output proposes. -/
def Output.proposal? : Output → Option LogValue
  | .log (.propose value) => some value
  | .log (.prune _) | .event _ | .install _ | .mover _ => none

/-- The values that some outputs propose. -/
def proposalsIn (out : List Output) : List LogValue := out.filterMap Output.proposal?

/-- What an output asks of the log. -/
def Output.request? : Output → Option LogRequest
  | .log request => some request
  | .event _ | .install _ | .mover _ => none

/-- What some outputs ask of the log. -/
def requestsIn (out : List Output) : List LogRequest := out.filterMap Output.request?

/-- The numbers of the operations that an input decides. -/
def decides (e : Engine) (input : Input) : List OperationId :=
  ((e.stepsOf input).flatMap Step.operations).map Operation.id

variable {e : Engine}

/-! ## Answers and memory -/

/-- The numbers of answers are those of the events that bring them. -/
lemma numbers_eventsIn (out : List Output) :
    (eventsIn out).filterMap EngineEvent.number? = (answersIn out).map Answer.id := by
  unfold eventsIn answersIn
  rw [List.filterMap_filterMap, List.map_filterMap]
  congr 1
  funext o
  cases o with
  | event event =>
    cases event with
    | viewInstalled view range state => rfl
    | synced v => rfl
    | response a => rfl
  | log request => rfl
  | install view => rfl
  | mover command => rfl

/-- The state after an input is that after its steps, and so are the answers. -/
lemma receive_follow (e : Engine) (input : Input) :
    e.receive input = e.follow (e.stepsOf input) ∧
      answersIn (e.outputOf input) = answersIn (e.outputAlong (e.stepsOf input)) := by
  have hrun := e.run_eq [input]
  rw [stepsOfAll, stepsOfAll, List.append_nil] at hrun
  exact ⟨hrun, e.answersOn_eq (.input input)⟩

/-- An answer is to an operation that is decided, while nothing is held back. -/
lemma decides_of_answered (h : e.Consistent) (hnone : e.deferred = []) (input : Input)
    {n : OperationId} (hn : n ∈ (answersIn (e.outputOf input)).map Answer.id) :
    n ∈ e.decides input := by
  have haccount := answered_along h (e.stepsOf input)
  unfold accounted at haccount
  rw [hnone, List.nil_append, List.map_nil, List.nil_append,
    ← (e.receive_follow input).2] at haccount
  unfold decides
  rw [← haccount]
  exact List.mem_append_left _ hn

theorem decides_of_told (h : e.Consistent) (hnone : e.deferred = []) (input : Input)
    {event : EngineEvent} (hevent : event ∈ eventsIn (e.outputOf input)) {n : OperationId}
    (hn : event.number? = some n) : n ∈ e.decides input := by
  refine decides_of_answered h hnone input ?_
  rw [← numbers_eventsIn]
  exact List.mem_filterMap.2 ⟨event, hevent, hn⟩

/-- What is in mind after some executions was so before, or was executed. -/
lemma contains_of_memoryAfter {memory : RecentSet OperationId} {xs : List Execution}
    {n : OperationId} (h : (Execution.memoryAfter memory xs).contains n = true) :
    memory.contains n = true ∨ n ∈ xs.map fun x => x.op.id := by
  induction xs generalizing memory with
  | nil => exact .inl h
  | cons x rest ih =>
    have hsplit : Execution.memoryAfter memory (x :: rest) =
        Execution.memoryAfter (Execution.memoryAfter memory [x]) rest :=
      Execution.memoryAfter_append memory [x] rest
    rw [hsplit] at h
    rcases ih h with hfirst | hrest
    · rw [Execution.memoryAfter_singleton] at hfirst
      split at hfirst
      · rcases RecentSet.contains_of_insert hfirst with rfl | hbefore
        · exact .inr (by simp)
        · exact .inl hbefore
      · exact .inl hfirst
    · exact .inr (List.mem_cons_of_mem _ hrest)

theorem decides_of_executed (h : e.Consistent) (hnone : e.deferred = []) (input : Input)
    {n : OperationId} (hn : (e.receive input).executed.contains n = true) :
    e.executed.contains n = true ∨ n ∈ e.decides input := by
  obtain ⟨hreceive, hanswers⟩ := e.receive_follow input
  rw [hreceive, (chained_along h (e.stepsOf input)).2] at hn
  rcases contains_of_memoryAfter hn with hbefore | hexecuted
  · exact .inl hbefore
  · -- what is executed is answered
    refine .inr (decides_of_answered h hnone input ?_)
    have hids : ((e.executionsAlong (e.stepsOf input)).map Execution.answer).map Answer.id =
        (e.executionsAlong (e.stepsOf input)).map fun x => x.op.id := by
      rw [List.map_map]
      exact List.map_congr_left fun x _ => x.id_answer
    rw [hanswers]
    exact ((e.answers_along (e.stepsOf input)).1.map Answer.id).subset (hids ▸ hexecuted)

/-! ## Requests to the log -/

lemma proposalsIn_eq (out : List Output) :
    proposalsIn out = (requestsIn out).filterMap LogRequest.value? := by
  unfold proposalsIn requestsIn
  rw [List.filterMap_filterMap]
  congr 1
  funext o
  cases o with
  | log request =>
    cases request with
    | propose value => rfl
    | prune position => rfl
  | event event => rfl
  | install view => rfl
  | mover command => rfl

lemma requestsIn_append (out more : List Output) :
    requestsIn (out ++ more) = requestsIn out ++ requestsIn more := List.filterMap_append

lemma requestsIn_eq_nil {out : List Output} (h : ∀ o ∈ out, o.request? = none) :
    requestsIn out = [] := List.filterMap_eq_nil_iff.2 h

lemma requestsIn_reconfigure (e : Engine) (r : Reconfigure) :
    requestsIn (e.reconfigure r).2 = [] := by
  cases hstale : e.isStale r with
  | true =>
    rw [reconfigure_of_stale hstale]
    rfl
  | false =>
    have htransfers : requestsIn (e.transfers r) = [] := requestsIn_eq_nil fun o ho => by
      obtain ⟨command, rfl⟩ := mover_of_mem_transfers ho
      rfl
    have hmoved : requestsIn ((e.adopt r).move r e.isMember).2 = [] :=
      requestsIn_eq_nil fun o ho => by
        obtain ⟨a, rfl⟩ := respond_of_mem_move ho
        rfl
    have hready : ∀ e' : Engine, requestsIn (e'.catchUp (r.view.contains e.self)).2 = [] := by
      intro e'
      unfold catchUp markReady
      split
      · cases e'.installed with
        | none => rfl
        | some r' => rfl
      · rfl
    have hinstall : ∀ view out, requestsIn (.install view :: out) = requestsIn out :=
      fun _ _ => rfl
    have hevent : ∀ event out, requestsIn (.event event :: out) = requestsIn out :=
      fun _ _ => rfl
    rw [reconfigure_of_new hstale]
    simp only [requestsIn_append, htransfers, hinstall, hmoved, hevent, hready, List.append_nil]

lemma requestsIn_apply (e : Engine) (value : LogValue) : requestsIn (e.apply value).2 = [] := by
  cases value with
  | noop => rfl
  | reconfigure r => exact e.requestsIn_reconfigure r
  | operation op =>
    refine requestsIn_eq_nil fun o ho => ?_
    obtain ⟨a, rfl⟩ := respond_of_mem_apply ho
    rfl

/-- Applying a value leaves the configuration and the count of positions alone. -/
lemma apply_count (e : Engine) (value : LogValue) :
    (e.apply value).1.config = e.config ∧
      (e.apply value).1.appliedSincePrune = e.appliedSincePrune := by
  cases value with
  | noop => exact ⟨rfl, rfl⟩
  | reconfigure r =>
    obtain ⟨_, _, _, _, hmove⟩ := e.reconfigure_rest r
    show (e.reconfigure r).1.config = _ ∧ (e.reconfigure r).1.appliedSincePrune = _
    rw [hmove]
    exact ⟨rfl, rfl⟩
  | operation op =>
    obtain ⟨_, _, hexecute⟩ := e.execute_rest op
    unfold apply
    simp only
    split
    · exact ⟨rfl, rfl⟩
    · rw [hexecute]
      exact ⟨rfl, rfl⟩

/-- Whether the log is pruned depends on the count of positions, and not on the value. -/
lemma countApplied_apply (e : Engine) (value : LogValue) :
    (e.apply value).1.countApplied.1.appliedSincePrune = e.movedOn.appliedSincePrune ∧
      (e.apply value).1.countApplied.2 = e.pruning := by
  obtain ⟨hconfig, hcount⟩ := e.apply_count value
  rw [countApplied_eq, (e.apply_place value).1, hconfig, hcount]
  exact ⟨rfl, rfl⟩

/-- A position that is applied may ask the log to prune, and nothing else does anything there. -/
lemma requestsIn_outputAt (h : e.Consistent) (s : Step) :
    requestsIn (e.outputAt s) =
      match s with
      | .value _ => requestsIn e.pruning
      | .hold _ _ | .bootstrap _ | .oracle _ | .mover _ | .page _ => [] := by
  cases s with
  | hold position value => rfl
  | oracle event => rfl
  | page items => rfl
  | bootstrap r => exact e.requestsIn_reconfigure r
  | mover event =>
    show requestsIn (e.handleMover event).2 = []
    rw [handleMover_output h]
    split
    · refine requestsIn_eq_nil fun o ho => ?_
      rcases List.mem_append.1 ho with hreplayed | hsynced
      · obtain ⟨a, rfl⟩ := respond_of_mem_executeAll hreplayed
        rfl
      · obtain ⟨r, -, rfl⟩ := List.mem_map.1 hsynced
        rfl
    · rfl
  | value value =>
    show requestsIn ((e.apply value).2 ++ (e.apply value).1.countApplied.2) = _
    rw [requestsIn_append, requestsIn_apply, (e.countApplied_apply value).2]
    rfl

lemma proposalsIn_outputAt (h : e.Consistent) (s : Step) : proposalsIn (e.outputAt s) = [] := by
  have hpruning : proposalsIn e.pruning = [] := by
    unfold pruning
    split
    · rfl
    · rfl
  rw [proposalsIn_eq] at hpruning ⊢
  rw [requestsIn_outputAt h]
  cases s with
  | value value => exact hpruning
  | _ => rfl

lemma outputOf_eq (e : Engine) (input : Input) :
    e.outputOf input = e.outputAlong (e.stepsOf input) := by
  have hrun := e.outputOfRun_eq [input]
  rw [stepsOfAll, stepsOfAll, List.append_nil] at hrun
  exact (List.append_nil _).symm.trans hrun

/-- An engine proposes nothing of its own accord. -/
theorem proposalsIn_outputOf (h : e.Consistent) (input : Input) :
    proposalsIn (e.outputOf input) = [] := by
  rw [outputOf_eq]
  generalize e.stepsOf input = steps
  induction steps generalizing e with
  | nil => rfl
  | cons s rest ih =>
    show List.filterMap _ (e.outputAt s ++ (e.step s).outputAlong rest) = []
    rw [List.filterMap_append]
    show proposalsIn (e.outputAt s) ++ proposalsIn ((e.step s).outputAlong rest) = []
    rw [proposalsIn_outputAt h, ih (h.step s)]
    rfl

/-! ## The next decision -/

/-- An engine that holds no value applies the one of the next position, and no other. -/
theorem decide_of_held_empty (hheld : e.held = ∅) (value : LogValue) :
    e.decide e.next value =
      ((e.apply value).1.countApplied.1,
        (e.apply value).2 ++ (e.apply value).1.countApplied.2) := by
  have hgap : e.AtGap := by
    unfold AtGap
    rw [hheld]
    rfl
  have hsize : e.held.size = 0 := by
    rw [hheld]
    rfl
  rw [decide_next hgap, hsize]
  simp only [applyHeld, List.append_nil]

/-- An operation that is decided while nothing is awaited is answered at once. -/
lemma eventsIn_operation (hheld : e.held = ∅) (hwait : e.awaiting = none) (op : Operation) :
    eventsIn (e.outputOf (.decided e.next (.operation op))) = [.response (e.execute op).2] := by
  have hcounted : ∀ e' : Engine, eventsIn e'.countApplied.2 = [] := by
    intro e'
    rw [countApplied_eq]
    simp only
    split
    · rfl
    · rfl
  have hanswer : (e.apply (.operation op)).2 = [respond (e.execute op).2] := by
    unfold apply
    simp only [hwait, Option.isSome_none, Bool.false_eq_true, if_false]
  show eventsIn (e.decide e.next (.operation op)).2 = _
  rw [decide_of_held_empty hheld, eventsIn_append, hcounted, hanswer]
  rfl

lemma decides_of_held_empty (hheld : e.held = ∅) (value : LogValue) :
    e.decides (.decided e.next value) = value.number?.toList := by
  have hget : e.held.get? e.next = none := by
    rw [hheld]
    rfl
  have hsize : (e.held.insert e.next value).size = 1 := by
    rw [SortedMap.size_insert value hget, hheld]
    rfl
  have hdue : e.due e.next value = [value] := by
    unfold due
    rw [if_neg (Nat.lt_irrefl _), hsize]
    simp [heldFrom, SortedMap.get?_insert]
  have hsteps : e.stepsOf (.decided e.next value) = [.hold e.next value, .value value] := by
    show (if e.next < e.next then []
      else Step.hold e.next value :: (e.due e.next value).map Step.value) = _
    rw [if_neg (Nat.lt_irrefl _), hdue]
    rfl
  unfold decides
  rw [hsteps]
  cases value with
  | noop => rfl
  | reconfigure r => rfl
  | operation op => rfl

/-- Whether an input is a decision of the log. -/
def Input.isDecision : Input → Bool
  | .decided _ _ => true
  | .bootstrap _ | .oracle _ | .mover _ | .page _ => false

lemma decides_of_not_decision {input : Input} (h : input.isDecision = false) :
    e.decides input = [] := by
  cases input with
  | decided position value => cases h
  | _ => rfl

/-! ## What stays -/

lemma config_step (h : e.Consistent) (s : Step) : (e.step s).config = e.config := by
  cases s with
  | hold position value => rfl
  | page items => rfl
  | oracle event =>
    cases event with
    | trust leader view => rfl
    | livenessChanged leader => rfl
  | bootstrap r =>
    obtain ⟨_, _, _, _, hmove⟩ := e.reconfigure_rest r
    show (e.reconfigure r).1.config = _
    rw [hmove]
  | mover event =>
    obtain ⟨_, _, hexecute⟩ :=
      executeAll_rest { e with awaiting := none, deferred := [] } e.deferred
    show (e.handleMover event).1.config = _
    rw [handleMover_eq h, hexecute]
    split
    · rfl
    · rfl
  | value value =>
    obtain ⟨_, _, hcount⟩ := countApplied_rest (e.taken.apply value).1
    show (e.taken.apply value).1.countApplied.1.config = _
    rw [hcount]
    exact (e.taken.apply_count value).1

/-- An engine keeps its configuration. -/
lemma config_react (h : e.Consistent) (a : Arrival) : (e.react a).config = e.config := by
  have hfollow : ∀ steps e', Consistent e' → (e'.follow steps).config = e'.config := by
    intro steps
    induction steps with
    | nil => exact fun _ _ => rfl
    | cons s rest ih => exact fun e' h' => (ih _ (h'.step s)).trans (config_step h' s)
  obtain ⟨store, ha⟩ := e.react_eq a
  rw [ha]
  exact hfollow _ e h

/-- An engine that holds no value holds none after the decision for its next position, or after
anything but a decision. -/
lemma held_empty_next (hheld : e.held = ∅) (value : LogValue) :
    (e.receive (.decided e.next value)).held = ∅ := by
  show (e.decide e.next value).1.held = ∅
  rw [decide_of_held_empty hheld, (countApplied_place _).2, (e.apply_place value).2, hheld]

lemma held_empty_react (h : e.Consistent) (hheld : e.held = ∅) {a : Arrival}
    (hdecided : ∀ p value, a ≠ .input (.decided p value)) : (e.react a).held = ∅ :=
  (place_react h hdecided).2.1.trans hheld

end Engine

end ReplicaRing
