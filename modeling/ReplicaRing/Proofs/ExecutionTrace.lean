import ReplicaRing.Proofs.EngineOutputs
import ReplicaRing.Proofs.Standing

/-!
Operations that come up for execution. An operation comes up when its value is applied, or later, if
it was held back until a transfer had completed; and one that is held back never comes up if the
replica leaves the view first. So what a step answers are the operations that it brings up, and
those that it gives up, `Engine.answersIn_outputAt`. Whether an operation that comes up runs depends
on the numbers that ran before it alone, `Engine.chained_along`, and on the configuration.
-/

namespace ReplicaRing

/-- What an engine makes of an operation that comes up for execution. -/
inductive Verdict where
  /-- It is remembered, so it ran before. -/
  | duplicate
  /-- It lies outside the responsibility, or there is no view. -/
  | outside
  | accepted
  deriving DecidableEq

/-- The verdict on an operation by a memory and a configuration. -/
def Verdict.of (memory : RecentSet OperationId) (installed : Option Reconfigure) (op : Operation) :
    Verdict :=
  if memory.contains op.id then .duplicate
  else if installed.any (·.responsibility.admits op.target) then .accepted
  else .outside

/-- An operation that comes up for execution, and the engine at that moment. -/
structure Execution where
  before : Engine
  op : Operation

namespace Execution

def after (x : Execution) : Engine := (x.before.execute x.op).1

def answer (x : Execution) : Answer := (x.before.execute x.op).2

def verdict (x : Execution) : Verdict := .of x.before.executed x.before.installed x.op

/-- The operations among some executions that ran. -/
def accepted (xs : List Execution) : List Execution := xs.filter fun x => x.verdict = .accepted

/-- The numbers that ran. -/
def ranIds (xs : List Execution) : List OperationId := (accepted xs).map fun x => x.op.id

/-- A memory after some executions: the numbers that ran are put in mind. -/
def memoryAfter (memory : RecentSet OperationId) (xs : List Execution) : RecentSet OperationId :=
  (ranIds xs).foldl RecentSet.insert memory

/-- Each of some executions finds the memory that the ones before it left. -/
def Chained : RecentSet OperationId → List Execution → Prop
  | _, [] => True
  | memory, x :: rest => x.before.executed = memory ∧ Chained (memoryAfter memory [x]) rest

lemma accepted_append (xs ys : List Execution) : accepted (xs ++ ys) = accepted xs ++ accepted ys :=
  List.filter_append ..

lemma ranIds_append (xs ys : List Execution) : ranIds (xs ++ ys) = ranIds xs ++ ranIds ys := by
  unfold ranIds
  rw [accepted_append, List.map_append]

lemma memoryAfter_append (memory : RecentSet OperationId) (xs ys : List Execution) :
    memoryAfter memory (xs ++ ys) = memoryAfter (memoryAfter memory xs) ys := by
  unfold memoryAfter
  rw [ranIds_append, List.foldl_append]

lemma ranIds_singleton (x : Execution) :
    ranIds [x] = if x.verdict = .accepted then [x.op.id] else [] := by
  unfold ranIds accepted
  by_cases hruns : x.verdict = .accepted
  · simp [hruns]
  · simp [hruns]

lemma memoryAfter_singleton (memory : RecentSet OperationId) (x : Execution) :
    memoryAfter memory [x] =
      if x.verdict = .accepted then memory.insert x.op.id else memory := by
  unfold memoryAfter
  rw [ranIds_singleton]
  split
  · rfl
  · rfl

lemma chained_append {memory : RecentSet OperationId} {xs ys : List Execution} :
    Chained memory (xs ++ ys) ↔ Chained memory xs ∧ Chained (memoryAfter memory xs) ys := by
  induction xs generalizing memory with
  | nil => exact ⟨fun h => ⟨trivial, h⟩, And.right⟩
  | cons x xs ih =>
    have hmemory : memoryAfter memory (x :: xs) = memoryAfter (memoryAfter memory [x]) xs :=
      memoryAfter_append memory [x] xs
    rw [hmemory, List.cons_append, Chained, Chained, ih, and_assoc]

/-! ## One execution -/

lemma handled (x : Execution) : x.before.Handled x.op (x.after, x.answer) := x.before.handled x.op

/-- Only an operation that runs is put in mind, also if it fails. -/
lemma executed_after (x : Execution) :
    x.after.executed = memoryAfter x.before.executed [x] := by
  rw [memoryAfter_singleton]
  have hx := x.handled
  generalize x.after = after, x.answer = answer at hx ⊢
  cases hx with
  | duplicate hknown => simp [verdict, Verdict.of, hknown]
  | noView hnew hnone => simp [verdict, Verdict.of, hnew, hnone]
  | outside hnew hr hout => simp [verdict, Verdict.of, hnew, hr, hout]
  | performed hnew hr hin | failed hnew hr hin => simp [verdict, Verdict.of, hnew, hr, hin]

lemma id_answer (x : Execution) : x.answer.id = x.op.id := by
  have hx := x.handled
  generalize x.after = after, x.answer = answer at hx ⊢
  cases hx with
  | _ => rfl

end Execution

namespace Engine

open Execution

variable {e : Engine}

/-! ## Executions of a step -/

/-- The executions of some operations, one after the other. -/
def executionsOf (e : Engine) : List Operation → List Execution
  | [] => []
  | op :: rest => ⟨e, op⟩ :: (e.execute op).1.executionsOf rest

lemma executeAll_output (e : Engine) (ops : List Operation) :
    (e.executeAll ops).2 = (e.executionsOf ops).map fun x => respond x.answer := by
  induction ops generalizing e with
  | nil => rfl
  | cons op rest ih =>
    show respond (e.execute op).2 :: ((e.execute op).1.executeAll rest).2 = _
    rw [ih]
    rfl

/-- Executing operations changes no configuration. -/
lemma executionsOf_installed (e : Engine) (ops : List Operation) :
    (e.executionsOf ops).map (fun x => (x.before.installed, x.op)) =
      ops.map fun op => (e.installed, op) := by
  induction ops generalizing e with
  | nil => rfl
  | cons op rest ih =>
    obtain ⟨store, executed, hexecute⟩ := e.execute_rest op
    have hinstalled : (e.execute op).1.installed = e.installed := by rw [hexecute]
    unfold executionsOf
    rw [List.map_cons, ih, hinstalled]
    rfl

lemma executionsOf_op (e : Engine) (ops : List Operation) :
    (e.executionsOf ops).map Execution.op = ops := by
  have hpairs := congrArg (List.map Prod.snd) (e.executionsOf_installed ops)
  rw [List.map_map, List.map_map] at hpairs
  exact hpairs.trans (List.map_id ops)

lemma chained_executionsOf (e : Engine) (ops : List Operation) :
    Chained e.executed (e.executionsOf ops) ∧
      (e.executeAll ops).1.executed = memoryAfter e.executed (e.executionsOf ops) := by
  induction ops generalizing e with
  | nil => exact ⟨trivial, rfl⟩
  | cons op rest ih =>
    obtain ⟨hrest, hmemory⟩ := ih (e.execute op).1
    have hfirst : (e.execute op).1.executed = memoryAfter e.executed [⟨e, op⟩] :=
      executed_after ⟨e, op⟩
    rw [hfirst] at hrest hmemory
    refine ⟨⟨rfl, hrest⟩, ?_⟩
    show ((e.execute op).1.executeAll rest).1.executed = _
    rw [hmemory]
    exact (memoryAfter_append e.executed [⟨e, op⟩] _).symm

/-- An engine that waits no longer, with nothing held back. -/
def released (e : Engine) : Engine := { e with awaiting := none, deferred := [] }

/-- The engine when the value of the next position is applied: it holds it no longer. -/
def taken (e : Engine) : Engine := e.withHeld (e.held.erase e.next)

/-- The operations that a step brings up for execution. -/
def executionsAt (e : Engine) : Step → List Execution
  | .value (.operation op) => if e.awaiting.isSome then [] else e.taken.executionsOf [op]
  | .mover event => if e.completedBy event then e.released.executionsOf e.deferred else []
  | .hold _ _ | .value .noop | .value (.reconfigure _) | .bootstrap _ | .oracle _ | .page _ => []

/-- Only decided operations come up, and the ends of waits bring some up. -/
lemma executionsAt_eq_nil {s : Step} (hoperations : s.operations = [])
    (hmover : ∀ event, s ≠ .mover event) : e.executionsAt s = [] := by
  cases s with
  | value value =>
    cases value with
    | operation op => cases hoperations
    | noop => rfl
    | reconfigure r => rfl
  | mover event => exact absurd rfl (hmover event)
  | hold position value => rfl
  | bootstrap r => rfl
  | oracle event => rfl
  | page items => rfl

lemma executionsAt_operation (e : Engine) (op : Operation) :
    e.executionsAt (.value (.operation op)) =
      if e.awaiting.isSome then [] else e.taken.executionsOf [op] := rfl

lemma executionsAt_mover (e : Engine) (event : MoverEvent) :
    e.executionsAt (.mover event) =
      if e.completedBy event then e.released.executionsOf e.deferred else [] := rfl

/-- The operations held back that a configuration makes an engine give up: all of them, if it
leaves. -/
def abandonedBy (e : Engine) (r : Reconfigure) : List Operation :=
  if e.isStale r || r.view.contains e.self then [] else e.deferred

/-- The operations that a step gives up. -/
def abandonedAt (e : Engine) (s : Step) : List Operation := s.changes.flatMap e.abandonedBy

/-- The answer to an operation that is given up. -/
def giveUp (op : Operation) : Answer := unavailable op.id "replica removed from view"

/-! ## Answers -/

/-- The answer among the outputs that an output is. -/
def Output.answer? : Output → Option Answer
  | .event (.response answer) => some answer
  | .event (.viewInstalled _ _ _) | .event (.synced _) | .log _ | .install _ | .mover _ => none

/-- The answers among some outputs. -/
def answersIn (out : List Output) : List Answer := out.filterMap Output.answer?

lemma answersIn_append (out more : List Output) :
    answersIn (out ++ more) = answersIn out ++ answersIn more := List.filterMap_append

lemma answersIn_map_respond {α : Type} (f : α → Answer) (l : List α) :
    answersIn (l.map fun a => respond (f a)) = l.map f := by
  unfold answersIn
  rw [List.filterMap_map]
  exact congrFun (List.filterMap_eq_map (f := f)) l

lemma answersIn_eq_nil {out : List Output} (h : ∀ o ∈ out, o.answer? = none) :
    answersIn out = [] := List.filterMap_eq_nil_iff.2 h

lemma answersIn_markReady (e : Engine) : answersIn e.markReady.2 = [] := by
  apply answersIn_eq_nil
  unfold markReady
  cases e.installed with
  | none => simp
  | some r => simp [Output.answer?]

lemma answersIn_countApplied (e : Engine) : answersIn e.countApplied.2 = [] := by
  apply answersIn_eq_nil
  unfold countApplied
  simp only
  split
  · simp [Output.answer?]
  · simp

/-- A change of view answers what is given up. -/
lemma answersIn_reconfigure (e : Engine) (r : Reconfigure) :
    answersIn (e.reconfigure r).2 = (e.abandonedBy r).map giveUp := by
  cases hstale : e.isStale r with
  | true =>
    have hnone : e.abandonedBy r = [] := by
      unfold abandonedBy
      rw [hstale]
      rfl
    rw [reconfigure_of_stale hstale, hnone]
    rfl
  | false =>
    have htransfers : answersIn (e.transfers r) = [] := by
      apply answersIn_eq_nil
      unfold transfers reassignTransfers
      cases e.installed with
      | none => simp
      | some previous =>
        simp only
        split
        · split
          · split
            · simp [Output.answer?]
            · simp [Output.answer?, or_imp, forall_and]
          · simp [Output.answer?]
        · simp
    have hready : ∀ e' : Engine, answersIn (e'.catchUp (r.view.contains e.self)).2 = [] := by
      intro e'
      unfold catchUp
      split
      · exact answersIn_markReady e'
      · rfl
    have hmoved : answersIn ((e.adopt r).move r e.isMember).2 = (e.abandonedBy r).map giveUp := by
      have hself : (e.adopt r).self = e.self := rfl
      unfold move abandonedBy
      rw [hself, hstale]
      cases r.view.contains e.self with
      | false => exact answersIn_map_respond giveUp e.deferred
      | true =>
        cases e.isMember with
        | false => rfl
        | true => rfl
    rw [reconfigure_of_new hstale]
    have hevent : ∀ (view : View) range state out,
        answersIn (.event (.viewInstalled view range state) :: out) = answersIn out :=
      fun _ _ _ _ => rfl
    have hinstall : ∀ view out, answersIn (.install view :: out) = answersIn out :=
      fun _ _ => rfl
    simp only [answersIn_append, htransfers, hinstall, hmoved, hevent, hready, List.nil_append,
      List.append_nil]

/-- A completed transfer that ends a wait answers what was held back. -/
lemma answersIn_handleMover (e : Engine) (event : MoverEvent) :
    answersIn (e.handleMover event).2 = (e.executionsAt (.mover event)).map Execution.answer := by
  rw [executionsAt_mover]
  unfold completedBy
  cases event with
  | sendFinished session destination items bytes => simp [MoverEvent.completes, handleMover]; rfl
  | sendFailed session destination reason => simp [MoverEvent.completes, handleMover]; rfl
  | transferComplete session source metadata items bytes =>
    unfold handleMover
    cases e.awaiting with
    | none => rfl
    | some awaited =>
      have hcompletes : (e.installed.any fun r =>
          MoverEvent.completes awaited r.responsibility
            (.transferComplete session source metadata items bytes)) =
          !(metadata.viewId < awaited ||
            !e.installed.any fun r => metadata.range.covers r.responsibility : Bool) := by
        cases e.installed with
        | none => simp
        | some r => simp [MoverEvent.completes]
      rw [Option.any_some, hcompletes]
      simp only
      cases (metadata.viewId < awaited ||
          !e.installed.any fun r => metadata.range.covers r.responsibility : Bool) with
      | true => rfl
      | false =>
        simp only [Bool.not_false, Bool.false_eq_true, if_false, if_true]
        have hout := e.released.executeAll_output e.deferred
        unfold released at hout ⊢
        split
        · rw [answersIn_append, answersIn_markReady, hout, List.append_nil, answersIn_map_respond]
        · rw [hout, answersIn_map_respond]

/-- A step answers the operations that it brings up and those that it gives up. -/
theorem answersIn_outputAt (e : Engine) (s : Step) :
    answersIn (e.outputAt s) =
      (e.executionsAt s).map Execution.answer ++ (e.abandonedAt s).map giveUp := by
  have hchange : ∀ r, (e.abandonedBy r).map giveUp =
      [] ++ (List.flatMap e.abandonedBy [r]).map giveUp := by simp
  cases s with
  | hold position value => rfl
  | oracle event => rfl
  | page items => rfl
  | bootstrap r => exact (e.answersIn_reconfigure r).trans (hchange r)
  | mover event => exact (e.answersIn_handleMover event).trans (List.append_nil _).symm
  | value value =>
    show answersIn ((e.apply value).2 ++ (e.apply value).1.countApplied.2) = _
    rw [answersIn_append, answersIn_countApplied, List.append_nil]
    cases value with
    | noop => rfl
    | reconfigure r => exact (e.answersIn_reconfigure r).trans (hchange r)
    | operation op =>
      have hanswer : (e.taken.execute op).2 = (e.execute op).2 := by
        unfold taken
        rw [execute_withHeld]
        rfl
      rw [executionsAt_operation]
      unfold apply
      simp only
      by_cases hwait : e.awaiting.isSome = true
      · rw [if_pos hwait, if_pos hwait]
        rfl
      · rw [if_neg hwait, if_neg hwait]
        show [(e.execute op).2] = [(e.taken.execute op).2]
        rw [hanswer]

/-! ## Executions along steps -/

/-- The operations that come up for execution along some steps. -/
def executionsAlong (e : Engine) : List Step → List Execution
  | [] => []
  | s :: rest => e.executionsAt s ++ (e.step s).executionsAlong rest

lemma executionsAlong_append (e : Engine) (steps more : List Step) :
    e.executionsAlong (steps ++ more) =
      e.executionsAlong steps ++ (e.follow steps).executionsAlong more := by
  induction steps generalizing e with
  | nil => rfl
  | cons s rest ih =>
    show e.executionsAt s ++ (e.step s).executionsAlong (rest ++ more) =
      e.executionsAt s ++ (e.step s).executionsAlong rest ++ _
    rw [ih, List.append_assoc]
    rfl

/-- The executions of a step find the memory that the ones before them left, and a step leaves the
memory that its executions make. -/
lemma chained_step (h : e.Consistent) (s : Step) :
    Chained e.executed (e.executionsAt s) ∧
      (e.step s).executed = memoryAfter e.executed (e.executionsAt s) := by
  have hcount : ∀ e' : Engine, e'.countApplied.1.executed = e'.executed := by
    intro e'
    obtain ⟨_, _, hcount⟩ := e'.countApplied_rest
    rw [hcount]
  cases s with
  | hold position value => exact ⟨trivial, rfl⟩
  | page items => exact ⟨trivial, rfl⟩
  | oracle event =>
    cases event with
    | trust leader view => exact ⟨trivial, rfl⟩
    | livenessChanged leader => exact ⟨trivial, rfl⟩
  | bootstrap r =>
    obtain ⟨_, _, _, _, hmove⟩ := e.reconfigure_rest r
    refine ⟨trivial, ?_⟩
    show (e.reconfigure r).1.executed = e.executed
    rw [hmove]
  | mover event =>
    show _ ∧ (e.handleMover event).1.executed = _
    rw [handleMover_eq h, executionsAt_mover]
    by_cases hdone : e.completedBy event = true
    · rw [if_pos hdone, if_pos hdone]
      exact e.released.chained_executionsOf e.deferred
    · rw [if_neg hdone, if_neg hdone]
      exact ⟨trivial, rfl⟩
  | value value =>
    show _ ∧ (countApplied _).1.executed = _
    rw [hcount]
    cases value with
    | noop => exact ⟨trivial, rfl⟩
    | reconfigure r =>
      obtain ⟨_, _, _, _, hmove⟩ := e.taken.reconfigure_rest r
      refine ⟨trivial, ?_⟩
      show (e.taken.reconfigure r).1.executed = e.executed
      rw [hmove]
      rfl
    | operation op =>
      have hwaiting : e.taken.awaiting = e.awaiting := rfl
      show _ ∧ (e.taken.apply (.operation op)).1.executed = _
      rw [executionsAt_operation]
      unfold apply
      simp only [hwaiting]
      by_cases hwait : e.awaiting.isSome = true
      · rw [if_pos hwait, if_pos hwait]
        exact ⟨trivial, rfl⟩
      · rw [if_neg hwait, if_neg hwait]
        exact e.taken.chained_executionsOf [op]

/-- Along a run, each execution finds the memory that the ones before it left. -/
theorem chained_along (h : e.Consistent) (steps : List Step) :
    Chained e.executed (e.executionsAlong steps) ∧
      (e.follow steps).executed = memoryAfter e.executed (e.executionsAlong steps) := by
  induction steps generalizing e with
  | nil => exact ⟨trivial, rfl⟩
  | cons s steps ih =>
    obtain ⟨hfirst, hmemory⟩ := chained_step h s
    obtain ⟨hrest, hlast⟩ := ih (h.step s)
    rw [hmemory] at hrest hlast
    refine ⟨chained_append.2 ⟨hfirst, hrest⟩, ?_⟩
    show ((e.step s).follow steps).executed = _
    rw [hlast]
    exact (memoryAfter_append _ _ _).symm

end Engine

end ReplicaRing
