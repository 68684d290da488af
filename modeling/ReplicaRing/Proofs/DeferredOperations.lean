import ReplicaRing.Proofs.ExecutionTrace
import ReplicaRing.Proofs.SteadyReplicas

/-!
Operations that a replica holds back while it waits for its transfer, against a replica that takes
the same log without waiting. The one that does not wait judges each operation by the configuration
at the operation's own place in the log, `Engine.basis_idle`. The one that waits judges them all by
the configuration that it has when its transfer completes, `Engine.basis_completed`, and that may be
one that was decided after the operation. So the two make the same of every operation exactly if,
for each that is no duplicate, the last configuration takes it in just as the one at its own place
does, `Deferral.transparent_iff`.
-/

namespace ReplicaRing

/-- The configuration after a value of the log. A newer one takes the place of the one before. -/
def LogValue.installs (installed : Option Reconfigure) : LogValue → Option Reconfigure
  | reconfigure r => if installed.any (r.view.id ≤ ·.view.id) then installed else some r
  | noop | operation _ => installed

/-- Whether a configuration takes in what an operation touches. -/
def takesIn (installed : Option Reconfigure) (op : Operation) : Bool :=
  installed.any (·.responsibility.admits op.target)

namespace Execution

/-- The operation, with the configuration that it is judged by. -/
def basis (x : Execution) : Option Reconfigure × Operation := (x.before.installed, x.op)

/-- The operation, with what is made of it. -/
def outcome (x : Execution) : Operation × Verdict := (x.op, x.verdict)

/-- Where memories know the same numbers, only the configurations can make a difference, and only
to what is no duplicate. -/
lemma verdict_eq_iff {x y : Execution} (hop : x.op = y.op)
    (hknown : x.before.executed.contains x.op.id = y.before.executed.contains y.op.id) :
    x.verdict = y.verdict ↔ (y.verdict ≠ .duplicate →
      takesIn x.before.installed y.op = takesIn y.before.installed y.op) := by
  unfold verdict Verdict.of takesIn
  rw [hknown, hop]
  cases y.before.executed.contains y.op.id with
  | true => simp
  | false =>
    cases x.before.installed.any (·.responsibility.admits y.op.target) with
    | true =>
      cases y.before.installed.any (·.responsibility.admits y.op.target) with
      | true => simp
      | false => simp
    | false =>
      cases y.before.installed.any (·.responsibility.admits y.op.target) with
      | true => simp
      | false => simp

/-- Executions of the same operations from memories that know the same of their numbers end alike
exactly if, for each that is no duplicate, both configurations take it in or neither does. -/
theorem outcomes_eq_iff {p : OperationId → Prop} {memory memory' : RecentSet OperationId}
    {xs ys : List Execution} {final : Option Reconfigure} (hx : Chained memory xs)
    (hy : Chained memory' ys) (hops : xs.map op = ys.map op) (hp : ∀ y ∈ ys, p y.op.id)
    (hvalid : memory.Valid) (hvalid' : memory'.Valid) (halike : RecentSet.Alike p memory memory')
    (hfinal : ∀ x ∈ xs, x.before.installed = final) :
    xs.map outcome = ys.map outcome ↔
      ∀ y ∈ ys, y.verdict ≠ .duplicate → takesIn final y.op = takesIn y.before.installed y.op := by
  induction xs generalizing memory memory' ys with
  | nil =>
    obtain rfl : ys = [] := List.map_eq_nil_iff.1 hops.symm
    simp
  | cons x xs ih =>
    cases ys with
    | nil => cases hops
    | cons y ys =>
      obtain ⟨hop, hops⟩ := List.cons.inj hops
      obtain ⟨hmemory, hx⟩ := hx
      obtain ⟨hmemory', hy⟩ := hy
      have hid : p y.op.id := hp y (by simp)
      have hknown : x.before.executed.contains x.op.id = y.before.executed.contains y.op.id := by
        rw [hmemory, hmemory', hop]
        exact halike.contains hvalid hvalid' hid
      have hhead := verdict_eq_iff hop hknown
      rw [hfinal x (by simp)] at hhead
      rw [List.map_cons, List.map_cons, List.cons.injEq, List.forall_mem_cons]
      have houtcome : x.outcome = y.outcome ↔ x.verdict = y.verdict :=
        Prod.mk.injEq .. ▸ and_iff_right hop
      rw [houtcome, ← hhead, and_congr_right_iff]
      -- if the first ends alike, both put it in mind or neither does
      intro hsame
      rw [memoryAfter_singleton] at hx hy
      rw [hsame, hop] at hx
      have hrest : ∀ y' ∈ ys, p y'.op.id := fun y' hy' => hp y' (by simp [hy'])
      have hfinals : ∀ x' ∈ xs, x'.before.installed = final :=
        fun x' hx' => hfinal x' (by simp [hx'])
      by_cases hruns : y.verdict = .accepted
      · rw [if_pos hruns] at hx hy
        exact ih hx hy hops hrest (hvalid.insert _) (hvalid'.insert _)
          (halike.insert hvalid hvalid' hid) hfinals
      · rw [if_neg hruns] at hx hy
        exact ih hx hy hops hrest hvalid hvalid' halike hfinals

end Execution

namespace Engine

open Execution

/-- What a step brings, as values of a log. -/
def Step.news (s : Step) : List LogValue :=
  s.changes.map .reconfigure ++ s.operations.map .operation

/-- The configuration after some values. -/
def installedAfter (installed : Option Reconfigure) (values : List LogValue) :
    Option Reconfigure :=
  values.foldl LogValue.installs installed

/-- The operations among some values, each with the configuration at its own place. -/
def inForce : Option Reconfigure → List LogValue → List (Option Reconfigure × Operation)
  | _, [] => []
  | installed, .operation op :: rest => (installed, op) :: inForce installed rest
  | installed, .reconfigure r :: rest => inForce (LogValue.installs installed (.reconfigure r)) rest
  | installed, .noop :: rest => inForce installed rest

/-- An engine awaits nothing before any of some steps, nor after them. -/
def Idle (e : Engine) : List Step → Prop
  | [] => e.awaiting = none
  | s :: rest => e.awaiting = none ∧ (e.step s).Idle rest

instance decidableIdle : (e : Engine) → (steps : List Step) → Decidable (e.Idle steps)
  | e, [] => inferInstanceAs (Decidable (e.awaiting = none))
  | e, s :: rest =>
    have := decidableIdle (e.step s) rest
    inferInstanceAs (Decidable (e.awaiting = none ∧ (e.step s).Idle rest))

variable {e : Engine}

/-! ## Configurations in force -/

lemma inForce_append (installed : Option Reconfigure) (values more : List LogValue) :
    inForce installed (values ++ more) =
      inForce installed values ++ inForce (installedAfter installed values) more := by
  induction values generalizing installed with
  | nil => rfl
  | cons value rest ih =>
    cases value with
    | noop => exact ih installed
    | reconfigure r => exact ih _
    | operation op => exact congrArg ((installed, op) :: ·) (ih installed)

lemma inForce_operations (installed : Option Reconfigure) (steps : List Step) :
    (inForce installed (steps.flatMap Step.news)).map Prod.snd =
      steps.flatMap Step.operations := by
  induction steps generalizing installed with
  | nil => rfl
  | cons s rest ih =>
    have hfirst : (inForce installed s.news).map Prod.snd = s.operations := by
      unfold Step.news
      rcases s.kinds with ⟨r, hr, hoperations, -⟩ | ⟨op, rfl⟩ | ⟨event, rfl⟩ |
        ⟨hchanges, hoperations, -⟩
      · rw [hr, hoperations]
        rfl
      · rfl
      · rfl
      · rw [hchanges, hoperations]
        rfl
    rw [List.flatMap_cons, List.flatMap_cons, inForce_append, List.map_append, hfirst, ih]

/-- A step installs what it brings, if that is newer, whether the engine waits or not. -/
lemma installed_step (h : e.Consistent) (s : Step) :
    (e.step s).installed = installedAfter e.installed s.news := by
  rcases s.kinds with ⟨r, hr, hoperations, -⟩ | ⟨op, rfl⟩ | ⟨event, rfl⟩ |
    ⟨hchanges, hoperations, hmover⟩
  · have hnews : s.news = [.reconfigure r] := by
      unfold Step.news
      rw [hr, hoperations]
      rfl
    rw [(standsAs_change h hr).installed, reconfigure_eq h, hnews]
    show _ = if e.isStale r then e.installed else some r
    split
    · rfl
    · split
      · rfl
      · split
        · rfl
        · rfl
  · rw [(e.standsAs_operation op).installed]
    split
    · rfl
    · rfl
  · rw [(standsAs_mover h event).installed]
    split
    · rfl
    · rfl
  · have hnews : s.news = [] := by
      unfold Step.news
      rw [hchanges, hoperations]
      rfl
    rw [(standsAs_quiet hchanges hoperations hmover).installed, hnews]
    rfl

lemma installed_follow (h : e.Consistent) (steps : List Step) :
    (e.follow steps).installed = installedAfter e.installed (steps.flatMap Step.news) := by
  induction steps generalizing e with
  | nil => rfl
  | cons s rest ih =>
    show ((e.step s).follow rest).installed = _
    rw [ih (h.step s), installed_step h, List.flatMap_cons]
    exact List.foldl_append.symm

/-! ## In turn, and after a wait -/

/-- An engine that awaits nothing executes what a step decides, on the spot. -/
lemma basis_step (hidle : e.awaiting = none) (s : Step) :
    (e.executionsAt s).map basis = inForce e.installed s.news := by
  unfold Step.news
  rcases s.kinds with ⟨r, hr, hoperations, hmover⟩ | ⟨op, rfl⟩ | ⟨event, rfl⟩ |
    ⟨hchanges, hoperations, hmover⟩
  · rw [executionsAt_eq_nil hoperations hmover, hr, hoperations]
    rfl
  · rw [executionsAt_operation, if_neg (by simp [hidle])]
    exact e.taken.executionsOf_installed [op]
  · have hdone : ¬ e.completedBy event = true := by
      unfold completedBy
      simp [hidle]
    rw [executionsAt_mover, if_neg hdone]
    rfl
  · rw [executionsAt_eq_nil hoperations hmover, hchanges, hoperations]
    rfl

/-- An engine that awaits nothing judges each operation by the configuration at its own place. -/
theorem basis_idle (h : e.Consistent) {steps : List Step} (hidle : e.Idle steps) :
    (e.executionsAlong steps).map basis = inForce e.installed (steps.flatMap Step.news) := by
  induction steps generalizing e with
  | nil => rfl
  | cons s rest ih =>
    obtain ⟨hnow, hlater⟩ := hidle
    show (e.executionsAt s ++ (e.step s).executionsAlong rest).map basis = _
    rw [List.map_append, basis_step hnow, ih (h.step s) hlater, installed_step h,
      List.flatMap_cons, inForce_append]

/-- While it waits an engine executes nothing and holds back what is decided. -/
lemma held_back (h : e.Consistent) {v : UInt64} (hreached : e.Reached v) {steps : List Step}
    (hafter : (e.follow steps).awaiting = some v) :
    e.awaiting = some v ∧ e.executionsAlong steps = [] ∧
      (e.follow steps).deferred = e.deferred ++ steps.flatMap Step.operations := by
  induction steps generalizing e with
  | nil => exact ⟨hafter, rfl, (List.append_nil _).symm⟩
  | cons s rest ih =>
    obtain ⟨hbefore, hnone, hdeferred⟩ := ih (h.step s) (reached_step h hreached s) hafter
    obtain ⟨hwaits, -, hheld⟩ := waiting_step h hreached hbefore
    have hfirst : e.executionsAt s = [] := by
      rcases s.kinds with ⟨r, -, hoperations, hmover⟩ | ⟨op, rfl⟩ | ⟨event, rfl⟩ |
        ⟨-, hoperations, hmover⟩
      · exact executionsAt_eq_nil hoperations hmover
      · rw [executionsAt_operation, if_pos (by simp [hwaits])]
      · -- the event that ends the wait would leave nothing awaited
        rw [executionsAt_mover, if_neg]
        intro hdone
        have hstands := standsAs_mover h event
        rw [if_pos hdone] at hstands
        rw [hstands.awaiting] at hbefore
        cases hbefore
      · exact executionsAt_eq_nil hoperations hmover
    refine ⟨hwaits, ?_, ?_⟩
    · show e.executionsAt s ++ (e.step s).executionsAlong rest = []
      rw [hfirst, hnone]
      rfl
    · show ((e.step s).follow rest).deferred = _
      rw [hdeferred, hheld, List.flatMap_cons, List.append_assoc]

/-- An engine whose wait ends judges all that it held back by the configuration it has by then. -/
theorem basis_completed (h : e.Consistent) (hfresh : e.deferred = []) {v : UInt64}
    (hbefore : e.awaiting = some v) {waiting : List Step} {event : MoverEvent}
    (hafter : (e.follow waiting).awaiting = some v)
    (hdone : (e.follow waiting).completedBy event = true) :
    (e.executionsAlong (waiting ++ [.mover event])).map basis =
      (waiting.flatMap Step.operations).map fun op =>
        (installedAfter e.installed (waiting.flatMap Step.news), op) := by
  obtain ⟨-, hnone, hheld⟩ := held_back h (h.awaited v hbefore) hafter
  rw [executionsAlong_append, hnone, List.nil_append]
  show ((e.follow waiting).executionsAt (.mover event) ++ []).map basis = _
  rw [List.append_nil, executionsAt_mover, if_pos hdone, hheld, hfresh, List.nil_append,
    ← installed_follow h]
  exact (e.follow waiting).released.executionsOf_installed _

end Engine

/-- A replica that waits for its transfer and another one that does not, while both take the same
values of the log: what happened to either before, and what happened to either since. -/
structure Deferral where
  config : ReplicationConfig
  waiter : NodeId
  steady : NodeId
  waiterStore : Store
  steadyStore : Store
  waiterBefore : List Engine.Step
  steadyBefore : List Engine.Step
  /-- What happened to the waiter from the start of its wait until its transfer completed. -/
  waiting : List Engine.Step
  completed : MoverEvent
  steadySteps : List Engine.Step

namespace Deferral

open Engine Execution

def waiterAt (d : Deferral) : Engine :=
  (start d.waiter d.config d.waiterStore).follow d.waiterBefore

def steadyAt (d : Deferral) : Engine :=
  (start d.steady d.config d.steadyStore).follow d.steadyBefore

/-- What is decided during the wait. -/
def log (d : Deferral) : List LogValue := d.waiting.flatMap Step.news

/-- The operations that are decided during the wait. -/
def decided (d : Deferral) : List Operation := d.waiting.flatMap Step.operations

/-- The configuration when the transfer completes. -/
def final (d : Deferral) : Option Reconfigure := installedAfter d.waiterAt.installed d.log

/-- The operations that come up at the waiter. -/
def waiterRuns (d : Deferral) : List Execution :=
  d.waiterAt.executionsAlong (d.waiting ++ [.mover d.completed])

/-- The operations that come up at the other replica. -/
def steadyRuns (d : Deferral) : List Execution := d.steadyAt.executionsAlong d.steadySteps

/-- The waiter waits all along, until an event of its mover ends the wait, and the other replica
never does. Both have the same configuration when the wait begins, and take the same values. -/
structure Proper (d : Deferral) : Prop where
  fresh : d.waiterAt.deferred = []
  waits : ∃ v, d.waiterAt.awaiting = some v ∧ (d.waiterAt.follow d.waiting).awaiting = some v
  completes : (d.waiterAt.follow d.waiting).completedBy d.completed = true
  idle : d.steadyAt.Idle d.steadySteps
  installed : d.steadyAt.installed = d.waiterAt.installed
  values : d.steadySteps.flatMap Step.news = d.log

/-- The two remember the same of the numbers that are decided during the wait. -/
def Alike (d : Deferral) : Prop :=
  RecentSet.Alike (fun id => ∃ op ∈ d.decided, op.id = id) d.waiterAt.executed d.steadyAt.executed

/-- The memory of a run from a start holds its order. -/
lemma valid_executed (self : NodeId) (config : ReplicationConfig) (store : Store)
    (steps : List Step) : ((start self config store).follow steps).executed.Valid := by
  rw [(chained_along (consistent_start self config store) steps).2]
  exact (valid_remember (RecentSet.valid_empty _) _).1

variable {d : Deferral}

/-- The waiter judges all that was decided during its wait by the configuration it has at the end,
and the other replica judges each operation by the configuration at its own place. If they remember
the same of these operations, they make the same of all of them exactly if, for each that is no
duplicate, both of these configurations take it in or neither does. -/
theorem transparent_iff (h : d.Proper) :
    d.waiterRuns.map basis = d.decided.map (fun op => (d.final, op)) ∧
      d.steadyRuns.map basis = inForce d.waiterAt.installed d.log ∧
      (d.Alike → (d.waiterRuns.map outcome = d.steadyRuns.map outcome ↔
        ∀ y ∈ d.steadyRuns, y.verdict ≠ .duplicate →
          takesIn d.final y.op = takesIn y.before.installed y.op)) := by
  have hwaiter : d.waiterAt.Consistent := (consistent_start ..).follow d.waiterBefore
  have hsteady : d.steadyAt.Consistent := (consistent_start ..).follow d.steadyBefore
  obtain ⟨v, hbefore, hafter⟩ := h.waits
  have hfinal : d.waiterRuns.map basis = d.decided.map fun op => (d.final, op) :=
    basis_completed hwaiter h.fresh hbefore hafter h.completes
  have hplaces : d.steadyRuns.map basis = inForce d.waiterAt.installed d.log := by
    rw [← h.installed, ← h.values]
    exact basis_idle hsteady h.idle
  refine ⟨hfinal, hplaces, fun halike => ?_⟩
  have hwaiterOps : d.waiterRuns.map op = d.decided := by
    have hops := congrArg (List.map Prod.snd) hfinal
    rw [List.map_map, List.map_map] at hops
    exact hops.trans (List.map_id d.decided)
  have hsteadyOps : d.steadyRuns.map op = d.decided := by
    have hops := congrArg (List.map Prod.snd) hplaces
    rw [List.map_map] at hops
    exact hops.trans (inForce_operations _ d.waiting)
  have hnumbers : ∀ y ∈ d.steadyRuns, ∃ op ∈ d.decided, op.id = y.op.id := fun y hy =>
    ⟨y.op, hsteadyOps ▸ List.mem_map_of_mem hy, rfl⟩
  have hjudged : ∀ x ∈ d.waiterRuns, x.before.installed = d.final := by
    intro x hx
    have hbasis : x.basis ∈ d.decided.map fun op => (d.final, op) :=
      hfinal ▸ List.mem_map_of_mem hx
    obtain ⟨op, -, heq⟩ := List.mem_map.1 hbasis
    exact (congrArg Prod.fst heq).symm
  exact outcomes_eq_iff (chained_along hwaiter _).1 (chained_along hsteady _).1
    (hwaiterOps.trans hsteadyOps.symm) hnumbers (valid_executed ..) (valid_executed ..) halike
    hjudged

/-- A replica joins the first one's view; while it waits, a put is decided and then a view with
another range. -/
def reassigned (range : KeyRange) : Deferral where
  config := {}
  waiter := ⟨"b", 1, none⟩
  steady := ⟨"a", 1, none⟩
  waiterStore := .ofList []
  steadyStore := .ofList []
  waiterBefore :=
    [.value (.reconfigure ⟨.ofList 2 [⟨"a", 1, none⟩, ⟨"b", 1, none⟩], 2, 1, .full⟩)]
  steadyBefore := [.bootstrap ⟨.ofList 1 [⟨"a", 1, none⟩], 1, 0, .full⟩,
    .value (.reconfigure ⟨.ofList 2 [⟨"a", 1, none⟩, ⟨"b", 1, none⟩], 2, 1, .full⟩)]
  waiting := [.value (.operation ⟨7, .put [0x62] [0x31]⟩),
    .value (.reconfigure ⟨.ofList 3 [⟨"a", 1, none⟩, ⟨"b", 1, none⟩], 2, 1, range⟩)]
  completed := .transferComplete 1 ⟨"a", 1, none⟩ ⟨.full, 2, false⟩ 0 0
  steadySteps := [.value (.operation ⟨7, .put [0x62] [0x31]⟩),
    .value (.reconfigure ⟨.ofList 3 [⟨"a", 1, none⟩, ⟨"b", 1, none⟩], 2, 1, range⟩)]

/-- A range that takes the put in. -/
def wide : KeyRange := .halfOpen [] [0x63]

/-- A range that ends right before the put. -/
def narrow : KeyRange := .halfOpen [] [0x62]

lemma proper_reassigned {range : KeyRange} (hrange : range ∈ [wide, narrow]) :
    (reassigned range).Proper where
  -- each of these is computed for both ranges at once
  fresh := by revert range; decide +kernel
  waits := by
    have hawaits : (reassigned range).waiterAt.awaiting = some 2 ∧
        ((reassigned range).waiterAt.follow (reassigned range).waiting).awaiting = some 2 := by
      revert range
      decide +kernel
    exact ⟨2, hawaits⟩
  completes := by revert range; decide +kernel
  idle := by revert range; decide +kernel
  installed := by revert range; decide +kernel
  values := rfl

lemma alike_reassigned {range : KeyRange} (hrange : range ∈ [wide, narrow]) :
    (reassigned range).Alike := by
  have hempty : (reassigned range).waiterAt.executed.capacity =
        (reassigned range).steadyAt.executed.capacity ∧
      (reassigned range).waiterAt.executed.order = [] ∧
      (reassigned range).steadyAt.executed.order = [] := by
    revert range
    decide +kernel
  obtain ⟨hcapacity, hwaiter, hsteady⟩ := hempty
  refine RecentSet.alike_of_not_mem hcapacity ?_ ?_
  · simp [hwaiter]
  · simp [hsteady]

/-- Both replicas run the put if the next view keeps its key. -/
theorem transparent_iff_wide :
    (reassigned wide).waiterRuns.map outcome = (reassigned wide).steadyRuns.map outcome ∧
      (reassigned wide).steadyRuns.map Execution.verdict = [.accepted] := by
  have hrange : wide ∈ [wide, narrow] := by simp
  obtain ⟨-, -, hiff⟩ := transparent_iff (proper_reassigned hrange)
  exact ⟨(hiff (alike_reassigned hrange)).2 (by decide +kernel), by decide +kernel⟩

/-- If the next view gives the key of the put away, the replica that waits refuses the put, and the
other one runs it, as the configuration at its place has it. -/
theorem refused_narrow :
    let d := reassigned narrow
    d.Proper ∧ d.Alike ∧
      (inForce d.waiterAt.installed d.log).map (fun p => takesIn p.1 p.2) = [true] ∧
      d.waiterRuns.map Execution.verdict = [.outside] ∧
      d.steadyRuns.map Execution.verdict = [.accepted] := by
  have hrange : narrow ∈ [wide, narrow] := by simp
  exact ⟨proper_reassigned hrange, alike_reassigned hrange, by decide +kernel, by decide +kernel,
    by decide +kernel⟩

end Deferral

end ReplicaRing
