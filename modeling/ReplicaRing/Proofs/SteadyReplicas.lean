import ReplicaRing.Proofs.RecentMemory
import ReplicaRing.Proofs.Standing

/-!
Members whose range does not change. What such a member runs of the decided operations is settled by
its memory alone: an operation runs if it lies in the range and its number is not remembered, be it
in its turn or after a wait, `Engine.Serves.ran_ready` and `Engine.Serves.ran_joined`. Two memories
that remember none of the numbers that are still to be decided let the same operations pass,
`Engine.passed_congr`.
-/

namespace ReplicaRing

namespace Engine

/-- The memory after some operations ran. -/
def remember (memory : RecentSet OperationId) (ops : List Operation) : RecentSet OperationId :=
  (ops.map Operation.id).foldl RecentSet.insert memory

/-- The operations that a range and a memory let pass. -/
def passed (range : KeyRange) : RecentSet OperationId → List Operation → List Operation
  | _, [] => []
  | memory, op :: rest =>
    if !memory.contains op.id && range.admits op.target then
      op :: passed range (memory.insert op.id) rest
    else passed range memory rest

lemma passed_cons (range : KeyRange) (memory : RecentSet OperationId) (op : Operation)
    (rest : List Operation) :
    passed range memory (op :: rest) =
      if !memory.contains op.id && range.admits op.target then
        op :: passed range (memory.insert op.id) rest
      else passed range memory rest := rfl

lemma passed_append (range : KeyRange) (memory : RecentSet OperationId)
    (ops more : List Operation) :
    passed range memory (ops ++ more) =
      passed range memory ops ++ passed range (remember memory (passed range memory ops)) more := by
  induction ops generalizing memory with
  | nil => rfl
  | cons op ops ih =>
    rw [List.cons_append, passed_cons, passed_cons]
    by_cases hpass : (!memory.contains op.id && range.admits op.target) = true
    · rw [if_pos hpass, if_pos hpass, ih]
      rfl
    · rw [if_neg hpass, if_neg hpass, ih]

/-- Only the memory and the range of an engine settle what runs. -/
lemma ranOf_eq_passed {e : Engine} {r : Reconfigure} (hr : e.installed = some r)
    (ops : List Operation) : e.ranOf ops = passed r.responsibility e.executed ops := by
  induction ops generalizing e with
  | nil => rfl
  | cons op ops ih =>
    have hruns : e.runs op = (!e.executed.contains op.id && r.responsibility.admits op.target) := by
      unfold runs
      rw [hr]
      rfl
    unfold ranOf
    rw [passed_cons, hruns]
    have hafter : (e.afterRun op).ranOf ops =
        passed r.responsibility (e.executed.insert op.id) ops := ih (e := e.afterRun op) hr
    rw [hafter, ih hr]

/-- Memories that are alike for the numbers to come let the same operations pass. -/
theorem passed_congr (range : KeyRange) {p : OperationId → Prop} {ops : List Operation}
    (hops : ∀ op ∈ ops, p op.id) {memory memory' : RecentSet OperationId}
    (hvalid : memory.Valid) (hvalid' : memory'.Valid)
    (h : RecentSet.Alike p memory memory') :
    passed range memory ops = passed range memory' ops := by
  induction ops generalizing memory memory' with
  | nil => rfl
  | cons op ops ih =>
    -- both let the operation pass or neither does, and then both remember it
    have hop := hops op (by simp)
    have hrest : ∀ op ∈ ops, p op.id := fun o ho => hops o (by simp [ho])
    rw [passed_cons, passed_cons, h.contains hvalid hvalid' hop]
    rw [ih hrest hvalid hvalid' h,
      ih hrest (hvalid.insert _) (hvalid'.insert _) (h.insert hvalid hvalid' hop)]

/-! ## Memories in runs -/

/-- A memory of so many numbers that holds its order. -/
def Remembers (capacity : Nat) (e : Engine) : Prop :=
  e.executed.Valid ∧ e.executed.capacity = capacity

lemma valid_remember {memory : RecentSet OperationId} (h : memory.Valid) (ids : List OperationId) :
    (ids.foldl RecentSet.insert memory).Valid ∧
      (ids.foldl RecentSet.insert memory).capacity = memory.capacity := by
  induction ids generalizing memory with
  | nil => exact ⟨h, rfl⟩
  | cons id ids ih =>
    obtain ⟨hvalid, hcapacity⟩ := ih (h.insert id)
    exact ⟨hvalid, hcapacity.trans (RecentSet.capacity_insert memory id)⟩

lemma Remembers.follow {capacity : Nat} {e : Engine} (hm : e.Remembers capacity)
    (h : e.Consistent) (hs : e.store.refused = []) (steps : List Step) :
    (e.follow steps).Remembers capacity := by
  induction steps generalizing e with
  | nil => exact hm
  | cons s steps ih =>
    refine ih ?_ (h.step s) (refused_step h hs s)
    obtain ⟨hvalid, hcapacity⟩ := valid_remember hm.1 ((e.ranBy s).map Operation.id)
    unfold Remembers
    rw [(effect_of_step h hs s).2]
    exact ⟨hvalid, hcapacity.trans hm.2⟩

/-! ## Members that keep their range -/

/-- A member of a view at least as new as another, responsible for a range. -/
structure Serves (v : UInt64) (range : KeyRange) (e : Engine) : Prop where
  consistent : e.Consistent
  store : e.store.refused = []
  installed : ∃ r, e.installed = some r ∧ v ≤ r.view.id ∧ r.responsibility = range ∧
    r.view.contains e.self = true

/-- A step that brings no newer configuration but ones that keep a member and its range. -/
def Step.Keeps (v : UInt64) (range : KeyRange) (self : NodeId) (s : Step) : Prop :=
  ∀ r ∈ s.changes, v < r.view.id → r.responsibility = range ∧ r.view.contains self = true

namespace Serves

variable {v : UInt64} {range : KeyRange} {e : Engine}

lemma isMember (h : Serves v range e) : e.isMember = true := by
  obtain ⟨r, hr, -, -, hmember⟩ := h.installed
  unfold Engine.isMember
  rw [hr]
  exact hmember

/-- A change of view that keeps the range leaves the awaited view alone. -/
lemma reconfigure (h : Serves v range e) {r : Reconfigure}
    (hr : v < r.view.id → r.responsibility = range ∧ r.view.contains e.self = true) :
    (e.reconfigure r).1.awaiting = e.awaiting ∧
      ∃ r₁, (e.reconfigure r).1.installed = some r₁ ∧ v ≤ r₁.view.id ∧ r₁.responsibility = range ∧
        r₁.view.contains (e.reconfigure r).1.self = true := by
  rw [reconfigure_eq h.consistent]
  by_cases hstale : e.isStale r = true
  · rw [if_pos hstale]
    exact ⟨rfl, h.installed⟩
  · obtain ⟨r₀, hr₀, hle, -, -⟩ := h.installed
    have hnewer : ¬ r.view.id ≤ r₀.view.id := by simpa [isStale, hr₀] using hstale
    have hv : v < r.view.id := UInt64.lt_of_le_of_lt hle (UInt64.not_le.1 hnewer)
    obtain ⟨hrange, hmember⟩ := hr hv
    rw [if_neg hstale, if_neg (by rw [hmember]; simp), if_pos h.isMember]
    exact ⟨rfl, r, rfl, UInt64.le_of_lt hv, hrange, hmember⟩

lemma of_standsAs {e' e'' : Engine} (hconsistent : e'.Consistent)
    (hstore : e'.store.refused = []) (hs : e'.StandsAs e'')
    (hinstalled : ∃ r, e''.installed = some r ∧ v ≤ r.view.id ∧ r.responsibility = range ∧
      r.view.contains e''.self = true) : Serves v range e' := by
  obtain ⟨r, hr, hle, hrange, hmember⟩ := hinstalled
  exact ⟨hconsistent, hstore, r, hs.installed.trans hr, hle, hrange, hs.self ▸ hmember⟩

/-- A step that keeps the range starts no wait. -/
theorem step (h : Serves v range e) {s : Step} (hs : s.Keeps v range e.self) :
    Serves v range (e.step s) ∧ (e.awaiting = none → (e.step s).awaiting = none) := by
  have hafter := h.consistent.step s
  have hstore := refused_step h.consistent h.store s
  rcases s.kinds with ⟨r, hr, -, -⟩ | ⟨op, rfl⟩ | ⟨event, rfl⟩ | ⟨hchanges, hoperations, hmover⟩
  · have hstands := standsAs_change h.consistent hr
    obtain ⟨hawaiting, hinstalled⟩ := h.reconfigure (hs r (by rw [hr]; simp))
    refine ⟨of_standsAs hafter hstore hstands hinstalled, fun hidle => ?_⟩
    rw [hstands.awaiting, hawaiting, hidle]
  · have hstands := e.standsAs_operation op
    by_cases hwait : e.awaiting.isSome = true
    · rw [if_pos hwait] at hstands
      refine ⟨of_standsAs hafter hstore hstands h.installed, fun hidle => ?_⟩
      rw [hidle] at hwait
      cases hwait
    · rw [if_neg hwait] at hstands
      refine ⟨of_standsAs hafter hstore hstands h.installed, fun hidle => ?_⟩
      rw [hstands.awaiting, hidle]
  · have hstands := standsAs_mover h.consistent event
    by_cases hdone : e.completedBy event = true
    · rw [if_pos hdone] at hstands
      exact ⟨of_standsAs hafter hstore hstands h.installed, fun _ => hstands.awaiting⟩
    · rw [if_neg hdone] at hstands
      refine ⟨of_standsAs hafter hstore hstands h.installed, fun hidle => ?_⟩
      rw [hstands.awaiting, hidle]
  · have hstands := standsAs_quiet (e := e) hchanges hoperations hmover
    refine ⟨of_standsAs hafter hstore hstands h.installed, fun hidle => ?_⟩
    rw [hstands.awaiting, hidle]

/-- Steps that keep a member and its range. -/
lemma keeps_step {steps : List Step} {s : Step} (h : Serves v range e)
    (hs : ∀ s' ∈ s :: steps, s'.Keeps v range e.self) :
    s.Keeps v range e.self ∧ ∀ s' ∈ steps, s'.Keeps v range (e.step s).self := by
  rw [self_step h.consistent]
  exact ⟨hs s (by simp), fun s' hs' => hs s' (by simp [hs'])⟩

lemma follow (h : Serves v range e) {steps : List Step}
    (hs : ∀ s ∈ steps, s.Keeps v range e.self) : Serves v range (e.follow steps) := by
  induction steps generalizing e with
  | nil => exact h
  | cons s steps ih =>
    obtain ⟨hfirst, hrest⟩ := h.keeps_step hs
    exact ih (h.step hfirst).1 hrest

/-- What runs of the operations of a list. -/
lemma ranOf_eq (h : Serves v range e) (ops : List Operation) :
    e.ranOf ops = passed range e.executed ops := by
  obtain ⟨r, hr, -, rfl, -⟩ := h.installed
  exact ranOf_eq_passed hr ops

/-- A member that awaits nothing runs what is decided if its memory lets it pass. -/
theorem ran_ready (h : Serves v range e) (hidle : e.awaiting = none) {steps : List Step}
    (hs : ∀ s ∈ steps, s.Keeps v range e.self) :
    e.ran steps = passed range e.executed (steps.flatMap Step.operations) := by
  induction steps generalizing e with
  | nil => rfl
  | cons s steps ih =>
    have hran : e.ranBy s = passed range e.executed s.operations := by
      rcases s.kinds with ⟨r, -, hoperations, hmover⟩ | ⟨op, rfl⟩ | ⟨event, rfl⟩ |
        ⟨-, hoperations, hmover⟩
      · rw [ranBy_eq_nil hoperations hmover, hoperations]
        rfl
      · rw [ranBy_operation, if_neg (by rw [hidle]; simp)]
        exact h.ranOf_eq [op]
      · -- no transfer is awaited, so none completes
        have hdone : ¬ e.completedBy event = true := by
          unfold completedBy
          rw [hidle]
          simp
        rw [ranBy_mover, if_neg hdone]
        rfl
      · rw [ranBy_eq_nil hoperations hmover, hoperations]
        rfl
    obtain ⟨hfirst, hrest⟩ := h.keeps_step hs
    obtain ⟨hstep, hstill⟩ := h.step hfirst
    have hmind := (effect_of_step h.consistent h.store s).2
    show e.ranBy s ++ (e.step s).ran steps = _
    rw [ih hstep (hstill hidle) hrest, hmind, hran, List.flatMap_cons, passed_append]
    rfl

/-- A member that waited for its transfer ran, by then and since, what its memory lets pass of all
that was decided. -/
theorem ran_joined (h : Serves v range e) (hfresh : e.deferred = []) {waiting later : List Step}
    {event : MoverEvent} (hwaits : (e.follow waiting).awaiting = some v)
    (hdone : (e.follow waiting).completedBy event = true)
    (hs : ∀ s ∈ waiting ++ later, s.Keeps v range e.self) :
    e.ran (waiting ++ .mover event :: later) =
      passed range e.executed ((waiting ++ later).flatMap Step.operations) := by
  have hreached : e.Reached v := by
    obtain ⟨r, hr, hle, -, -⟩ := h.installed
    exact ⟨r, hr, hle⟩
  obtain ⟨-, hnone, -, hmind, hheld⟩ := waiting_follow h.consistent h.store hreached hwaits
  rw [hfresh, List.nil_append] at hheld
  have hkept : ∀ s ∈ waiting, s.Keeps v range e.self := fun s hs' => hs s (by simp [hs'])
  have hwaited := h.follow hkept
  -- the transfer completes, and what was held back runs
  have hkeeps : Step.Keeps v range (e.follow waiting).self (.mover event) :=
    fun r hr => (nomatch hr)
  have hready := (hwaited.step hkeeps).1
  have hidle : ((e.follow waiting).step (.mover event)).awaiting = none := by
    have hstands := standsAs_mover hwaited.consistent event
    rw [if_pos hdone] at hstands
    exact hstands.awaiting
  have hran : (e.follow waiting).ranBy (.mover event) =
      passed range e.executed (waiting.flatMap Step.operations) := by
    rw [ranBy_mover, if_pos hdone, hwaited.ranOf_eq, hmind, hheld]
  -- from then on it is a member that awaits nothing
  have hmind' := (effect_of_step hwaited.consistent hwaited.store (.mover event)).2
  rw [hran, hmind] at hmind'
  have hlater : ∀ s ∈ later, s.Keeps v range ((e.follow waiting).step (.mover event)).self :=
    fun s hs' => by
      rw [self_step hwaited.consistent, self_follow h.consistent]
      exact hs s (by simp [hs'])
  have hrest := hready.ran_ready hidle hlater
  rw [hmind'] at hrest
  rw [ran_append, hnone, List.nil_append, List.flatMap_append, passed_append, ← hran]
  show (e.follow waiting).ranBy (.mover event) ++ _ = _
  rw [hrest, hran]
  rfl

end Serves

end Engine

end ReplicaRing
