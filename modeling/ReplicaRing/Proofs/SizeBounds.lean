import ReplicaRing.Proofs.SizeAccounting

/-!
Why the counts of changes stay in the bounds of 64 bits. What a router has counted up since the last
tick is the difference of two sizes that the store once had. So nothing overflows in a run as long
as the store holds less than half of what 64 bits can number, `EngineLink.runFits_of_storable`.
-/

namespace ReplicaRing

/-- Some bytes and some keys that a store may hold. Their differences are in the bounds of 64
bits. -/
def Storable (size : Int × Int) : Prop :=
  (0 ≤ size.1 ∧ size.1 < 2 ^ 63) ∧ 0 ≤ size.2 ∧ size.2 < 2 ^ 63

/-- Changes lead from one size to others, all of which a store may have. -/
def Passes : Int × Int → List SizeDelta → Prop
  | size, [] => Storable size
  | size, d :: rest => Storable size ∧ Passes (size + d.whole) rest

variable {size size' : Int × Int} {deltas more : List SizeDelta}

lemma Storable.fits_sub (h : Storable size) (h' : Storable size') : Fits (size' - size) := by
  obtain ⟨⟨_, _⟩, _, _⟩ := h
  obtain ⟨⟨_, _⟩, _, _⟩ := h'
  have hbytes : (size' - size).1 = size'.1 - size.1 := rfl
  have hkeys : (size' - size).2 = size'.2 - size.2 := rfl
  unfold Fits
  rw [hbytes, hkeys]
  omega

namespace Passes

lemma first (h : Passes size deltas) : Storable size := by
  cases deltas with
  | nil => exact h
  | cons d rest => exact h.1

lemma last (h : Passes size deltas) : Storable (size + SizeDelta.total deltas) := by
  induction deltas generalizing size with
  | nil =>
    rw [SizeDelta.total_nil, add_zero]
    exact h
  | cons d rest ih =>
    rw [SizeDelta.total_cons, ← add_assoc]
    exact ih h.2

lemma append (h : Passes size deltas) (hmore : Passes (size + SizeDelta.total deltas) more) :
    Passes size (deltas ++ more) := by
  induction deltas generalizing size with
  | nil =>
    rw [SizeDelta.total_nil, add_zero] at hmore
    exact hmore
  | cons d rest ih =>
    rw [SizeDelta.total_cons, ← add_assoc] at hmore
    exact ⟨h.1, ih h.2 hmore⟩

lemma of_zeros (h : Storable size) (hzero : ∀ d ∈ deltas, d = .zero) : Passes size deltas := by
  induction deltas with
  | nil => exact h
  | cons d rest ih =>
    refine ⟨h, ?_⟩
    rw [hzero d List.mem_cons_self, SizeDelta.whole_zero, add_zero]
    exact ih fun d' hd' => hzero d' (List.mem_cons_of_mem _ hd')

end Passes

/-- The store has sizes before and after an execution that a store may have. -/
def Execution.Storable (x : Execution) : Prop :=
  ReplicaRing.Storable x.before.store.extent ∧ ReplicaRing.Storable x.after.store.extent

lemma Execution.Storable.fits {x : Execution} (h : x.Storable) : Fits x.gain := h.1.fits_sub h.2

namespace Engine

variable {e : Engine}

lemma passes_executionsOf {ops : List Operation} (h : Storable e.store.extent)
    (hxs : ∀ x ∈ e.executionsOf ops, x.Storable) :
    Passes e.store.extent ((e.executionsOf ops).map fun x => x.answer.delta) := by
  induction ops generalizing e with
  | nil => exact h
  | cons op rest ih =>
    have hfirst : Execution.Storable ⟨e, op⟩ := hxs _ List.mem_cons_self
    have hgrown : e.store.extent + (Execution.answer ⟨e, op⟩).delta.whole =
        (e.execute op).1.store.extent := by
      rw [Execution.whole_answer hfirst.fits]
      exact add_sub_cancel _ _
    have hrest := ih (e := (e.execute op).1) hfirst.2
      (fun x hx => hxs x (List.mem_cons_of_mem _ hx))
    refine ⟨h, ?_⟩
    rw [hgrown]
    exact hrest

/-- The answers of a step tell how the store gets from one size to the next. -/
lemma passes_outputAt (h : e.Consistent) {s : Step} (hown : s.isPage = false)
    (hsize : Storable e.store.extent) (hxs : ∀ x ∈ e.executionsAt s, x.Storable) :
    Passes e.store.extent (deltasIn (e.outputAt s)) := by
  obtain ⟨e', ops, hbefore, hexecutions, hafter⟩ := store_step h hown
  rw [hexecutions] at hxs
  rw [← hbefore] at hsize ⊢
  have hpasses := passes_executionsOf hsize hxs
  unfold deltasIn
  rw [answersIn_outputAt, List.map_append, List.map_map, List.map_map, hexecutions]
  apply hpasses.append
  -- what is given up leaves the store at the size that it has by then
  apply Passes.of_zeros hpasses.last
  intro d hd
  obtain ⟨op, -, rfl⟩ := List.mem_map.1 hd
  rfl

lemma passes_outputAlong (h : e.Consistent) {steps : List Step}
    (hown : ∀ s ∈ steps, s.isPage = false) (hsize : Storable e.store.extent)
    (hxs : ∀ x ∈ e.executionsAlong steps, x.Storable) :
    Passes e.store.extent (deltasIn (e.outputAlong steps)) := by
  induction steps generalizing e with
  | nil => exact hsize
  | cons s rest ih =>
    have hnow : ∀ x ∈ e.executionsAt s, x.Storable :=
      fun x hx => hxs x (List.mem_append_left _ hx)
    have hlater : ∀ x ∈ (e.step s).executionsAlong rest, x.Storable :=
      fun x hx => hxs x (List.mem_append_right _ hx)
    have hfirst := passes_outputAt h (hown s List.mem_cons_self) hsize hnow
    have hafter : (e.step s).store.extent =
        e.store.extent + SizeDelta.total (deltasIn (e.outputAt s)) := by
      rw [extent_step h (hown s List.mem_cons_self), total_outputAt fun x hx => (hnow x hx).fits]
    show Passes e.store.extent (deltasIn (e.outputAt s ++ (e.step s).outputAlong rest))
    rw [deltasIn_append]
    apply hfirst.append
    rw [← hafter]
    apply ih (h.step s) (fun s' hs' => hown s' (List.mem_cons_of_mem _ hs')) ?_ hlater
    rw [hafter]
    exact hfirst.last

lemma passes_outputOn (h : e.Consistent) {a : Arrival} (hown : a.isForeign = false)
    (hsize : Storable e.store.extent)
    (hxs : ∀ x ∈ e.executionsAlong (e.stepsOn a), x.Storable) :
    Passes e.store.extent (deltasIn (e.outputOn a)) := by
  cases a with
  | store store => cases hown
  | propose r =>
    show Passes e.store.extent (deltasIn (e.propose r))
    unfold propose
    split
    · exact hsize
    · exact hsize
  | submit op =>
    show Passes e.store.extent (deltasIn (e.submit op))
    unfold submit
    split
    · apply Passes.of_zeros hsize
      intro d hd
      exact List.mem_singleton.1 hd
    · exact hsize
  | input input =>
    have hdeltas : deltasIn (e.outputOn (.input input)) =
        deltasIn (e.outputAlong (e.stepsOf input)) :=
      congrArg (List.map Answer.delta) (e.answersOn_eq (.input input))
    rw [hdeltas]
    exact passes_outputAlong h (fun s hs => isPage_of_mem_stepsOf hown hs) hsize hxs

end Engine

/-- Events that are no answers leave the store at the size that it has. -/
lemma passes_eventsIn {out : List Engine.Output} (h : Passes size (Engine.deltasIn out)) :
    Passes size ((Engine.eventsIn out).map EngineEvent.delta) := by
  induction out generalizing size with
  | nil => exact h
  | cons first rest ih =>
    have hzero : Passes size (Engine.deltasIn rest) →
        Passes size (SizeDelta.zero :: (Engine.eventsIn rest).map EngineEvent.delta) := by
      intro hrest
      refine ⟨hrest.first, ?_⟩
      rw [SizeDelta.whole_zero, add_zero]
      exact ih hrest
    cases first with
    | event event =>
      cases event with
      | response answer => exact ⟨h.1, ih h.2⟩
      | viewInstalled view range state => exact hzero h
      | synced v => exact hzero h
    | log request => exact ih h
    | install view => exact ih h
    | mover command => exact ih h

/-- A router that reports begins a new count. -/
lemma Router.silent_or_reset (r : Router) (input : Router.Input) :
    reportsIn (r.handle input).2 = [] ∨ (r.handle input).1.stats.delta = .zero := by
  by_cases htick : input = .statsTick
  · right
    rw [htick]
    rfl
  · left
    exact (r.counting_handle htick).silent

namespace EngineLink

/-- The operations that a step brings up for execution. -/
def executionsOn (l : EngineLink) : Step → List Execution
  | .engine a => l.engine.executionsAlong (l.engine.stepsOn a)
  | .event | .desk _ _ => []

/-- The operations that come up for execution in a run. -/
def executions (l : EngineLink) : List Step → List Execution
  | [] => []
  | s :: rest => l.executionsOn s ++ (l.step s).executions rest

/-- A router counts from a size that the store once had, the waiting events lead on through such
sizes, and the last of them is the one that the store has now. -/
structure CountsFrom (base : Int × Int) (l : EngineLink) : Prop where
  storable : Storable base
  passes : Passes (base + l.desk.router.stats.delta.whole) (l.events.map EngineEvent.delta)
  now : base + l.unreported = l.engine.store.extent

variable {l : EngineLink} {base : Int × Int}

lemma reports_or_reset (l : EngineLink) (s : Step) :
    l.reportsOn s = [] ∨ (l.step s).desk.router.stats.delta = .zero := by
  cases s with
  | engine a => exact .inl rfl
  | event =>
    unfold reportsOn step
    cases l.events with
    | nil => exact .inl rfl
    | cons event rest => exact l.desk.router.silent_or_reset (.engine event)
  | desk event hother =>
    cases event with
    | input input => exact l.desk.router.silent_or_reset input
    | fire id => exact .inl rfl
    | pass span => exact .inl rfl
    | amid ids placement placementFault => exact .inl rfl

/-- A count of changes between two sizes of the store is in bounds. -/
lemma CountsFrom.stepFits (h : CountsFrom base l) {s : Step}
    (hxs : ∀ x ∈ l.executionsOn s, x.Storable) : l.StepFits s := by
  cases s with
  | engine a => exact fun x hx => (hxs x hx).fits
  | event =>
    intro event hevent
    have hpasses := h.passes
    cases hevents : l.events with
    | nil =>
      rw [hevents] at hevent
      cases hevent
    | cons first rest =>
      rw [hevents] at hevent hpasses
      cases hevent
      have hfits := h.storable.fits_sub hpasses.2.first
      rw [add_assoc, add_sub_cancel_left] at hfits
      exact hfits
  | desk event hother => trivial

/-- A step takes nothing from the sizes that the router will come to, apart from those that it has
come to. -/
lemma CountsFrom.passes_step (h : CountsFrom base l) (hconsistent : l.engine.Consistent) {s : Step}
    (hown : s.isForeign = false) (hxs : ∀ x ∈ l.executionsOn s, x.Storable) :
    Passes (base + SizeDelta.total ((l.reportsOn s).map StatsReport.delta) +
      (l.step s).desk.router.stats.delta.whole) ((l.step s).events.map EngineEvent.delta) := by
  have hpasses := h.passes
  rw [add_assoc]
  cases s with
  | engine a =>
    -- the events that join the queue lead on from the size that the store has now
    have hnow : base + l.desk.router.stats.delta.whole +
        SizeDelta.total (l.events.map EngineEvent.delta) = l.engine.store.extent := by
      rw [add_assoc]
      exact h.now
    have hsize := hpasses.last
    show Passes (base + (0 + l.desk.router.stats.delta.whole))
      ((l.events ++ Engine.eventsIn (l.engine.outputOn a)).map EngineEvent.delta)
    rw [zero_add, List.map_append]
    apply hpasses.append
    rw [hnow] at hsize ⊢
    exact passes_eventsIn (Engine.passes_outputOn hconsistent hown hsize hxs)
  | event =>
    have hfits : l.StepFits .event := h.stepFits hxs
    unfold reportsOn EngineLink.step
    cases hevents : l.events with
    | nil =>
      show Passes (base + (0 + l.desk.router.stats.delta.whole)) (l.events.map EngineEvent.delta)
      rw [zero_add]
      exact hpasses
    | cons event rest =>
      have hcounted := l.desk.router.reported_handle (.engine event)
        (hfits event (by rw [hevents]; rfl))
      rw [hevents] at hpasses
      show Passes (base + (SizeDelta.total ((Router.reportsIn
            (l.desk.router.handle (.engine event)).2).map StatsReport.delta) +
          (l.desk.router.handle (.engine event)).1.stats.delta.whole))
        (rest.map EngineEvent.delta)
      rw [hcounted, ← add_assoc]
      exact hpasses.2
  | desk event hother =>
    show Passes (base + (SizeDelta.total ((l.desk.reportsOn event).map StatsReport.delta) +
      (l.desk.step event).router.stats.delta.whole)) (l.events.map EngineEvent.delta)
    rw [l.desk.reported_step hother]
    exact hpasses

/-- With a report the router begins to count from the size that it has counted up to. -/
lemma CountsFrom.step (h : CountsFrom base l) (hconsistent : l.engine.Consistent) {s : Step}
    (hown : s.isForeign = false) (hxs : ∀ x ∈ l.executionsOn s, x.Storable) :
    CountsFrom (base + SizeDelta.total ((l.reportsOn s).map StatsReport.delta)) (l.step s) := by
  have hpasses := h.passes_step hconsistent hown hxs
  refine ⟨?_, hpasses, ?_⟩
  · rcases l.reports_or_reset s with hsilent | hreset
    · rw [hsilent, List.map_nil, SizeDelta.total_nil, add_zero]
      exact h.storable
    · -- the new count is nothing yet
      rw [hreset, SizeDelta.whole_zero, add_zero] at hpasses
      exact hpasses.first
  · have hunreported := unreported_step hconsistent hown (h.stepFits hxs)
    rw [add_assoc, hunreported, ← add_assoc, h.now]
    exact add_sub_cancel _ _

lemma CountsFrom.runFits (h : CountsFrom base l) (hconsistent : l.engine.Consistent)
    {steps : List Step} (hown : ∀ s ∈ steps, s.isForeign = false)
    (hxs : ∀ x ∈ l.executions steps, x.Storable) : l.RunFits steps := by
  induction steps generalizing l base with
  | nil => trivial
  | cons s rest ih =>
    have hnow : ∀ x ∈ l.executionsOn s, x.Storable :=
      fun x hx => hxs x (List.mem_append_left _ hx)
    have hlater : ∀ x ∈ (l.step s).executions rest, x.Storable :=
      fun x hx => hxs x (List.mem_append_right _ hx)
    have hstep := h.step hconsistent (hown s List.mem_cons_self) hnow
    refine ⟨h.stepFits hnow, ?_⟩
    exact ih hstep (l.consistent_step hconsistent s)
      (fun s' hs' => hown s' (List.mem_cons_of_mem _ hs')) hlater

/-- Nothing overflows in a run as long as the store, which only its engine writes, holds fewer bytes
and keys than half of what 64 bits can number, before and after each operation. -/
theorem runFits_of_storable (self : NodeId) (config : ReplicationConfig) (store : Store)
    (timeout : Duration) (placement : Placement) (ids : IdSource) (draws : Nat → Nat)
    {steps : List Step}
    (hstart : l = start (.start self config store) (.start self timeout placement ids draws))
    (hown : ∀ s ∈ steps, s.isForeign = false) (hstore : Storable store.extent)
    (hxs : ∀ x ∈ l.executions steps, x.Storable) : l.RunFits steps := by
  subst hstart
  have hcounts : CountsFrom store.extent
      (start (.start self config store) (.start self timeout placement ids draws)) := by
    refine ⟨hstore, ?_, ?_⟩
    · show Storable (store.extent + 0)
      rw [add_zero]
      exact hstore
    · exact add_zero _
  exact hcounts.runFits (Engine.consistent_start self config store) hown hxs

end EngineLink

end ReplicaRing
