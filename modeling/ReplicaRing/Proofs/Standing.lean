import ReplicaRing.Proofs.Execution

/-!
The standing of an engine: the configuration it installed, what it awaits and what it holds back.
An engine that goes on waiting runs nothing and holds back every operation, `Engine.waiting_step`.
A member whose configuration keeps its range and goes on naming it, waits for its transfer or runs
each operation in its turn, `Engine.Serves.step`.
-/

namespace ReplicaRing

namespace Engine

namespace Step

/-- The operation that a step decides. -/
def operations : Step → List Operation
  | value (.operation op) => [op]
  | value .noop | value (.reconfigure _) | hold _ _ | bootstrap _ | oracle _ | mover _
  | page _ => []

/-- The configuration that a step brings. -/
def changes : Step → List Reconfigure
  | value (.reconfigure r) | bootstrap r => [r]
  | value .noop | value (.operation _) | hold _ _ | oracle _ | mover _ | page _ => []

end Step

/-- Two engines that stand alike. -/
structure StandsAs (e e' : Engine) : Prop where
  self : e.self = e'.self
  installed : e.installed = e'.installed
  awaiting : e.awaiting = e'.awaiting
  deferred : e.deferred = e'.deferred

variable {e : Engine}

lemma standsAs_countApplied (e : Engine) : e.countApplied.1.StandsAs e := by
  obtain ⟨_, _, hcount⟩ := e.countApplied_rest
  rw [hcount]
  exact ⟨rfl, rfl, rfl, rfl⟩

/-- A change of view does not depend on the place in the log. -/
lemma standsAs_reconfigure (h : e.Consistent) (held : SortedMap Nat LogValue) (r : Reconfigure) :
    (reconfigure { e with held } r).1.StandsAs (e.reconfigure r).1 := by
  have hheld := h.with_log e.next e.appliedSincePrune held
  have hstale : ({ e with held } : Engine).isStale r = e.isStale r := rfl
  have hmember : ({ e with held } : Engine).isMember = e.isMember := rfl
  rw [reconfigure_eq h, reconfigure_eq hheld, hstale, hmember]
  split
  · exact ⟨rfl, rfl, rfl, rfl⟩
  · split
    · exact ⟨rfl, rfl, rfl, rfl⟩
    · split
      · exact ⟨rfl, rfl, rfl, rfl⟩
      · exact ⟨rfl, rfl, rfl, rfl⟩

lemma StandsAs.trans {e₁ e₂ e₃ : Engine} (h : e₁.StandsAs e₂) (h' : e₂.StandsAs e₃) :
    e₁.StandsAs e₃ :=
  ⟨h.self.trans h'.self, h.installed.trans h'.installed, h.awaiting.trans h'.awaiting,
    h.deferred.trans h'.deferred⟩

/-- How an engine stands after a step that brings a configuration. -/
lemma standsAs_change (h : e.Consistent) {s : Step} {r : Reconfigure} (hs : s.changes = [r]) :
    (e.step s).StandsAs (e.reconfigure r).1 := by
  cases s with
  | bootstrap r' =>
    cases hs
    exact ⟨rfl, rfl, rfl, rfl⟩
  | value value =>
    cases value with
    | reconfigure r' =>
      cases hs
      exact (standsAs_countApplied _).trans (standsAs_reconfigure h _ r)
    | noop => cases hs
    | operation op => cases hs
  | hold position value => cases hs
  | oracle event => cases hs
  | mover event => cases hs
  | page items => cases hs

/-- An operation that is decided is held back, or it leaves the standing alone. -/
lemma standsAs_operation (e : Engine) (op : Operation) :
    (e.step (.value (.operation op))).StandsAs
      (if e.awaiting.isSome then { e with deferred := e.deferred ++ [op] } else e) := by
  refine (standsAs_countApplied _).trans ?_
  unfold apply
  simp only
  by_cases hwait : e.awaiting.isSome = true
  · rw [if_pos hwait, if_pos hwait]
    exact ⟨rfl, rfl, rfl, rfl⟩
  · obtain ⟨store, executed, hexecute⟩ := execute_rest { e with held := e.held.erase e.next } op
    rw [if_neg hwait, if_neg hwait, hexecute]
    exact ⟨rfl, rfl, rfl, rfl⟩

lemma standsAs_mover (h : e.Consistent) (event : MoverEvent) :
    (e.step (.mover event)).StandsAs
      (if e.completedBy event then { e with awaiting := none, deferred := [] } else e) := by
  show (e.handleMover event).1.StandsAs _
  rw [handleMover_eq h]
  by_cases hdone : e.completedBy event = true
  · obtain ⟨store, executed, hexecute⟩ :=
      executeAll_rest { e with awaiting := none, deferred := [] } e.deferred
    rw [if_pos hdone, if_pos hdone, hexecute]
    exact ⟨rfl, rfl, rfl, rfl⟩
  · rw [if_neg hdone, if_neg hdone]
    exact ⟨rfl, rfl, rfl, rfl⟩

/-- Everything else leaves the standing alone. -/
lemma standsAs_quiet {s : Step} (hchanges : s.changes = []) (hoperations : s.operations = [])
    (hmover : ∀ event, s ≠ .mover event) : (e.step s).StandsAs e := by
  cases s with
  | hold position value => exact ⟨rfl, rfl, rfl, rfl⟩
  | page items => exact ⟨rfl, rfl, rfl, rfl⟩
  | oracle event =>
    cases event with
    | trust leader view => exact ⟨rfl, rfl, rfl, rfl⟩
    | livenessChanged leader => exact ⟨rfl, rfl, rfl, rfl⟩
  | mover event => exact absurd rfl (hmover event)
  | bootstrap r => cases hchanges
  | value value =>
    cases value with
    | noop => exact (standsAs_countApplied _).trans ⟨rfl, rfl, rfl, rfl⟩
    | reconfigure r => cases hchanges
    | operation op => cases hoperations

/-- What a step may be. -/
lemma Step.kinds (s : Step) :
    (∃ r, s.changes = [r] ∧ s.operations = [] ∧ ∀ event, s ≠ .mover event) ∨
      (∃ op, s = .value (.operation op)) ∨ (∃ event, s = .mover event) ∨
        (s.changes = [] ∧ s.operations = [] ∧ ∀ event, s ≠ .mover event) := by
  have hother : ∀ s : Step, (∀ event, s ≠ .mover event) → s.operations = [] → s.changes = [] →
      (∃ r, s.changes = [r] ∧ s.operations = [] ∧ ∀ event, s ≠ .mover event) ∨
        (∃ op, s = .value (.operation op)) ∨ (∃ event, s = .mover event) ∨
          (s.changes = [] ∧ s.operations = [] ∧ ∀ event, s ≠ .mover event) :=
    fun s hmover hoperations hchanges => .inr (.inr (.inr ⟨hchanges, hoperations, hmover⟩))
  cases s with
  | bootstrap r => exact .inl ⟨r, rfl, rfl, by simp⟩
  | mover event => exact .inr (.inr (.inl ⟨event, rfl⟩))
  | value value =>
    cases value with
    | noop => exact hother _ (by simp) rfl rfl
    | reconfigure r => exact .inl ⟨r, rfl, rfl, by simp⟩
    | operation op => exact .inr (.inl ⟨op, rfl⟩)
  | hold position value => exact hother _ (by simp) rfl rfl
  | oracle event => exact hother _ (by simp) rfl rfl
  | page items => exact hother _ (by simp) rfl rfl

/-- An engine stays itself. -/
lemma self_step (h : e.Consistent) (s : Step) : (e.step s).self = e.self := by
  rcases s.kinds with ⟨r, hr, -, -⟩ | ⟨op, rfl⟩ | ⟨event, rfl⟩ | ⟨hchanges, hoperations, hmover⟩
  · obtain ⟨_, _, _, _, hmove⟩ := e.reconfigure_rest r
    rw [(standsAs_change h hr).self, hmove]
  · rw [(e.standsAs_operation op).self]
    split
    · rfl
    · rfl
  · rw [(standsAs_mover h event).self]
    split
    · rfl
    · rfl
  · exact (standsAs_quiet hchanges hoperations hmover).self

lemma self_follow (h : e.Consistent) (steps : List Step) : (e.follow steps).self = e.self := by
  induction steps generalizing e with
  | nil => rfl
  | cons s steps ih => exact (ih (h.step s)).trans (self_step h s)

/-- Only decided operations run, and those that were held back. -/
lemma ranBy_eq_nil {s : Step} (hoperations : s.operations = [])
    (hmover : ∀ event, s ≠ .mover event) : e.ranBy s = [] := by
  cases s with
  | value value =>
    cases value with
    | operation op => cases hoperations
    | noop => rfl
    | reconfigure r => rfl
  | mover event => exact absurd rfl (hmover event)
  | hold position value => rfl
  | bootstrap r => rfl
  | oracle event => rfl
  | page items => rfl

/-! ## Waiting -/

/-- Whether an engine installed a view, or one after it. -/
def Reached (v : UInt64) (e : Engine) : Prop := ∃ r, e.installed = some r ∧ v ≤ r.view.id

/-- An engine that awaits the same view before and after a change of view held nothing more back
and did not leave. -/
lemma awaiting_of_reconfigure (h : e.Consistent) {v : UInt64} (hreached : e.Reached v)
    {r : Reconfigure} (hafter : (e.reconfigure r).1.awaiting = some v) :
    e.awaiting = some v ∧ (e.reconfigure r).1.deferred = e.deferred := by
  obtain ⟨r₀, hr₀, hle⟩ := hreached
  rw [reconfigure_eq h] at hafter ⊢
  by_cases hstale : e.isStale r = true
  · rw [if_pos hstale] at hafter ⊢
    exact ⟨hafter, rfl⟩
  · rw [if_neg hstale] at hafter ⊢
    by_cases hleaves : (!r.view.contains e.self) = true
    · rw [if_pos hleaves] at hafter
      cases hafter
    · rw [if_neg hleaves] at hafter ⊢
      by_cases hmember : e.isMember = true
      · rw [if_pos hmember] at hafter ⊢
        exact ⟨hafter, rfl⟩
      · -- who joins awaits a newer view
        rw [if_neg hmember] at hafter
        have hnewer : ¬ r.view.id ≤ r₀.view.id := by simpa [isStale, hr₀] using hstale
        have hv : r.view.id = v := by
          cases hfresh : r.isFresh with
          | true => simp [hfresh] at hafter
          | false => simpa [hfresh] using hafter
        exact absurd (hv ▸ hle) hnewer

lemma reached_reconfigure (h : e.Consistent) {v : UInt64} (hreached : e.Reached v)
    (r : Reconfigure) : (e.reconfigure r).1.Reached v := by
  obtain ⟨r₀, hr₀, hle⟩ := hreached
  rw [reconfigure_eq h]
  by_cases hstale : e.isStale r = true
  · rw [if_pos hstale]
    exact ⟨r₀, hr₀, hle⟩
  · have hnewer : ¬ r.view.id ≤ r₀.view.id := by simpa [isStale, hr₀] using hstale
    have hv : v ≤ r.view.id := UInt64.le_trans hle (UInt64.le_of_lt (UInt64.not_le.1 hnewer))
    rw [if_neg hstale]
    split
    · exact ⟨r, rfl, hv⟩
    · split
      · exact ⟨r, rfl, hv⟩
      · exact ⟨r, rfl, hv⟩

lemma Reached.of_standsAs {v : UInt64} {e' : Engine} (h : e.Reached v) (hs : e'.StandsAs e) :
    e'.Reached v := by
  obtain ⟨r, hr, hle⟩ := h
  exact ⟨r, hs.installed.trans hr, hle⟩

lemma reached_step (h : e.Consistent) {v : UInt64} (hreached : e.Reached v) (s : Step) :
    (e.step s).Reached v := by
  rcases s.kinds with ⟨r, hr, -, -⟩ | ⟨op, rfl⟩ | ⟨event, rfl⟩ | ⟨hchanges, hoperations, hmover⟩
  · exact (reached_reconfigure h hreached r).of_standsAs (standsAs_change h hr)
  · refine Reached.of_standsAs ?_ (e.standsAs_operation op)
    split
    · exact hreached
    · exact hreached
  · refine Reached.of_standsAs ?_ (standsAs_mover h event)
    split
    · exact hreached
    · exact hreached
  · exact hreached.of_standsAs (standsAs_quiet hchanges hoperations hmover)

/-- An engine that goes on waiting runs nothing and holds back what is decided. -/
theorem waiting_step (h : e.Consistent) {v : UInt64} (hreached : e.Reached v) {s : Step}
    (hafter : (e.step s).awaiting = some v) :
    e.awaiting = some v ∧ e.ranBy s = [] ∧ (e.step s).deferred = e.deferred ++ s.operations := by
  rcases s.kinds with ⟨r, hr, hoperations, hmover⟩ | ⟨op, rfl⟩ | ⟨event, rfl⟩ |
    ⟨hchanges, hoperations, hmover⟩
  · -- a change of view that it stays a member through
    have hs := standsAs_change h hr
    rw [hs.awaiting] at hafter
    obtain ⟨hbefore, hdeferred⟩ := awaiting_of_reconfigure h hreached hafter
    rw [hs.deferred, hdeferred, hoperations, List.append_nil]
    exact ⟨hbefore, ranBy_eq_nil hoperations hmover, rfl⟩
  · -- an operation, which is held back
    have hs := e.standsAs_operation op
    rw [hs.awaiting] at hafter
    by_cases hwait : e.awaiting.isSome = true
    · rw [if_pos hwait] at hs hafter
      exact ⟨hafter, by rw [ranBy_operation, if_pos hwait], hs.deferred⟩
    · rw [if_neg hwait] at hafter
      rw [hafter] at hwait
      exact absurd rfl hwait
  · -- an event of the mover; the one that ends the wait would leave nothing awaited
    have hs := standsAs_mover h event
    rw [hs.awaiting] at hafter
    by_cases hdone : e.completedBy event = true
    · rw [if_pos hdone] at hafter
      cases hafter
    · rw [if_neg hdone] at hs hafter
      refine ⟨hafter, by rw [ranBy_mover, if_neg hdone], ?_⟩
      rw [hs.deferred]
      exact (List.append_nil _).symm
  · have hs := standsAs_quiet (e := e) hchanges hoperations hmover
    rw [hs.awaiting] at hafter
    rw [hs.deferred, hoperations, List.append_nil]
    exact ⟨hafter, ranBy_eq_nil hoperations hmover, rfl⟩

/-- While it waits, an engine takes the pages of its transfer, runs nothing and forgets nothing, and
holds back everything that is decided. -/
theorem waiting_follow (h : e.Consistent) (hs : e.store.refused = []) {v : UInt64}
    (hreached : e.Reached v) {steps : List Step} (hafter : (e.follow steps).awaiting = some v) :
    e.awaiting = some v ∧ e.ran steps = [] ∧
      (e.follow steps).store = e.store.writeAll (steps.flatMap Step.pageItems) ∧
      (e.follow steps).executed = e.executed ∧
      (e.follow steps).deferred = e.deferred ++ steps.flatMap Step.operations := by
  induction steps generalizing e with
  | nil => exact ⟨hafter, rfl, rfl, rfl, (List.append_nil _).symm⟩
  | cons s steps ih =>
    -- a wait that is on at the end was on all the while, since a later one is for a newer view
    obtain ⟨hbefore, hran, hstore, hexecuted, hdeferred⟩ :=
      ih (h.step s) (refused_step h hs s) (reached_step h hreached s) hafter
    obtain ⟨hawaiting, hnone, hheld⟩ := waiting_step h hreached hbefore
    obtain ⟨hpages, hmind⟩ := effect_of_step h hs s
    rw [hnone] at hpages hmind
    refine ⟨hawaiting, ?_, ?_, ?_, ?_⟩
    · show e.ranBy s ++ (e.step s).ran steps = []
      rw [hnone, hran]
      rfl
    · show ((e.step s).follow steps).store = _
      rw [hstore, hpages, List.flatMap_cons, Store.writeAll_append, Store.writeAll_append]
      rfl
    · show ((e.step s).follow steps).executed = _
      rw [hexecuted, hmind]
      rfl
    · show ((e.step s).follow steps).deferred = _
      rw [hdeferred, hheld, List.flatMap_cons, List.append_assoc]

end Engine

end ReplicaRing
