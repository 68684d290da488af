import ReplicaRing.Proofs.Arrivals
import ReplicaRing.Proofs.MapContents

/-!
Decisions for the next position. What an engine holds has a gap at the next position whenever it is
at rest, `Engine.AtGap.course`, for it applies all that is without a gap at once. So a decision for
the next position is applied as it comes, and then what was held after it, `Engine.decide_next`.
-/

namespace ReplicaRing

namespace Engine

/-- Whether the value of the next position is still to come. -/
def AtGap (e : Engine) : Prop := e.held.get? e.next = none

variable {e : Engine}

/-- A decision for the next position is applied, and then the values that it makes due. -/
theorem decide_next (h : e.AtGap) (value : LogValue) :
    e.decide e.next value =
      let counted := (e.apply value).1.countApplied
      let rest := applyHeld e.held.size counted.1
      (rest.1, (e.apply value).2 ++ counted.2 ++ rest.2) := by
  have hget : (e.held.insert e.next value).get? e.next = some value := by
    rw [SortedMap.get?_insert, if_pos rfl]
  unfold Engine.decide
  rw [if_neg (Nat.lt_irrefl _)]
  simp only [SortedMap.size_insert value h, applyHeld, hget, SortedMap.erase_insert value h]

lemma applyHeld_of_gap (fuel : Nat) (h : e.AtGap) : applyHeld fuel e = (e, []) := by
  cases fuel with
  | zero => rfl
  | succ fuel =>
    unfold applyHeld
    rw [show e.held.get? e.next = none from h]

lemma countApplied_eq (e : Engine) :
    e.countApplied =
      ({ e with
          next := e.next + 1
          appliedSincePrune := if e.config.pruneInterval ≤ e.appliedSincePrune + 1 then 0
            else e.appliedSincePrune + 1 },
        if e.config.pruneInterval ≤ e.appliedSincePrune + 1 then
          [.log (.prune (UInt64.ofNat (e.next + 1)))]
        else []) := by
  unfold countApplied
  simp only
  split
  · rfl
  · rfl

/-! ## Gaps -/

/-- All that is without a gap is applied. -/
lemma atGap_applyHeld {fuel : Nat} (hfuel : e.held.size ≤ fuel) : (applyHeld fuel e).1.AtGap := by
  induction fuel generalizing e with
  | zero =>
    have hnil : e.held.entries = [] := List.eq_nil_of_length_eq_zero (Nat.le_zero.1 hfuel)
    show e.held.get? e.next = none
    unfold SortedMap.get?
    rw [hnil]
    rfl
  | succ fuel ih =>
    cases hget : e.held.get? e.next with
    | none =>
      rw [applyHeld_of_gap _ hget]
      exact hget
    | some value =>
      -- taking the value off leaves fewer to go through
      have hsize : (e.held.erase e.next).size < e.held.size :=
        List.length_filter_lt_length_iff_exists.2
          ⟨_, SortedMap.get?_eq_some_iff.1 hget, by simp⟩
      unfold applyHeld
      rw [hget]
      refine ih (e := e.applyNext value) ?_
      rw [(e.applyNext_place value).2]
      omega

/-- An engine is at a gap as long as neither its place in the log nor what it holds changes. -/
lemma AtGap.of_place (h : e.AtGap) {e' : Engine} (hnext : e'.next = e.next)
    (hheld : e'.held = e.held) : e'.AtGap := by
  unfold AtGap
  rw [hnext, hheld]
  exact h

/-- What is no decision leaves the place in the log alone. -/
lemma place_react (h : e.Consistent) {a : Arrival}
    (hdecided : ∀ p value, a ≠ .input (.decided p value)) :
    (e.react a).next = e.next ∧ (e.react a).held = e.held ∧
      (e.react a).appliedSincePrune = e.appliedSincePrune := by
  cases a with
  | submit op => exact ⟨rfl, rfl, rfl⟩
  | propose r => exact ⟨rfl, rfl, rfl⟩
  | store store => exact ⟨rfl, rfl, rfl⟩
  | input input =>
    cases input with
    | decided position value => exact absurd rfl (hdecided position value)
    | page items => exact ⟨rfl, rfl, rfl⟩
    | oracle event =>
      cases event with
      | trust leader view => exact ⟨rfl, rfl, rfl⟩
      | livenessChanged leader => exact ⟨rfl, rfl, rfl⟩
    | bootstrap r =>
      obtain ⟨_, _, _, _, hmove⟩ := e.reconfigure_rest r
      show (e.reconfigure r).1.next = _ ∧ (e.reconfigure r).1.held = _ ∧
        (e.reconfigure r).1.appliedSincePrune = _
      rw [hmove]
      exact ⟨rfl, rfl, rfl⟩
    | mover event =>
      obtain ⟨_, _, hexecute⟩ :=
        executeAll_rest { e with awaiting := none, deferred := [] } e.deferred
      have hafter := handleMover_eq h event
      rw [hexecute] at hafter
      show (e.handleMover event).1.next = _ ∧ (e.handleMover event).1.held = _ ∧
        (e.handleMover event).1.appliedSincePrune = _
      rw [hafter]
      split
      · exact ⟨rfl, rfl, rfl⟩
      · exact ⟨rfl, rfl, rfl⟩

lemma AtGap.react (hgap : e.AtGap) (h : e.Consistent) (a : Arrival) : (e.react a).AtGap := by
  by_cases hdecided : ∃ p value, a = .input (.decided p value)
  · obtain ⟨p, value, rfl⟩ := hdecided
    show (e.decide p value).1.AtGap
    unfold Engine.decide
    by_cases hold : p < e.next
    · rw [if_pos hold]
      exact hgap
    · rw [if_neg hold]
      exact atGap_applyHeld (Nat.le_refl _)
  · obtain ⟨hnext, hheld, -⟩ := place_react h fun p value heq => hdecided ⟨p, value, heq⟩
    exact hgap.of_place hnext hheld

/-- In a run, the value of the next position is always still to come. -/
theorem AtGap.course (hgap : e.AtGap) (h : e.Consistent) (arrivals : List Arrival) :
    (e.course arrivals).AtGap := by
  induction arrivals generalizing e with
  | nil => exact hgap
  | cons a rest ih => exact ih (hgap.react h a) (h.react a)

lemma atGap_start (self : NodeId) (config : ReplicationConfig) (store : Store) :
    (start self config store).AtGap := rfl

end Engine

end ReplicaRing
