import ReplicaRing.Proofs.EngineRuns

/-!
A transfer that is done before its view is installed. The sender may apply a change of view long
before the joining replica does, and its transfer may be complete by then. An engine that awaits
nothing takes no note of a completed transfer, and nothing tells it again: whether a joining
replica becomes ready depends on the transfers that complete after the change of view alone. So the
order of the two matters exactly if no other transfer for the view completes later, which is
`Engine.race_iff`.
-/

namespace ReplicaRing

namespace Engine

/-- Takes note of events of the mover, one after the other. -/
def observe (e : Engine) (events : List MoverEvent) : Engine :=
  events.foldl (fun e event => (e.handleMover event).1) e

/-- Some events of the mover, then a decided change of view, then further events. -/
def race (e : Engine) (before : List MoverEvent) (r : Reconfigure) (after : List MoverEvent) :
    Engine := ((e.observe before).apply (.reconfigure r)).1.observe after

/-- Whether one of some events brings a joining member what its configuration asks for. -/
def broughtBy (r : Reconfigure) (events : List MoverEvent) : Bool :=
  events.any (·.completes r.view.id r.responsibility)

variable {e : Engine}

/-- An engine that awaits nothing takes no note of its mover. -/
lemma observe_of_idle (h : e.Consistent) (hidle : e.awaiting = none)
    (events : List MoverEvent) : e.observe events = e := by
  unfold observe
  induction events with
  | nil => rfl
  | cons event events ih =>
    -- a completed transfer ends no wait, so it is dropped
    have hignored : (e.handleMover event).1 = e := by
      rw [handleMover_eq h]
      unfold completedBy
      rw [hidle]
      exact if_neg (by simp)
    rw [List.foldl_cons, hignored, ih]

/-- An engine that just joined waits until an event brings it what it awaits. -/
lemma observe_of_joined (h : e.Consistent) {r : Reconfigure} (hr : e.installed = some r)
    (ha : e.awaiting = some r.view.id) (hd : e.deferred = []) (events : List MoverEvent) :
    e.observe events =
      if broughtBy r events then { e with state := .ready, awaiting := none } else e := by
  induction events with
  | nil => rfl
  | cons event events ih =>
    have hdone : e.completedBy event = event.completes r.view.id r.responsibility := by
      unfold completedBy
      rw [ha, hr]
      rfl
    have hstep : e.observe (event :: events) = (e.handleMover event).1.observe events := rfl
    have hafter := h.handleMover event
    rw [hstep]
    rw [handleMover_eq h, hdone] at hafter ⊢
    unfold broughtBy
    rw [List.any_cons]
    cases hc : event.completes r.view.id r.responsibility with
    | false => exact ih
    | true =>
      rw [hc, if_pos rfl, hd] at hafter
      rw [if_pos rfl, hd]
      -- nothing was held back, and nothing is awaited any more
      have hready : ({ (executeAll { e with awaiting := none, deferred := [] } []).1 with
          state := .ready } : Engine) = { e with state := .ready, awaiting := none } := by
        show ({ e with deferred := [], state := .ready, awaiting := none } : Engine) = _
        rw [← hd]
      rw [hready] at hafter ⊢
      rw [observe_of_idle hafter rfl events]
      simp only [Bool.true_or, if_true, hd]

/-- What a race ends in. What is observed before the change of view leaves no trace. -/
theorem race_eq (h : e.Consistent) (hmember : e.isMember = false) {r : Reconfigure}
    (hnew : e.isStale r = false) (hjoin : r.view.contains e.self = true)
    (hfresh : r.isFresh = false) (before after : List MoverEvent) :
    e.race before r after =
      { e with
        installed := some r
        state := if broughtBy r after then .ready else .syncing
        awaiting := if broughtBy r after then none else some r.view.id } := by
  have hidle := h.awaiting_of_ne_syncing (by rw [h.passive.2 hmember]; simp)
  have hjoined : (e.apply (.reconfigure r)).1 =
      { e with installed := some r, state := .syncing, awaiting := some r.view.id } := by
    show (e.reconfigure r).1 = _
    rw [reconfigure_eq h, hnew, hjoin, hmember, hfresh]
    rfl
  have hconsistent := h.apply (.reconfigure r)
  unfold race
  rw [observe_of_idle h hidle, hjoined] at *
  rw [observe_of_joined hconsistent rfl rfl (h.deferred hidle)]
  cases broughtBy r after with
  | false => rfl
  | true => rfl

/-! ## The order of a transfer and its view -/

/-- A replica that joins ends up ready exactly if a transfer for its view completes after the change
of view, and what completed before may as well have completed after exactly if one completes then
anyway. -/
theorem race_iff {self : NodeId} {config : ReplicationConfig} {store : Store}
    {inputs : List Input} (hrun : (start self config store).run inputs = e)
    (hmember : e.isMember = false) {r : Reconfigure}
    (hnew : ∀ installed ∈ e.installed, installed.view.id < r.view.id)
    (hjoin : r.view.contains e.self = true) (hversion : r.versionId ≠ 0)
    (hsize : 2 ≤ r.view.size) (before after : List MoverEvent) :
    ((e.race before r after).state = .ready ∧ (e.race before r after).awaiting = none ↔
        broughtBy r after = true) ∧
      (e.race before r after = e.race [] r (before ++ after) ↔
        (broughtBy r before = true → broughtBy r after = true)) := by
  have hconsistent : e.Consistent := hrun ▸ (consistent_start self config store).run inputs
  have hstale : e.isStale r = false := by
    unfold isStale
    cases hi : e.installed with
    | none => rfl
    | some installed => simpa using hnew installed (by rw [hi]; rfl)
  have hfresh : r.isFresh = false := by
    unfold Reconfigure.isFresh
    have hne : r.view.size ≠ 1 := by omega
    simp [hversion, hne]
  -- both orders end in what the events after the change of view make of it
  have hrace := race_eq hconsistent hmember hstale hjoin hfresh
  have happend : broughtBy r (before ++ after) = (broughtBy r before || broughtBy r after) :=
    List.any_append
  rw [hrace before after, hrace [] (before ++ after), happend]
  constructor
  · cases broughtBy r after with
    | false => simp
    | true => simp
  · cases broughtBy r after with
    | false =>
      cases broughtBy r before with
      | false => simp
      | true => simp
    | true => simp

/-- A member of the first view, and one that joins with the second. -/
def joining : Reconfigure :=
  ⟨.ofList 2 [⟨"a", 1, none⟩, ⟨"b", 1, none⟩], 2, 1, .full⟩

/-- The transfer that the second view calls for. -/
def joiningDone : MoverEvent := .transferComplete 1 ⟨"a", 1, none⟩ ⟨.full, 2, false⟩ 0 0

/-- The transfer that completes after the change of view makes the replica ready. -/
theorem race_iff_joining :
    ((start ⟨"b", 1, none⟩ {} (.ofList [])).race [] joining [joiningDone]).state = .ready := by
  have hrun : (start ⟨"b", 1, none⟩ {} (.ofList [])).run [] =
      start ⟨"b", 1, none⟩ {} (.ofList []) := rfl
  obtain ⟨hready, -⟩ := race_iff hrun rfl (fun _ h => (nomatch h)) (by decide : _ = _)
    (by decide : joining.versionId ≠ 0) (by decide : 2 ≤ joining.view.size) [] [joiningDone]
  exact (hready.2 (by decide)).1

/-- A transfer that completes before the change of view leaves the replica waiting. -/
theorem race_joining_early :
    ((start ⟨"b", 1, none⟩ {} (.ofList [])).race [joiningDone] joining []).state = .syncing ∧
      ((start ⟨"b", 1, none⟩ {} (.ofList [])).race [joiningDone] joining []).awaiting = some 2 ∧
      (start ⟨"b", 1, none⟩ {} (.ofList [])).race [joiningDone] joining [] ≠
        (start ⟨"b", 1, none⟩ {} (.ofList [])).race [] joining [joiningDone] := by
  refine ⟨by decide, by decide, fun h => ?_⟩
  have hstate := congrArg Engine.state h
  revert hstate
  decide

end Engine

end ReplicaRing
