import Mathlib.Data.List.Induction
import ReplicaRing.Proofs.Announcements
import ReplicaRing.Proofs.RangePages
import ReplicaRing.Proofs.TransferDuties

/-!
Which keys an engine has been supplied with. A member is supplied with the responsibility of each
fresh configuration that it goes over to, and with the range of each transfer that it accepts;
leaving the view it loses all. A replica that becomes ready has its whole responsibility by then.
One that is ready already and goes over to a configuration that is not fresh stays ready whatever
the configuration takes in, so being ready means being supplied exactly in the runs in which no
such configuration takes in more than was supplied before, `Engine.ready_supplied_iff`.
-/

namespace ReplicaRing

namespace Engine

/-! ## What is supplied -/

/-- The range that an event of the mover brings. -/
def brought : MoverEvent → List KeyRange
  | .transferComplete _ _ metadata _ _ => [metadata.range]
  | .sendFinished _ _ _ _ | .sendFailed _ _ _ => []

/-- The ranges an engine is supplied with once it has gone over to a configuration, or ignored
it. -/
def supplyOfChange (e : Engine) (supply : List KeyRange) (r : Reconfigure) : List KeyRange :=
  if e.isStale r then supply
  else if !r.view.contains e.self then []
  else if r.isFresh then supply ++ [r.responsibility]
  else supply

/-- The ranges an engine is supplied with after a step. -/
def supplyAt (e : Engine) (supply : List KeyRange) : Step → List KeyRange
  | .value (.reconfigure r) | .bootstrap r => e.supplyOfChange supply r
  | .mover event => if e.completedBy event then supply ++ brought event else supply
  | .value .noop | .value (.operation _) | .hold _ _ | .oracle _ | .page _ => supply

/-- The ranges an engine is supplied with after steps that it takes one after the other. -/
def supplyAlong (e : Engine) (supply : List KeyRange) : List Step → List KeyRange
  | [] => supply
  | s :: rest => (e.step s).supplyAlong (e.supplyAt supply s) rest

/-- Whether one of the ranges holds a key. -/
def Supplied (supply : List KeyRange) (k : Key) : Prop := ∃ range ∈ supply, range.contains k = true

instance (supply : List KeyRange) (k : Key) : Decidable (Supplied supply k) :=
  inferInstanceAs (Decidable (∃ range ∈ supply, range.contains k = true))

/-- Every key of the responsibility that a ready engine has installed is supplied. -/
def Stocked (e : Engine) (supply : List KeyRange) : Prop :=
  ∀ r, e.state = .ready → e.installed = some r → ∀ k, r.responsibility.contains k = true →
    Supplied supply k

/-- A ready engine goes over to a configuration that is not fresh and stays a member. -/
structure StaysReady (e : Engine) (r : Reconfigure) : Prop where
  ready : e.state = .ready
  newer : e.isStale r = false
  stays : r.view.contains e.self = true
  filled : r.isFresh = false

variable {e : Engine} {supply : List KeyRange}

lemma supplyAlong_append (e : Engine) (supply : List KeyRange) (steps more : List Step) :
    e.supplyAlong supply (steps ++ more) =
      (e.follow steps).supplyAlong (e.supplyAlong supply steps) more := by
  induction steps generalizing e supply with
  | nil => rfl
  | cons s rest ih => exact ih (e.step s) (e.supplyAt supply s)

/-! ## Being ready -/

/-- Being ready is a matter of what is installed and awaited. -/
lemma Stocked.congr {e' : Engine} (h : e.Consistent) (h' : e'.Consistent)
    (hself : e'.self = e.self) (hinstalled : e'.installed = e.installed)
    (hawaiting : e'.awaiting = e.awaiting) (hstocked : e.Stocked supply) : e'.Stocked supply := by
  intro r hready hr
  have hmember : e'.isMember = e.isMember := by
    unfold isMember
    rw [hself, hinstalled]
  rw [h'.ready_iff, hmember, hawaiting, ← h.ready_iff] at hready
  exact hstocked r hready (hinstalled ▸ hr)

/-! ## Changes of view -/

lemma Supplied.append_left {k : Key} (h : Supplied supply k) (more : List KeyRange) :
    Supplied (supply ++ more) k := by
  obtain ⟨range, hrange, hk⟩ := h
  exact ⟨range, List.mem_append_left more hrange, hk⟩

lemma Supplied.of_last {range : KeyRange} {k : Key} (h : range.contains k = true) :
    Supplied (supply ++ [range]) k :=
  ⟨range, List.mem_append_right supply (List.mem_singleton_self range), h⟩

/-- After a change of view a ready engine is supplied, if what a ready engine stayed ready for was
supplied before. -/
lemma Stocked.reconfigure (h : e.Consistent) (hstocked : e.Stocked supply) {r : Reconfigure}
    (hkept : e.StaysReady r → ∀ k, r.responsibility.contains k = true → Supplied supply k) :
    (e.reconfigure r).1.Stocked (e.supplyOfChange supply r) := by
  rw [reconfigure_eq h]
  unfold supplyOfChange
  cases hstale : e.isStale r with
  | true => exact hstocked
  | false =>
    simp only [Bool.false_eq_true, if_false]
    cases hstays : r.view.contains e.self with
    | false => exact fun r' hready => (nomatch hready)
    | true =>
      simp only [Bool.not_true, Bool.false_eq_true, if_false]
      cases hfresh : r.isFresh with
      | true =>
        -- a fresh configuration supplies its own responsibility
        intro r' _ hr' k hk
        have heq : some r = some r' := by
          split at hr'
          · exact hr'
          · exact hr'
        cases heq
        exact .of_last hk
      | false =>
        by_cases hmember : e.isMember = true
        · simp only [if_pos hmember]
          intro r' hready hr' k hk
          cases hr'
          exact hkept ⟨hready, hstale, hstays, hfresh⟩ k hk
        · -- who joins has to wait
          simp only [if_neg hmember]
          exact fun r' hready => (nomatch hready)

/-! ## Transfers -/

/-- A transfer that ends the wait brings every key of the responsibility. -/
lemma supplied_of_completedBy {event : MoverEvent} (hdone : e.completedBy event = true)
    {r : Reconfigure} (hr : e.installed = some r) {k : Key}
    (hk : r.responsibility.contains k = true) : Supplied (supply ++ brought event) k := by
  unfold completedBy at hdone
  cases ha : e.awaiting with
  | none => simp [ha] at hdone
  | some v =>
    rw [ha, hr] at hdone
    cases event with
    | sendFinished session destination items bytes => cases hdone
    | sendFailed session destination reason => cases hdone
    | transferComplete session source metadata items bytes =>
      obtain ⟨-, hcovers⟩ := Bool.and_eq_true_iff.1 hdone
      exact .of_last (KeyRange.contains_of_covers hcovers hk)

lemma Stocked.handleMover (h : e.Consistent) (hstocked : e.Stocked supply) (event : MoverEvent) :
    (e.handleMover event).1.Stocked (e.supplyAt supply (.mover event)) := by
  have hsupply : e.supplyAt supply (.mover event) =
      if e.completedBy event then supply ++ brought event else supply := rfl
  cases hdone : e.completedBy event with
  | false =>
    rw [hsupply, handleMover_eq h, if_neg (by simp [hdone]), if_neg (by simp [hdone])]
    exact hstocked
  | true =>
    intro r _ hr k hk
    have hinstalled := (standsAs_mover h event).installed
    rw [if_pos hdone] at hinstalled
    rw [hsupply, if_pos hdone]
    exact supplied_of_completedBy hdone (hinstalled ▸ hr) hk

/-! ## Runs -/

lemma supplyAt_change {s : Step} {r : Reconfigure} (hs : s.changes = [r]) :
    e.supplyAt supply s = e.supplyOfChange supply r := by
  cases s with
  | bootstrap r' =>
    cases hs
    rfl
  | value value =>
    cases value with
    | reconfigure r' =>
      cases hs
      rfl
    | noop => cases hs
    | operation op => cases hs
  | hold position value => cases hs
  | oracle event => cases hs
  | mover event => cases hs
  | page items => cases hs

lemma supplyAt_quiet {s : Step} (hchanges : s.changes = []) (hmover : ∀ event, s ≠ .mover event) :
    e.supplyAt supply s = supply := by
  cases s with
  | bootstrap r => cases hchanges
  | mover event => exact absurd rfl (hmover event)
  | value value =>
    cases value with
    | reconfigure r => cases hchanges
    | noop => rfl
    | operation op => rfl
  | hold position value => rfl
  | oracle event => rfl
  | page items => rfl

/-- A step keeps a ready engine supplied, unless it is a change of view that the engine stays ready
for and that takes in what was not supplied. -/
theorem Stocked.step (h : e.Consistent) (hstocked : e.Stocked supply) {s : Step}
    (hkept : ∀ r, s.changes = [r] → e.StaysReady r → ∀ k, r.responsibility.contains k = true →
      Supplied supply k) : (e.step s).Stocked (e.supplyAt supply s) := by
  rcases s.kinds with ⟨r, hr, -, -⟩ | ⟨op, rfl⟩ | ⟨event, rfl⟩ | ⟨hchanges, hoperations, hmover⟩
  · have hs := standsAs_change h hr
    rw [supplyAt_change hr]
    exact (hstocked.reconfigure h (hkept r hr)).congr (h.reconfigure r) (h.step s) hs.self
      hs.installed hs.awaiting
  · -- an operation that is held back leaves the configuration and the wait alone
    have hs := e.standsAs_operation op
    refine hstocked.congr h (h.step _) (self_step h _) ?_ ?_
    · rw [hs.installed]
      split
      · rfl
      · rfl
    · rw [hs.awaiting]
      split
      · rfl
      · rfl
  · exact hstocked.handleMover h event
  · have hs := standsAs_quiet (e := e) hchanges hoperations hmover
    rw [supplyAt_quiet hchanges hmover]
    exact hstocked.congr h (h.step s) hs.self hs.installed hs.awaiting

/-- A change of view that a ready engine stays ready for supplies nothing, so the engine is supplied
afterwards only if it was before. -/
lemma StaysReady.supplied (h : e.Consistent) {s : Step} {r : Reconfigure} (hs : s.changes = [r])
    (hstays : e.StaysReady r) (hafter : (e.step s).Stocked (e.supplyAt supply s)) {k : Key}
    (hk : r.responsibility.contains k = true) : Supplied supply k := by
  have hmember : e.isMember = true := (h.ready_iff.1 hstays.ready).2
  have hmove : (e.reconfigure r).1 = { e with installed := some r } := by
    rw [reconfigure_eq h, hstays.newer, hstays.stays, if_neg (by simp), if_neg (by simp),
      if_pos hmember]
  have hstands := standsAs_change h hs
  rw [hmove] at hstands
  have hsupply : e.supplyAt supply s = supply := by
    rw [supplyAt_change hs]
    unfold supplyOfChange
    rw [hstays.newer, hstays.stays, hstays.filled]
    rfl
  have hready : (e.step s).state = .ready := by
    rw [(h.step s).ready_iff, hstands.awaiting]
    refine ⟨(h.ready_iff.1 hstays.ready).1, ?_⟩
    unfold isMember
    rw [hstands.installed, hstands.self]
    exact hstays.stays
  rw [← hsupply]
  exact hafter r hready hstands.installed k hk

/-- The ranges that an engine which starts anew is supplied with in the course of some steps. -/
def suppliedIn (self : NodeId) (config : ReplicationConfig) (store : Store)
    (steps : List Step) : List KeyRange :=
  (start self config store).supplyAlong [] steps

/-- In the course of a run a ready engine is supplied with every key of its responsibility exactly
if no change of view that a ready engine stays ready for takes in a key that was not supplied
before. -/
theorem ready_supplied_iff (self : NodeId) (config : ReplicationConfig) (store : Store)
    (inputs : List Input) :
    (∀ front, front <+: (start self config store).stepsOfAll inputs →
        ((start self config store).follow front).Stocked (suppliedIn self config store front)) ↔
      ∀ front s r k, front ++ [s] <+: (start self config store).stepsOfAll inputs →
        s.changes = [r] → ((start self config store).follow front).StaysReady r →
          r.responsibility.contains k = true →
            Supplied (suppliedIn self config store front) k := by
  have hconsistent := fun front =>
    (consistent_start self config store).follow front
  have hsnoc : ∀ front s, suppliedIn self config store (front ++ [s]) =
      ((start self config store).follow front).supplyAt (suppliedIn self config store front) s :=
    fun front s => supplyAlong_append _ _ front [s]
  constructor
  · intro hstocked front s r k hprefix hr hstays hk
    have hafter := hstocked (front ++ [s]) hprefix
    rw [hsnoc, follow_append] at hafter
    exact hstays.supplied (hconsistent front) hr hafter hk
  · intro hkept front
    induction front using List.reverseRecOn with
    | nil => exact fun _ r hready => (nomatch hready)
    | append_singleton front s ih =>
      intro hprefix
      have hbefore := ih ((List.prefix_append front [s]).trans hprefix)
      rw [hsnoc, follow_append]
      exact hbefore.step (hconsistent front) fun r hr hstays k hk =>
        hkept front s r k hprefix hr hstays hk

/-- A replica that is ready for the keys below "m" goes over to a configuration with every key and
goes on being ready, although nothing brought it the keys from "m" on. -/
theorem ready_unsupplied :
    let e := start (named "a") {} (.ofList [])
    let inputs : List Input := [.bootstrap { pair with responsibility := .halfOpen [] [0x6d] },
      .decided 1 (.reconfigure (ringOf 2 1 ["a", "b"]))]
    (e.run inputs).state = .ready ∧
      (e.run inputs).installed = some (ringOf 2 1 ["a", "b"]) ∧
      (ringOf 2 1 ["a", "b"]).responsibility.contains [0x6d] = true ∧
      ¬ Supplied (suppliedIn (named "a") {} (.ofList []) (e.stepsOfAll inputs)) [0x6d] := by
  decide +kernel

end Engine

end ReplicaRing
