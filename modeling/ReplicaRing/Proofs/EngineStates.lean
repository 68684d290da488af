import Mathlib.Tactic.Common
import ReplicaRing.Replication.Engine

/-!
The states of an engine and what belongs to them. An engine is passive exactly while it is no
member of its view, it is syncing exactly while it awaits a transfer, and only then does it hold
operations back. With that a change of view has four outcomes, `Engine.reconfigure_eq`, and a
completed transfer has two, `Engine.handleMover_eq`.
-/

namespace ReplicaRing

/-- Whether a configuration has nothing to bring to a member that joins. -/
def Reconfigure.isFresh (r : Reconfigure) : Bool := r.versionId == 0 || r.view.size == 1

/-- Whether an event ends the wait of a replica for the view and the range of a configuration. -/
def MoverEvent.completes (awaited : UInt64) (range : KeyRange) : MoverEvent → Bool
  | transferComplete _ _ metadata _ _ =>
    !(metadata.viewId < awaited : Bool) && metadata.range.covers range
  | sendFinished _ _ _ _ | sendFailed _ _ _ => false

namespace Engine

/-- Whether the engine is a member of the view it installed. -/
def isMember (e : Engine) : Bool := e.installed.any (·.view.contains e.self)

/-- Whether a configuration is not newer than the installed one. -/
def isStale (e : Engine) (r : Reconfigure) : Bool := e.installed.any (r.view.id ≤ ·.view.id)

/-- What belongs to the states of an engine. -/
structure Consistent (e : Engine) : Prop where
  passive : e.state = .passive ↔ e.isMember = false
  syncing : e.state = .syncing ↔ e.awaiting.isSome = true
  deferred : e.awaiting = none → e.deferred = []
  awaited : ∀ v, e.awaiting = some v → ∃ r, e.installed = some r ∧ v ≤ r.view.id

lemma consistent_start (self : NodeId) (config : ReplicationConfig) (store : Store) :
    (start self config store).Consistent :=
  ⟨by simp [start, isMember], by simp [start], fun _ => rfl, fun _ h => (nomatch h)⟩

variable {e : Engine}

/-- An engine that is not syncing awaits nothing. -/
lemma Consistent.awaiting_of_ne_syncing (h : e.Consistent) (hne : e.state ≠ .syncing) :
    e.awaiting = none := by
  by_contra hsome
  exact hne (h.syncing.2 (Option.isSome_iff_ne_none.2 hsome))

/-! ## Executing operations -/

/-- A call that is let through does what it was to do. -/
lemma eq_of_guard {α : Type} {store : Store} {call : StoreCall} {result a : α}
    (h : store.guard call result = .ok a) : a = result := by
  unfold Store.guard at h
  split at h
  · cases h
  · exact (Except.ok.inj h).symm

/-- What performing an operation may come to: what becomes of the store, the answer, and the change
of the size. -/
inductive Performed (e : Engine) : OperationKind → Store → Response → SizeDelta → Prop where
  | get (k : Key) : Performed e (.get k) e.store (.value (e.store.value? k)) .zero
  | put (k : Key) (v : Bytes) :
      Performed e (.put k v) (e.store.write k (some v)) .written (e.store.deltaOf k (some v))
  | delete (k : Key) :
      Performed e (.delete k) (e.store.write k none) .deleted (e.store.deltaOf k none)
  | rangeQuery {range limit items remaining}
      (hrest : ∀ rest ∈ remaining, ∃ k, rest = range.after k) :
      Performed e (.rangeQuery range limit) e.store (.range items remaining) .zero
  | other (name : String) (payload : Bytes) :
      Performed e (.other name payload) e.store (.unsupported name) .zero

lemma performed {kind : OperationKind} {store : Store} {response : Response} {delta : SizeDelta}
    (h : e.perform kind = .ok (store, response, delta)) :
    e.Performed kind store response delta := by
  cases kind with
  | get k =>
    simp only [perform] at h
    cases hget : e.store.get k with
    | error fault => rw [hget] at h; cases h
    | ok value =>
      rw [hget] at h
      cases h
      rw [eq_of_guard hget]
      exact .get k
  | put k v =>
    simp only [perform] at h
    cases hput : e.store.put k v with
    | error fault => rw [hput] at h; cases h
    | ok written =>
      rw [hput, eq_of_guard hput] at h
      cases h
      exact .put k v
  | delete k =>
    simp only [perform] at h
    cases hdelete : e.store.delete k with
    | error fault => rw [hdelete] at h; cases h
    | ok written =>
      rw [hdelete, eq_of_guard hdelete] at h
      cases h
      exact .delete k
  | rangeQuery range limit =>
    simp only [perform, Engine.rangeQuery, bind, Except.bind] at h
    split at h
    · cases h
    · rename_i hread
      split at hread
      · cases hread
      · cases hread
        cases h
        refine .rangeQuery fun rest hrest => ?_
        -- only where a page ended early something remains
        split at hrest
        · exact ⟨_, (Option.some.inj hrest).symm⟩
        · cases hrest
  | other name payload =>
    cases h
    exact .other name payload

/-- What may come of an operation that comes up for execution. One that is new and lies inside the
responsibility is performed, and remembered whether or not the store lets it through. -/
inductive Handled (e : Engine) (op : Operation) : Engine × Answer → Prop where
  | duplicate (hknown : e.executed.contains op.id = true) :
      Handled e op (e, .unchanged op.id .duplicate)
  | noView (hnew : e.executed.contains op.id = false) (hnone : e.installed = none) :
      Handled e op (e, unavailable op.id "no view installed")
  | outside {r} (hnew : e.executed.contains op.id = false) (hr : e.installed = some r)
      (hout : r.responsibility.admits op.target = false) :
      Handled e op (e, unavailable op.id "outside responsibility")
  | performed {r store response delta} (hnew : e.executed.contains op.id = false)
      (hr : e.installed = some r) (hin : r.responsibility.admits op.target = true)
      (hdone : e.perform op.kind = .ok (store, response, delta)) :
      Handled e op
        ({ e with executed := e.executed.insert op.id, store }, ⟨op.id, response, delta⟩)
  | failed {r fault} (hnew : e.executed.contains op.id = false)
      (hr : e.installed = some r) (hin : r.responsibility.admits op.target = true)
      (hfault : e.perform op.kind = .error fault) :
      Handled e op
        ({ e with executed := e.executed.insert op.id }, .unchanged op.id (.failed fault.message))

lemma handled (e : Engine) (op : Operation) : Handled e op (e.execute op) := by
  -- the memory is no matter to the store
  have hperform : perform { e with executed := e.executed.insert op.id } op.kind =
      e.perform op.kind := by
    cases op.kind <;> rfl
  unfold execute
  by_cases hknown : e.executed.contains op.id = true
  · rw [if_pos hknown]
    exact .duplicate hknown
  · rw [if_neg hknown]
    rw [Bool.not_eq_true] at hknown
    cases hr : e.installed with
    | none => exact .noView hknown hr
    | some r =>
      by_cases hin : r.responsibility.admits op.target = true
      · simp only [hin, Bool.not_true, Bool.false_eq_true, if_false, ← hr, hperform]
        cases hdone : e.perform op.kind with
        | error fault => exact .failed hknown hr hin hdone
        | ok result =>
          obtain ⟨store, response, delta⟩ := result
          exact .performed hknown hr hin hdone
      · rw [Bool.not_eq_true] at hin
        simp only [hin, Bool.not_false, if_true]
        exact .outside hknown hr hin

/-- Executing an operation concerns the store and the memory of executed operations alone. -/
lemma execute_rest (e : Engine) (op : Operation) :
    ∃ store executed, (e.execute op).1 = { e with store, executed } := by
  have h := e.handled op
  generalize e.execute op = result at h ⊢
  cases h with
  | _ => exact ⟨_, _, rfl⟩

lemma executeAll_rest (e : Engine) (ops : List Operation) :
    ∃ store executed, (e.executeAll ops).1 = { e with store, executed } := by
  induction ops generalizing e with
  | nil => exact ⟨_, _, rfl⟩
  | cons op ops ih =>
    obtain ⟨store, executed, hhead⟩ := e.execute_rest op
    obtain ⟨store', executed', htail⟩ := ih (e.execute op).1
    refine ⟨store', executed', ?_⟩
    show ((e.execute op).1.executeAll ops).1 = _
    rw [htail, hhead]

/-- What belongs to the states does not depend on the store and on what was executed. -/
lemma Consistent.with_store (h : e.Consistent) (store : Store)
    (executed : RecentSet OperationId) : ({ e with store, executed } : Engine).Consistent :=
  ⟨h.passive, h.syncing, h.deferred, h.awaited⟩

/-! ## Changing views -/

/-- A change of view concerns the configuration and the state of the engine alone. -/
lemma reconfigure_rest (e : Engine) (r : Reconfigure) :
    ∃ state installed awaiting deferred,
      (e.reconfigure r).1 = { e with state, installed, awaiting, deferred } := by
  -- a replica that is caught up by then is ready
  have hready : ∀ (e₁ : Engine) (c : Bool),
      ∃ state, (if c then e₁.markReady else (e₁, [])).1 = { e₁ with state } := by
    intro e₁ c
    cases c with
    | true => exact ⟨_, rfl⟩
    | false => exact ⟨_, rfl⟩
  -- a replica leaves, joins or stays
  have hmoved : ∀ (e₁ : Engine) (member wasMember : Bool), ∃ state awaiting deferred,
      (if !member then e₁.retire else if !wasMember then (e₁.join r, []) else (e₁, [])).1 =
        { e₁ with state, awaiting, deferred } := by
    intro e₁ member wasMember
    cases member with
    | false => exact ⟨_, _, _, rfl⟩
    | true =>
      cases wasMember with
      | false => exact ⟨_, _, _, rfl⟩
      | true => exact ⟨_, _, _, rfl⟩
  unfold reconfigure
  by_cases hstale : e.installed.any (r.view.id ≤ ·.view.id) = true
  · rw [if_pos hstale]
    exact ⟨_, _, _, _, rfl⟩
  · rw [if_neg hstale]
    simp only
    obtain ⟨_, _, _, hmove⟩ := hmoved { e with installed := some r } (r.view.contains e.self)
      (e.installed.any (·.view.contains e.self))
    rw [hmove]
    obtain ⟨_, hmark⟩ := hready _ _
    rw [hmark]
    exact ⟨_, _, _, _, rfl⟩

/-- A change of view is ignored, or the replica leaves, stays or joins. A replica that joins awaits
a transfer unless there is nothing to bring. -/
theorem reconfigure_eq (h : e.Consistent) (r : Reconfigure) :
    (e.reconfigure r).1 =
      if e.isStale r then e
      else if !r.view.contains e.self then
        { e with installed := some r, awaiting := none, deferred := [], state := .passive }
      else if e.isMember then { e with installed := some r }
      else
        { e with
          installed := some r
          state := if r.isFresh then .ready else .syncing
          awaiting := if r.isFresh then none else some r.view.id } := by
  by_cases hs : e.isStale r = true
  · have hs' : e.installed.any (r.view.id ≤ ·.view.id) = true := hs
    rw [if_pos hs]
    unfold reconfigure
    rw [if_pos hs']
  · have hs' : ¬ e.installed.any (r.view.id ≤ ·.view.id) = true := hs
    rw [if_neg hs]
    unfold reconfigure
    rw [if_neg hs']
    cases hmember : r.view.contains e.self with
    | false =>
      simp only [Bool.not_false, if_true, Bool.false_and, Bool.false_eq_true, if_false]
      rfl
    | true =>
      have hwas : e.installed.any (·.view.contains e.self) = e.isMember := rfl
      rw [hwas]
      cases hold : e.isMember with
      | true =>
        -- a member that syncs goes on awaiting, so it is not ready yet
        have hwait : (Decidable.decide (e.state = .syncing) && e.awaiting.isNone) = false := by
          cases hstate : Decidable.decide (e.state = .syncing) with
          | false => rfl
          | true =>
            have := h.syncing.1 (of_decide_eq_true hstate)
            simp [Option.isNone_eq_false_iff.2 this]
        simp only [Bool.not_true, Bool.false_eq_true, if_false, if_true, Bool.true_and, hwait]
      | false =>
        -- who joins is ready at once if there is nothing to bring
        have hpassive : e.state = .passive := h.passive.2 hold
        cases hfresh : r.isFresh with
        | false =>
          have hfresh' : (r.versionId == 0 || r.view.size == 1) = false := hfresh
          simp [join, hpassive, hfresh']
        | true =>
          have hfresh' : (r.versionId == 0 || r.view.size == 1) = true := hfresh
          simp [join, markReady, hpassive, hfresh']

lemma Consistent.reconfigure (h : e.Consistent) (r : Reconfigure) :
    (e.reconfigure r).1.Consistent := by
  rw [reconfigure_eq h]
  by_cases hs : e.isStale r = true
  · rw [if_pos hs]
    exact h
  · rw [if_neg hs]
    cases hmember : r.view.contains e.self with
    | false => exact ⟨by simp [isMember, hmember], by simp, by simp, by simp⟩
    | true =>
      rw [if_neg (by simp)]
      cases hold : e.isMember with
      | true =>
        rw [if_pos rfl]
        refine ⟨?_, h.syncing, h.deferred, fun v hv => ⟨r, rfl, ?_⟩⟩
        · have hstate : e.state ≠ .passive := fun hp => by simp [h.passive.1 hp] at hold
          simp [isMember, hmember, hstate]
        · -- the awaited view is no newer than the one before, which is older than this one
          obtain ⟨r₀, hr₀, hle⟩ := h.awaited v hv
          have hlt : ¬ r.view.id ≤ r₀.view.id := by simpa [isStale, hr₀] using hs
          exact UInt64.le_trans hle (UInt64.le_of_lt (UInt64.not_le.1 hlt))
      | false =>
        rw [if_neg (by simp)]
        have hawait : e.awaiting = none :=
          h.awaiting_of_ne_syncing (by rw [h.passive.2 hold]; simp)
        cases hfresh : r.isFresh with
        | true => exact ⟨by simp [isMember, hmember], by simp, fun _ => h.deferred hawait, by simp⟩
        | false =>
          refine ⟨by simp [isMember, hmember], by simp, by simp, fun v hv => ⟨r, rfl, ?_⟩⟩
          cases hv
          exact UInt64.le_refl _

/-! ## Applying the log -/

lemma Consistent.apply (h : e.Consistent) (value : LogValue) : (e.apply value).1.Consistent := by
  cases value with
  | noop => exact h
  | reconfigure r => exact h.reconfigure r
  | operation op =>
    unfold Engine.apply
    simp only
    split
    · -- an operation is held back only while a transfer is awaited
      rename_i hwait
      refine ⟨h.passive, h.syncing, fun hnone => ?_, h.awaited⟩
      rw [show e.awaiting = none from hnone] at hwait
      cases hwait
    · obtain ⟨store, executed, hexecute⟩ := e.execute_rest op
      rw [hexecute]
      exact h.with_store store executed

/-- Counting positions concerns the log alone. -/
lemma countApplied_rest (e : Engine) :
    ∃ next appliedSincePrune, e.countApplied.1 = { e with next, appliedSincePrune } := by
  unfold countApplied
  simp only
  split
  · exact ⟨_, _, rfl⟩
  · exact ⟨_, _, rfl⟩

/-- What belongs to the states does not depend on the place in the log. -/
lemma Consistent.with_log (h : e.Consistent) (next appliedSincePrune : Nat)
    (held : SortedMap Nat LogValue) :
    ({ e with next, appliedSincePrune, held } : Engine).Consistent :=
  ⟨h.passive, h.syncing, h.deferred, h.awaited⟩

/-! ## Completed transfers -/

/-- Whether an event of the mover ends the wait of an engine. -/
def completedBy (e : Engine) (event : MoverEvent) : Bool :=
  e.awaiting.any fun v => e.installed.any fun r => event.completes v r.responsibility

/-- An event of the mover is ignored, unless it is a completed transfer that ends a wait; then the
operations held back run and the replica is ready. -/
theorem handleMover_eq (h : e.Consistent) (event : MoverEvent) :
    (e.handleMover event).1 =
      if e.completedBy event then
        { (executeAll { e with awaiting := none, deferred := [] } e.deferred).1 with
          state := .ready }
      else e := by
  unfold completedBy
  cases event with
  | sendFinished session destination items bytes =>
    simp [MoverEvent.completes, handleMover]
  | sendFailed session destination reason =>
    simp [MoverEvent.completes, handleMover]
  | transferComplete session source metadata items bytes =>
    unfold handleMover
    cases ha : e.awaiting with
    | none => rfl
    | some v =>
      obtain ⟨r, hr, -⟩ := h.awaited v ha
      have hcovers : (e.installed.any fun r => metadata.range.covers r.responsibility) =
          metadata.range.covers r.responsibility := by rw [hr]; rfl
      have hcompletes : (e.installed.any fun r =>
          MoverEvent.completes v r.responsibility
            (.transferComplete session source metadata items bytes)) =
          (!(metadata.viewId < v : Bool) && metadata.range.covers r.responsibility) := by
        rw [hr]
        rfl
      -- what was held back runs before the state changes
      have hstate : (executeAll { e with awaiting := none, deferred := [] } e.deferred).1.state =
          .syncing := by
        obtain ⟨store, executed, hexecute⟩ :=
          executeAll_rest { e with awaiting := none, deferred := [] } e.deferred
        rw [hexecute]
        exact h.syncing.2 (by rw [ha]; rfl)
      simp only [hcovers, Option.any_some, hcompletes]
      generalize executeAll { e with awaiting := none, deferred := [] } e.deferred = done
        at hstate ⊢
      by_cases hlt : metadata.viewId < v
      · simp [hlt]
      · cases hc : metadata.range.covers r.responsibility with
        | false => simp
        | true => simp [hlt, hstate, markReady]

lemma Consistent.handleMover (h : e.Consistent) (event : MoverEvent) :
    (e.handleMover event).1.Consistent := by
  rw [handleMover_eq h]
  cases hdone : e.completedBy event with
  | false => exact h
  | true =>
    -- the replica is a member, since it awaited a transfer
    have hstate : e.state = .syncing := by
      refine h.syncing.2 ?_
      unfold completedBy at hdone
      cases ha : e.awaiting with
      | none => simp [ha] at hdone
      | some v => rfl
    have hmember : e.isMember ≠ false := fun hnot => by
      rw [h.passive.2 hnot] at hstate
      cases hstate
    obtain ⟨store, executed, hexecute⟩ :=
      executeAll_rest { e with awaiting := none, deferred := [] } e.deferred
    rw [if_pos rfl, hexecute]
    refine ⟨⟨fun hp => (nomatch hp), fun hnot => absurd hnot hmember⟩, by simp, fun _ => rfl,
      fun _ h => (nomatch h)⟩

end Engine

end ReplicaRing
