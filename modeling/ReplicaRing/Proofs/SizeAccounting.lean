import Mathlib.Algebra.BigOperators.Group.List.Basic
import Mathlib.Algebra.Group.Prod
import Mathlib.Algebra.Group.Int.Defs
import Mathlib.Tactic.Abel
import ReplicaRing.Proofs.EngineLink
import ReplicaRing.Proofs.Tombstones

/-!
The size of a store, as a router reports it. An operation that is executed is answered with the
change that it makes to the size of the store, `Execution.delta_answer`, and nothing else that an
engine answers brings a change. The answers wait in the queue of events, a router that takes one
counts its change up, and a tick reports the count and begins a new one; answers of peers do not
count. So unless a count leaves 64 bits, what was reported, what was counted up since and what the
waiting events bring is just the change of the store, `EngineLink.sizes_add_up`.
-/

namespace ReplicaRing

/-! ## Sizes -/

/-- Some bytes and some keys are in the bounds of 64 bits. -/
def Fits (size : Int × Int) : Prop :=
  (-2 ^ 63 ≤ size.1 ∧ size.1 < 2 ^ 63) ∧ -2 ^ 63 ≤ size.2 ∧ size.2 < 2 ^ 63

instance (size : Int × Int) : Decidable (Fits size) := inferInstanceAs (Decidable (_ ∧ _))

namespace SizeDelta

/-- The bytes and the keys of a change, as integers without bounds. -/
def whole (d : SizeDelta) : Int × Int := (d.bytes.toInt, d.keys.toInt)

lemma whole_zero : zero.whole = 0 := rfl

/-- What some changes come to. -/
def total (deltas : List SizeDelta) : Int × Int := (deltas.map whole).sum

lemma total_nil : total [] = 0 := rfl

lemma total_cons (d : SizeDelta) (rest : List SizeDelta) :
    total (d :: rest) = d.whole + total rest := List.sum_cons

lemma total_append (deltas more : List SizeDelta) :
    total (deltas ++ more) = total deltas + total more := by
  unfold total
  rw [List.map_append, List.sum_append]

lemma total_eq_zero {deltas : List SizeDelta} (h : ∀ d ∈ deltas, d = zero) : total deltas = 0 := by
  apply List.sum_eq_zero
  intro size hsize
  obtain ⟨d, hd, rfl⟩ := List.mem_map.1 hsize
  rw [h d hd]
  rfl

lemma fits_whole (d : SizeDelta) : Fits d.whole :=
  ⟨⟨d.bytes.le_toInt, d.bytes.toInt_lt⟩, d.keys.le_toInt, d.keys.toInt_lt⟩

/-- A sum that stays in bounds is the sum of the integers. -/
lemma whole_add {a b : SizeDelta} (h : Fits (a.whole + b.whole)) :
    (a + b).whole = a.whole + b.whole := by
  obtain ⟨⟨hbytes, hbytes'⟩, hkeys, hkeys'⟩ := h
  show ((a.bytes + b.bytes).toInt, (a.keys + b.keys).toInt) = _
  rw [Int64.toInt_add, Int64.toInt_add, Int.bmod_eq_of_le hbytes hbytes',
    Int.bmod_eq_of_le hkeys hkeys']
  rfl

end SizeDelta

/-- The bytes and the keys of the live entries. -/
def Store.extent (s : Store) : Int × Int := (s.liveBytes, s.liveCount)

namespace LiveMap

lemma change_self (m : LiveMap) : change m m = .zero := by
  unfold change
  rw [Int.sub_self, Int.sub_self]
  rfl

/-- A change that stays in bounds is the difference of the extents. -/
lemma whole_change {s s' : Store} (h : Fits (s'.extent - s.extent)) :
    (change s.visible s'.visible).whole = s'.extent - s.extent := by
  obtain ⟨⟨hbytes, hbytes'⟩, hkeys, hkeys'⟩ := h
  have hchange : change s.visible s'.visible =
      ⟨Int64.ofInt (s'.extent - s.extent).1, Int64.ofInt (s'.extent - s.extent).2⟩ := by
    unfold change
    rw [← s.liveBytes_eq, ← s'.liveBytes_eq, ← s.liveCount_eq, ← s'.liveCount_eq]
    rfl
  rw [hchange]
  show (Int64.toInt _, Int64.toInt _) = _
  rw [Int64.toInt_ofInt_of_le hbytes hbytes', Int64.toInt_ofInt_of_le hkeys hkeys']

end LiveMap

/-! ## Executions -/

namespace Engine

variable {e : Engine}

/-- What an operation is answered with is the change that it makes to what clients see. -/
lemma delta_perform {kind : OperationKind} {store : Store} {response : Response}
    {delta : SizeDelta} (h : e.perform kind = .ok (store, response, delta)) :
    delta = LiveMap.change e.store.visible store.visible := by
  cases performed h with
  | put k v => exact e.store.deltaOf_eq k (some v)
  | delete k => exact e.store.deltaOf_eq k none
  | _ => exact (LiveMap.change_self _).symm

end Engine

namespace Execution

/-- How far the store grows. -/
def gain (x : Execution) : Int × Int := x.after.store.extent - x.before.store.extent

/-- An execution is answered with the change that it makes to what clients see. -/
theorem delta_answer (x : Execution) :
    x.answer.delta = LiveMap.change x.before.store.visible x.after.store.visible := by
  have hx := x.handled
  generalize x.after = after, x.answer = answer at hx ⊢
  cases hx with
  | performed hnew hr hin hdone => exact Engine.delta_perform hdone
  | _ =>
    -- what is not done, a call that fails among it, leaves the store as it was
    exact (LiveMap.change_self _).symm

lemma whole_answer {x : Execution} (h : Fits x.gain) : x.answer.delta.whole = x.gain := by
  rw [delta_answer]
  exact LiveMap.whole_change h

end Execution

namespace Engine

variable {e : Engine}

/-- How far the store grows by some executions. -/
def gained (xs : List Execution) : Int × Int := (xs.map Execution.gain).sum

/-- The change that the answers to some executions tell of. -/
lemma total_executions {xs : List Execution} (h : ∀ x ∈ xs, Fits x.gain) :
    SizeDelta.total (xs.map fun x => x.answer.delta) = gained xs := by
  unfold SizeDelta.total gained
  rw [List.map_map]
  congr 1
  apply List.map_congr_left
  intro x hx
  exact Execution.whole_answer (h x hx)

/-- The changes that the answers among some outputs tell of. -/
def deltasIn (out : List Output) : List SizeDelta := (answersIn out).map Answer.delta

lemma deltasIn_append (out more : List Output) :
    deltasIn (out ++ more) = deltasIn out ++ deltasIn more := by
  unfold deltasIn
  rw [answersIn_append, List.map_append]

/-- What a step says tells how far the store grows by what is executed. Operations that are given up
change nothing. -/
lemma total_outputAt {s : Step} (h : ∀ x ∈ e.executionsAt s, Fits x.gain) :
    SizeDelta.total (deltasIn (e.outputAt s)) = gained (e.executionsAt s) := by
  unfold deltasIn
  rw [answersIn_outputAt, List.map_append, List.map_map, List.map_map, SizeDelta.total_append]
  have habandoned : SizeDelta.total ((e.abandonedAt s).map (Answer.delta ∘ giveUp)) = 0 := by
    apply SizeDelta.total_eq_zero
    intro d hd
    obtain ⟨op, -, rfl⟩ := List.mem_map.1 hd
    rfl
  rw [habandoned, add_zero]
  exact total_executions h

/-- Executions that follow each other take the store from the first to the last. -/
lemma extent_executeAll (e : Engine) (ops : List Operation) :
    (e.executeAll ops).1.store.extent = e.store.extent + gained (e.executionsOf ops) := by
  induction ops generalizing e with
  | nil => exact (add_zero _).symm
  | cons op rest ih =>
    have hfirst : gained (e.executionsOf (op :: rest)) =
        ((e.execute op).1.store.extent - e.store.extent) +
          gained ((e.execute op).1.executionsOf rest) := List.sum_cons
    show ((e.execute op).1.executeAll rest).1.store.extent = _
    rw [ih, hfirst]
    abel

/-- Whether a step writes what others say. -/
def Step.isPage : Step → Bool
  | .page _ => true
  | .hold _ _ | .value _ | .bootstrap _ | .oracle _ | .mover _ => false

/-- Unless it writes a page, a step leaves the store where the operations that it brings up do. -/
lemma store_step (h : e.Consistent) {s : Step} (hown : s.isPage = false) :
    ∃ e' ops, e'.store = e.store ∧ e.executionsAt s = executionsOf e' ops ∧
      (e.step s).store = (executeAll e' ops).1.store := by
  have hcount : ∀ e' : Engine, e'.countApplied.1.store = e'.store := by
    intro e'
    obtain ⟨_, _, hcount⟩ := e'.countApplied_rest
    rw [hcount]
  -- most steps bring up nothing
  have hnone : e.executionsAt s = [] → (e.step s).store = e.store →
      ∃ e' ops, e'.store = e.store ∧ e.executionsAt s = executionsOf e' ops ∧
        (e.step s).store = (executeAll e' ops).1.store :=
    fun hnil hstore => ⟨e, [], rfl, hnil, hstore⟩
  cases s with
  | hold position value => exact hnone rfl rfl
  | page items => cases hown
  | oracle event =>
    cases event with
    | trust leader view => exact hnone rfl rfl
    | livenessChanged leader => exact hnone rfl rfl
  | bootstrap r =>
    obtain ⟨_, _, _, _, hmove⟩ := e.reconfigure_rest r
    apply hnone rfl
    show (e.reconfigure r).1.store = e.store
    rw [hmove]
  | mover event =>
    have hstep : (e.step (.mover event)).store = (e.handleMover event).1.store := rfl
    rw [handleMover_eq h] at hstep
    rw [executionsAt_mover] at hnone ⊢
    by_cases hdone : e.completedBy event = true
    · rw [if_pos hdone] at hstep ⊢
      exact ⟨e.released, e.deferred, rfl, rfl, hstep⟩
    · rw [if_neg hdone] at hstep hnone ⊢
      exact hnone rfl hstep
  | value value =>
    have hstep : (e.step (.value value)).store = (e.taken.apply value).1.store := hcount _
    cases value with
    | noop => exact hnone rfl hstep
    | reconfigure r =>
      obtain ⟨_, _, _, _, hmove⟩ := e.taken.reconfigure_rest r
      apply hnone rfl
      rw [hstep]
      show (e.taken.reconfigure r).1.store = e.store
      rw [hmove]
      rfl
    | operation op =>
      have hwaiting : e.taken.awaiting = e.awaiting := rfl
      rw [executionsAt_operation] at hnone ⊢
      unfold apply at hstep
      simp only [hwaiting] at hstep
      by_cases hwait : e.awaiting.isSome = true
      · rw [if_pos hwait] at hstep hnone ⊢
        exact hnone rfl hstep
      · rw [if_neg hwait] at hstep ⊢
        exact ⟨e.taken, [op], rfl, rfl, hstep⟩

/-- So it grows by what is executed. -/
lemma extent_step (h : e.Consistent) {s : Step} (hown : s.isPage = false) :
    (e.step s).store.extent = e.store.extent + gained (e.executionsAt s) := by
  obtain ⟨e', ops, hbefore, hexecutions, hafter⟩ := store_step h hown
  rw [hafter, hexecutions, ← hbefore]
  exact e'.extent_executeAll ops

/-- Along some steps the store grows by what their answers tell of. -/
lemma extent_follow (h : e.Consistent) {steps : List Step} (hown : ∀ s ∈ steps, s.isPage = false)
    (hfits : ∀ x ∈ e.executionsAlong steps, Fits x.gain) :
    (e.follow steps).store.extent =
      e.store.extent + SizeDelta.total (deltasIn (e.outputAlong steps)) := by
  induction steps generalizing e with
  | nil => exact (add_zero _).symm
  | cons s rest ih =>
    have hnow : ∀ x ∈ e.executionsAt s, Fits x.gain :=
      fun x hx => hfits x (List.mem_append_left _ hx)
    have hlater : ∀ x ∈ (e.step s).executionsAlong rest, Fits x.gain :=
      fun x hx => hfits x (List.mem_append_right _ hx)
    have hrest := ih (h.step s) (fun s' hs' => hown s' (List.mem_cons_of_mem _ hs')) hlater
    show ((e.step s).follow rest).store.extent =
      e.store.extent + SizeDelta.total (deltasIn (e.outputAt s ++ (e.step s).outputAlong rest))
    rw [hrest, extent_step h (hown s List.mem_cons_self), deltasIn_append, SizeDelta.total_append,
      total_outputAt hnow, add_assoc]

/-- Whether others write to the store of an engine on an arrival: a page is written, or the store
is another. -/
def Arrival.isForeign : Arrival → Bool
  | .store _ | .input (.page _) => true
  | .input (.decided _ _) | .input (.bootstrap _) | .input (.oracle _) | .input (.mover _)
  | .submit _ | .propose _ => false

lemma isPage_of_mem_stepsOf {input : Input} (hown : (Arrival.input input).isForeign = false)
    {s : Step} (hs : s ∈ e.stepsOf input) : s.isPage = false := by
  cases input with
  | page items => cases hown
  | decided position value =>
    simp only [stepsOf] at hs
    split at hs
    · cases hs
    · rcases List.mem_cons.1 hs with rfl | hvalue
      · rfl
      · obtain ⟨value', -, rfl⟩ := List.mem_map.1 hvalue
        rfl
  | bootstrap r =>
    cases List.mem_singleton.1 hs
    rfl
  | oracle event =>
    cases List.mem_singleton.1 hs
    rfl
  | mover event =>
    cases List.mem_singleton.1 hs
    rfl

/-- On an arrival the store grows by what the answers to it tell of, if nobody else writes. -/
theorem extent_react (h : e.Consistent) {a : Arrival} (hown : a.isForeign = false)
    (hfits : ∀ x ∈ e.executionsAlong (e.stepsOn a), Fits x.gain) :
    (e.react a).store.extent = e.store.extent + SizeDelta.total (deltasIn (e.outputOn a)) := by
  cases a with
  | store store => cases hown
  | propose r =>
    have hnone : SizeDelta.total (deltasIn (e.propose r)) = 0 := by
      unfold propose
      split
      · rfl
      · rfl
    show e.store.extent = e.store.extent + SizeDelta.total (deltasIn (e.propose r))
    rw [hnone, add_zero]
  | submit op =>
    have hnone : SizeDelta.total (deltasIn (e.submit op)) = 0 := by
      unfold submit
      split
      · rfl
      · rfl
    show e.store.extent = e.store.extent + SizeDelta.total (deltasIn (e.submit op))
    rw [hnone, add_zero]
  | input input =>
    have hrun := e.run_eq [input]
    rw [stepsOfAll, stepsOfAll, List.append_nil] at hrun
    have hdeltas : deltasIn (e.outputOn (.input input)) =
        deltasIn (e.outputAlong (e.stepsOf input)) :=
      congrArg (List.map Answer.delta) (e.answersOn_eq (.input input))
    have hafter : e.react (.input input) = e.follow (e.stepsOf input) := hrun
    rw [hdeltas, hafter]
    exact extent_follow h (fun s hs => isPage_of_mem_stepsOf hown hs) hfits

end Engine

/-- The change that an event brings. -/
def EngineEvent.delta : EngineEvent → SizeDelta
  | .response answer => answer.delta
  | .viewInstalled _ _ _ | .synced _ => .zero

/-- Events bring the changes that the answers among them tell of. -/
lemma total_eventsIn (out : List Engine.Output) :
    SizeDelta.total ((Engine.eventsIn out).map EngineEvent.delta) =
      SizeDelta.total (Engine.deltasIn out) := by
  induction out with
  | nil => rfl
  | cons first rest ih =>
    have hevents := Engine.eventsIn_append [first] rest
    have hdeltas := Engine.deltasIn_append [first] rest
    rw [List.singleton_append] at hevents hdeltas
    have hfirst : SizeDelta.total ((Engine.eventsIn [first]).map EngineEvent.delta) =
        SizeDelta.total (Engine.deltasIn [first]) := by
      cases first with
      | event event =>
        cases event with
        | response answer => rfl
        | viewInstalled view range state => rfl
        | synced v => rfl
      | log request => rfl
      | install view => rfl
      | mover command => rfl
    rw [hevents, hdeltas, List.map_append, SizeDelta.total_append, SizeDelta.total_append, hfirst,
      ih]

/-! ## The router -/

namespace Router

/-- The report that an output is. -/
def Output.report? : Output → Option StatsReport
  | .report p => some p
  | .submit _ | .send _ | .answer _ _ => none

/-- The reports among some outputs. -/
def reportsIn (out : List Output) : List StatsReport := out.filterMap Output.report?

variable {r : Router}

/-- Nothing is reported, and the count of changes goes on from where it was. -/
structure Counting (delta : SizeDelta) (result : Router × List Output) : Prop where
  delta : result.1.stats.delta = delta
  silent : reportsIn result.2 = []

lemma Counting.total {delta : SizeDelta} {result : Router × List Output}
    (h : Counting delta result) :
    SizeDelta.total ((reportsIn result.2).map StatsReport.delta) + result.1.stats.delta.whole =
      delta.whole := by
  rw [h.silent, h.delta]
  exact zero_add _

lemma reportsIn_deliver (r : Router) (reply : ReplyTo) (a : Answer) :
    reportsIn [r.deliver reply a] = [] := by
  cases reply with
  | caller ticket => rfl
  | remote n => rfl

lemma counting_request (r : Router) (op : Operation) (reply : ReplyTo) :
    Counting r.stats.delta (r.request op reply) := by
  have houtcome := r.requested op reply
  generalize r.request op reply = result at houtcome ⊢
  cases houtcome with
  | dropped hwaits => exact ⟨rfl, rfl⟩
  | refused reason hnew => exact ⟨rfl, r.reportsIn_deliver _ _⟩
  | submitted paginate hnew => exact ⟨rfl, rfl⟩
  | forwarded peer draws hnew howner => exact ⟨rfl, rfl⟩

lemma counting_respond (r : Router) (a : Answer) : Counting r.stats.delta (r.respond a) := by
  have houtcome := r.responded a
  generalize r.respond a = result at houtcome ⊢
  cases houtcome with
  | unknown hp => exact ⟨rfl, rfl⟩
  | continued hp hresponse hpaginate => exact ⟨rfl, rfl⟩
  | answered response hp hnone => exact ⟨rfl, r.reportsIn_deliver _ _⟩

lemma counting_forwardTimeoutFired (r : Router) (id : OperationId) :
    Counting r.stats.delta (r.forwardTimeoutFired id) := by
  have houtcome := r.timedOut id
  generalize r.forwardTimeoutFired id = result at houtcome ⊢
  cases houtcome with
  | nothing hlocal => exact ⟨rfl, rfl⟩
  | refused hp hpeer => exact ⟨rfl, r.reportsIn_deliver _ _⟩

lemma counting_suspect (r : Router) (n : NodeId) : Counting r.stats.delta (r.suspect n) := by
  refine ⟨rfl, ?_⟩
  apply List.filterMap_eq_nil_iff.2
  intro o ho
  obtain ⟨p, -, rfl⟩ := List.mem_map.1 ho
  unfold refuse deliver
  cases p.reply with
  | caller ticket => rfl
  | remote n => rfl

/-- The change that a router counts up with an input. What peers answer does not count. -/
def Input.delta : Input → SizeDelta
  | .engine event => event.delta
  | .request _ _ | .message _ | .liveness _ | .statsTick | .forwardTimeout _ => .zero

/-- Apart from a tick, a router counts up what it handles. -/
lemma counting_handle (r : Router) {input : Input} (h : input ≠ .statsTick) :
    Counting (r.stats.delta + input.delta) (r.handle input) := by
  have hother : input.delta = .zero → Counting r.stats.delta (r.handle input) →
      Counting (r.stats.delta + input.delta) (r.handle input) := by
    intro hzero hresult
    have hsame : r.stats.delta + SizeDelta.zero = r.stats.delta := by
      show SizeDelta.mk (_ + 0) (_ + 0) = _
      rw [Int64.add_zero, Int64.add_zero]
    rw [hzero, hsame]
    exact hresult
  cases input with
  | request op reply => exact hother rfl (r.counting_request op reply)
  | message m =>
    apply hother rfl
    cases m with
    | forward op replyTo => exact r.counting_request op (.remote replyTo)
    | reply a => exact r.counting_respond a
    | _ => exact ⟨rfl, rfl⟩
  | liveness report =>
    apply hother rfl
    cases report with
    | suspect n _ => exact r.counting_suspect n
    | restore n _ => exact ⟨rfl, rfl⟩
  | engine event =>
    cases event with
    | viewInstalled view range state => exact hother rfl ⟨rfl, rfl⟩
    | synced v => exact hother rfl ⟨rfl, rfl⟩
    | response a => exact counting_respond { r with stats := r.stats.recordDelta a.delta } a
  | statsTick => exact absurd rfl h
  | forwardTimeout id => exact hother rfl (r.counting_forwardTimeoutFired id)

/-- What a router handles is counted up or reported, and nothing else. -/
theorem reported_handle (r : Router) (input : Input)
    (h : Fits (r.stats.delta.whole + input.delta.whole)) :
    SizeDelta.total ((reportsIn (r.handle input).2).map StatsReport.delta) +
        (r.handle input).1.stats.delta.whole =
      r.stats.delta.whole + input.delta.whole := by
  by_cases htick : input = .statsTick
  · -- the count is reported, and begins anew
    subst htick
    show r.stats.delta.whole + 0 + SizeDelta.zero.whole = _
    rw [add_zero]
    rfl
  · rw [(r.counting_handle htick).total]
    exact SizeDelta.whole_add h

end Router

/-! ## Runs -/

/-- The reports that a router makes on an event at the desk. -/
def Desk.reportsOn (d : Desk) : Desk.Event → List StatsReport
  | .input input => Router.reportsIn (d.router.handle input).2
  | .fire _ | .pass _ | .amid _ _ _ => []

/-- What is no event of the engine is at most reported. -/
lemma Desk.reported_step (d : Desk) {event : Desk.Event} (h : event.isEngine = false) :
    SizeDelta.total ((d.reportsOn event).map StatsReport.delta) +
        (d.step event).router.stats.delta.whole = d.router.stats.delta.whole := by
  cases event with
  | input input =>
    have hzero : input.delta = .zero := by
      cases input with
      | engine event => cases h
      | _ => rfl
    have hbounds : Fits (d.router.stats.delta.whole + input.delta.whole) := by
      rw [hzero, SizeDelta.whole_zero, add_zero]
      exact d.router.stats.delta.fits_whole
    have hhandled := d.router.reported_handle input hbounds
    rw [hzero, SizeDelta.whole_zero, add_zero] at hhandled
    exact hhandled
  | fire id =>
    unfold Desk.step
    simp only
    split
    · exact zero_add _
    · exact zero_add _
  | pass span => exact zero_add _
  | amid ids placement placementFault => exact zero_add _

namespace EngineLink

/-- The reports that a router makes in a step. -/
def reportsOn (l : EngineLink) : Step → List StatsReport
  | .engine _ => []
  | .event =>
    match l.events with
    | [] => []
    | event :: _ => l.desk.reportsOn (.input (.engine event))
  | .desk event _ => l.desk.reportsOn event

/-- The reports of a run. -/
def reports (l : EngineLink) : List Step → List StatsReport
  | [] => []
  | s :: rest => l.reportsOn s ++ (l.step s).reports rest

/-- Whether others write to the store of the engine in a step. -/
def Step.isForeign : Step → Bool
  | .engine arrival => arrival.isForeign
  | .event | .desk _ _ => false

/-- In a step nothing overflows 64 bits: neither the changes that are executed nor the count of a
router. -/
def StepFits (l : EngineLink) : Step → Prop
  | .engine a => ∀ x ∈ l.engine.executionsAlong (l.engine.stepsOn a), Fits x.gain
  | .event => ∀ event ∈ l.events.head?, Fits (l.desk.router.stats.delta.whole + event.delta.whole)
  | .desk _ _ => True

/-- Nothing overflows in any step of a run. -/
def RunFits (l : EngineLink) : List Step → Prop
  | [] => True
  | s :: rest => l.StepFits s ∧ (l.step s).RunFits rest

instance (l : EngineLink) (s : Step) : Decidable (l.StepFits s) :=
  match s with
  | .engine _ => List.decidableBAll _ _
  | .event => inferInstanceAs (Decidable (∀ event ∈ l.events.head?, _))
  | .desk _ _ => .isTrue trivial

instance decidableRunFits : (l : EngineLink) → (steps : List Step) → Decidable (l.RunFits steps)
  | _, [] => .isTrue trivial
  | l, s :: rest =>
    have := decidableRunFits (l.step s) rest
    inferInstanceAs (Decidable (l.StepFits s ∧ (l.step s).RunFits rest))

/-- The changes that were not reported yet: what the router counted up, and what waits. -/
def unreported (l : EngineLink) : Int × Int :=
  l.desk.router.stats.delta.whole + SizeDelta.total (l.events.map EngineEvent.delta)

variable {l : EngineLink}

lemma consistent_step (h : l.engine.Consistent) (s : Step) : (l.step s).engine.Consistent := by
  cases s with
  | engine a => exact h.react a
  | event =>
    unfold step
    simp only
    split
    · exact h
    · exact h
  | desk event hother => exact h

/-- What a step adds to the reports and to what is not reported yet is what the store grows by. -/
lemma unreported_step (h : l.engine.Consistent) {s : Step} (hown : s.isForeign = false)
    (hfits : l.StepFits s) :
    SizeDelta.total ((l.reportsOn s).map StatsReport.delta) + (l.step s).unreported =
      l.unreported + ((l.step s).engine.store.extent - l.engine.store.extent) := by
  cases s with
  | engine a =>
    -- the answers that tell how far the store grows now join the queue
    have hgrown := Engine.extent_react h hown hfits
    show 0 + (l.desk.router.stats.delta.whole + SizeDelta.total
        ((l.events ++ Engine.eventsIn (l.engine.outputOn a)).map EngineEvent.delta)) =
      l.unreported + ((l.engine.react a).store.extent - l.engine.store.extent)
    unfold unreported
    rw [hgrown, List.map_append, SizeDelta.total_append, total_eventsIn]
    abel
  | event =>
    unfold reportsOn step unreported
    cases hevents : l.events with
    | nil =>
      show 0 + (l.desk.router.stats.delta.whole +
        SizeDelta.total (l.events.map EngineEvent.delta)) = _
      rw [hevents]
      abel
    | cons event rest =>
      -- the router counts up what the event brings, and it waits no longer
      have hcounted := l.desk.router.reported_handle (.engine event)
        (hfits event (by rw [hevents]; rfl))
      show SizeDelta.total ((Router.reportsIn (l.desk.router.handle (.engine event)).2).map
            StatsReport.delta) +
          ((l.desk.router.handle (.engine event)).1.stats.delta.whole +
            SizeDelta.total (rest.map EngineEvent.delta)) =
        l.desk.router.stats.delta.whole + SizeDelta.total ((event :: rest).map EngineEvent.delta) +
          (l.engine.store.extent - l.engine.store.extent)
      rw [← add_assoc, hcounted, List.map_cons, SizeDelta.total_cons, sub_self, add_zero, add_assoc]
      rfl
  | desk event hother =>
    show SizeDelta.total ((l.desk.reportsOn event).map StatsReport.delta) +
        ((l.desk.step event).router.stats.delta.whole +
          SizeDelta.total (l.events.map EngineEvent.delta)) =
      l.unreported + (l.engine.store.extent - l.engine.store.extent)
    rw [← add_assoc, l.desk.reported_step hother, sub_self, add_zero]
    rfl

/-- The same of a run. -/
lemma unreported_run (h : l.engine.Consistent) {steps : List Step}
    (hown : ∀ s ∈ steps, s.isForeign = false) (hfits : l.RunFits steps) :
    SizeDelta.total ((l.reports steps).map StatsReport.delta) + (l.run steps).unreported =
      l.unreported + ((l.run steps).engine.store.extent - l.engine.store.extent) := by
  induction steps generalizing l with
  | nil =>
    show 0 + l.unreported = l.unreported + (l.engine.store.extent - l.engine.store.extent)
    abel
  | cons s rest ih =>
    obtain ⟨hnow, hlater⟩ := hfits
    have hfirst := unreported_step h (hown s List.mem_cons_self) hnow
    have hrest := ih (l.consistent_step h s) (fun s' hs' => hown s' (List.mem_cons_of_mem _ hs'))
      hlater
    have hrun : l.run (s :: rest) = (l.step s).run rest := rfl
    have hreports : l.reports (s :: rest) = l.reportsOn s ++ (l.step s).reports rest := rfl
    -- the store is in between where the first step leaves it and the others find it
    rw [hrun, hreports, List.map_append, SizeDelta.total_append, add_assoc, hrest, ← add_assoc,
      hfirst]
    abel

/-- The size of a store that only its engine writes, as the router reports it, is right: what all
reports say together, what the router counted up since the last one, and what the events bring that
it did not take yet, are the bytes and the keys that the store has grown by since the start. -/
theorem sizes_add_up (self : NodeId) (config : ReplicationConfig) (store : Store)
    (timeout : Duration) (placement : Placement) (ids : IdSource) (draws : Nat → Nat)
    {steps : List Step}
    (hstart : l = start (.start self config store) (.start self timeout placement ids draws))
    (hown : ∀ s ∈ steps, s.isForeign = false) (hfits : l.RunFits steps) :
    SizeDelta.total ((l.reports steps).map StatsReport.delta) +
        (l.run steps).desk.router.stats.delta.whole +
        SizeDelta.total ((l.run steps).events.map EngineEvent.delta) =
      (l.run steps).engine.store.extent - store.extent := by
  have hconsistent : l.engine.Consistent := by
    rw [hstart]
    exact Engine.consistent_start self config store
  have hnothing : l.unreported = 0 := by
    rw [hstart]
    rfl
  have hstore : l.engine.store = store := by
    rw [hstart]
    rfl
  have hrun := unreported_run hconsistent hown hfits
  rw [hnothing, hstore, zero_add] at hrun
  rw [add_assoc]
  exact hrun

namespace Overwriting

def a : NodeId := ⟨"a", 1, none⟩

def b : NodeId := ⟨"b", 1, none⟩

/-- What a store holds at first. -/
def contents : Store := .ofList [([3], [9, 9])]

def initial : EngineLink :=
  start (.start a {} contents) (.start a 5 (.ofList [([], [b])]) ⟨0, 1000⟩)

def operation (id : OperationId) (kind : OperationKind) : LogValue := .operation ⟨id, kind⟩

/-- A key is written, written again, and another key is deleted. A write comes to be decided twice.
A caller's write is passed on to another node, whose answer says that the node has grown. -/
def happened : List Step :=
  [.engine (.input (.decided 1 (.reconfigure ⟨.ofList 1 [a], 1, 0, .halfOpen [] [9]⟩))),
    .event, .event,
    .engine (.input (.decided 2 (operation 10 (.put [1] [1, 2, 3])))),
    .event,
    .desk (.input (.request ⟨20, .put [10] [1]⟩ (.caller 0))) rfl,
    .desk (.input (.message (.reply ⟨20, .written, ⟨2, 1⟩⟩))) rfl,
    .desk (.input .statsTick) rfl,
    .engine (.input (.decided 3 (operation 11 (.put [1] [1])))),
    .engine (.input (.decided 4 (operation 10 (.put [1] [1, 2, 3])))),
    .engine (.input (.decided 5 (operation 12 (.delete [3])))),
    .event, .event]

end Overwriting

open Overwriting in
/-- Four bytes and a key more are reported, two bytes less are counted up, and three bytes and a key
less wait. So there is a byte less, and as many keys. -/
theorem sizes_add_up_overwriting :
    (∀ s ∈ happened, s.isForeign = false) ∧ initial.RunFits happened ∧
      SizeDelta.total ((initial.reports happened).map StatsReport.delta) = (4, 1) ∧
      (initial.run happened).desk.router.stats.delta.whole = (-2, 0) ∧
      SizeDelta.total ((initial.run happened).events.map EngineEvent.delta) = (-3, -1) ∧
      (initial.run happened).engine.store.extent - contents.extent = (-1, 0) := by
  have hown : ∀ s ∈ happened, s.isForeign = false := by decide
  have hfits : initial.RunFits happened := by decide
  have hsizes := sizes_add_up (l := initial) a {} contents 5 _ _ _ rfl hown hfits
  have hreported : SizeDelta.total ((initial.reports happened).map StatsReport.delta) = (4, 1) := by
    rfl
  have hcounted : (initial.run happened).desk.router.stats.delta.whole = (-2, 0) := by rfl
  have hwaiting :
      SizeDelta.total ((initial.run happened).events.map EngineEvent.delta) = (-3, -1) := by rfl
  rw [hreported, hcounted, hwaiting] at hsizes
  exact ⟨hown, hfits, hreported, hcounted, hwaiting, hsizes.symm⟩

end EngineLink

end ReplicaRing
