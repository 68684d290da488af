import Mathlib.Data.List.Induction
import ReplicaRing.Proofs.Standing

/-!
The leader of an oracle and the leader of the engine on its node, which knows the oracle by its
events alone. An event names the leader, so the engine's leader is that of the last one,
`Engine.leader_run`. Each input of the oracle either emits an event with its new leader, or leaves
the leader as it is, or installs a view that takes it away and emits nothing,
`Oracle.receive_leader`. So the two agree exactly as long as no view took the leader away since the
last event, `Engine.leader_eq_iff`.
-/

namespace ReplicaRing

/-- The leader that an event names. -/
def OracleEvent.leader? : OracleEvent → Option NodeId
  | trust leader _ => some leader
  | livenessChanged leader => leader

/-- The leader by the last of some events, or the one before if there are none. -/
def verdict (before : Option NodeId) (events : List OracleEvent) : Option NodeId :=
  events.foldl (fun _ event => event.leader?) before

lemma verdict_append (before : Option NodeId) (events more : List OracleEvent) :
    verdict before (events ++ more) = verdict (verdict before events) more := List.foldl_append

/-- Events overrule whatever was before. -/
lemma verdict_of_ne_nil {events : List OracleEvent} (h : events ≠ [])
    (before before' : Option NodeId) : verdict before events = verdict before' events := by
  cases events with
  | nil => exact absurd rfl h
  | cons event rest => rfl

namespace Oracle

/-- What reaches an oracle. -/
inductive Input where
  | install (view : View)
  | liveness (report : LivenessReport)

def receive (o : Oracle) : Input → Oracle × List Output
  | .install view => o.install view
  | .liveness report => o.liveness report

/-- Handles inputs one after the other. -/
def run (o : Oracle) (inputs : List Input) : Oracle :=
  inputs.foldl (fun o input => (o.receive input).1) o

def Output.event? : Output → Option OracleEvent
  | event e => some e
  | subscribe _ _ | unsubscribe _ | announce _ => none

/-- The events among some outputs. -/
def eventsIn (out : List Output) : List OracleEvent := out.filterMap Output.event?

/-- The events of a run. -/
def events (o : Oracle) : List Input → List OracleEvent
  | [] => []
  | input :: rest => eventsIn (o.receive input).2 ++ (o.receive input).1.events rest

/-- An installed view takes the leader away: it is taken over, and all its members are suspected. -/
structure Unseats (o : Oracle) (view : View) : Prop where
  led : o.leader ≠ none
  taken : view.isEmpty = true ∨ ∀ current, o.view = some current → current.id < view.id
  suspected : ∀ m ∈ view.members, m ∈ o.suspected

/-- An input takes the leader away without an event. -/
def UnseatedBy (o : Oracle) : Input → Prop
  | .install view => o.Unseats view
  | .liveness _ => False

/-- A view took the leader away, and no event was emitted since then. -/
def Silenced (o : Oracle) (inputs : List Input) : Prop :=
  ∃ before view after, inputs = before ++ .install view :: after ∧
    (o.run before).Unseats view ∧ (o.run (before ++ [.install view])).events after = []

variable {o : Oracle}

lemma run_append (o : Oracle) (inputs more : List Input) :
    o.run (inputs ++ more) = (o.run inputs).run more := List.foldl_append

lemma run_install (o : Oracle) (before after : List Input) (view : View) :
    (o.run (before ++ [.install view])).run after = o.run (before ++ .install view :: after) := by
  rw [← run_append, List.append_assoc]
  rfl

lemma events_append (o : Oracle) (inputs more : List Input) :
    o.events (inputs ++ more) = o.events inputs ++ (o.run inputs).events more := by
  induction inputs generalizing o with
  | nil => rfl
  | cons input rest ih =>
    show eventsIn (o.receive input).2 ++ (o.receive input).1.events (rest ++ more) =
      eventsIn (o.receive input).2 ++ (o.receive input).1.events rest ++ _
    rw [ih, List.append_assoc]
    rfl

lemma events_singleton (o : Oracle) (input : Input) :
    o.events [input] = eventsIn (o.receive input).2 := List.append_nil _

lemma eventsIn_append (out more : List Output) :
    eventsIn (out ++ more) = eventsIn out ++ eventsIn more := List.filterMap_append

/-! ## Installed views -/

lemma eventsIn_subscribeAll (o : Oracle) (nodes : List NodeId) :
    eventsIn (o.subscribeAll nodes).2 = [] := by
  induction nodes generalizing o with
  | nil => rfl
  | cons n rest ih => exact ih _

lemma suspected_subscribeAll (o : Oracle) (nodes : List NodeId) :
    (o.subscribeAll nodes).1.suspected = o.suspected := by
  induction nodes generalizing o with
  | nil => rfl
  | cons n rest ih => exact ih _

lemma eventsIn_dropAll (o : Oracle) (nodes : List NodeId) :
    eventsIn (o.dropAll nodes).2 = [] := by
  induction nodes generalizing o with
  | nil => rfl
  | cons n rest ih =>
    unfold dropAll
    simp only
    rw [eventsIn_append, ih]
    cases o.subscriptions.get? n with
    | none => rfl
    | some request => rfl

/-- Who is dropped is suspected no longer. -/
lemma mem_suspected_dropAll {nodes : List NodeId} {m : NodeId} :
    m ∈ (o.dropAll nodes).1.suspected ↔ m ∈ o.suspected ∧ m ∉ nodes := by
  induction nodes generalizing o with
  | nil => simp [dropAll]
  | cons n rest ih =>
    unfold dropAll
    simp only
    rw [ih, SortedSet.mem_erase, List.mem_cons, not_or, and_assoc]

/-- The leader after a view is taken over is its lowest member that is not suspected, and an event
names it if there is one. -/
lemma adopt_leader (o : Oracle) (view : View) :
    eventsIn (o.adopt view).2 =
        ((o.adopt view).1.leader.map fun n => OracleEvent.trust n view.id).toList ∧
      ((o.adopt view).1.leader = none ↔ ∀ m ∈ view.members, m ∈ o.suspected) := by
  unfold adopt
  simp only
  constructor
  · have hannounce : ∀ leader out, eventsIn (.announce leader :: out) = eventsIn out :=
      fun _ _ => rfl
    rw [eventsIn_append, eventsIn_append, eventsIn_subscribeAll, eventsIn_dropAll, hannounce]
    unfold setLeader
    simp only
    generalize (view.members.diff _).first? = leader
    cases leader with
    | none => rfl
    | some n => rfl
  · show (SortedSet.first? _ = none) ↔ _
    unfold SortedSet.first?
    rw [List.head?_eq_none_iff, List.eq_nil_iff_forall_not_mem]
    refine forall_congr' fun m => ?_
    rw [SortedSet.mem_toList, SortedSet.mem_diff, mem_suspected_dropAll, suspected_subscribeAll,
      SortedSet.mem_toList, View.removed, SortedSet.mem_diff]
    by_cases hm : m ∈ view.members
    · simp [hm]
    · simp [hm]

/-- A view takes the leader away and emits nothing, or what it emits says the leader. -/
lemma install_leader (o : Oracle) (view : View) :
    (o.Unseats view →
        (o.install view).1.leader = none ∧ eventsIn (o.install view).2 = []) ∧
      (¬ o.Unseats view →
        (o.install view).1.leader = verdict o.leader (eventsIn (o.install view).2)) := by
  unfold install
  by_cases hempty : view.isEmpty = true
  · rw [if_pos hempty]
    have hclear : o.clear.1.leader = none ∧ eventsIn o.clear.2 = [] := by
      refine ⟨rfl, ?_⟩
      unfold clear eventsIn
      simp [Output.event?]
    have hnone : ∀ m ∈ view.members, m ∈ o.suspected := fun m hm => by
      have hnil : view.members.toList = [] := List.isEmpty_iff.1 hempty
      rw [← SortedSet.mem_toList, hnil] at hm
      cases hm
    refine ⟨fun _ => hclear, fun hkept => ?_⟩
    -- there was no leader to take away
    have hled : o.leader = none := by
      by_contra hled
      exact hkept ⟨hled, .inl hempty, hnone⟩
    rw [hclear.1, hclear.2, hled]
    rfl
  · rw [if_neg hempty]
    by_cases hstale : o.view.any (view.id ≤ ·.id) = true
    · rw [if_pos hstale]
      refine ⟨fun h => ?_, fun _ => rfl⟩
      obtain ⟨current, hcurrent, hle⟩ := (Option.any_eq_true _ _).1 hstale
      have hlt := h.taken.resolve_left hempty current hcurrent
      exact absurd hlt (UInt64.not_lt.2 (of_decide_eq_true hle))
    · rw [if_neg hstale]
      obtain ⟨hevents, hnone⟩ := o.adopt_leader view
      rw [hevents]
      cases hleader : (o.adopt view).1.leader with
      | some n =>
        rw [hleader] at hnone
        exact ⟨fun h => absurd (hnone.2 h.suspected) (by simp), fun _ => rfl⟩
      | none =>
        refine ⟨fun _ => ⟨rfl, rfl⟩, fun hkept => ?_⟩
        have hled : o.leader = none := by
          by_contra hled
          refine hkept ⟨hled, .inr fun current hcurrent => ?_, hnone.1 hleader⟩
          by_contra hlt
          have hle := UInt64.not_lt.1 hlt
          exact hstale (by simp [hcurrent, hle])
        rw [hled]
        rfl

/-! ## Reports of liveness -/

/-- What a new election emits says the leader. -/
lemma reelect_leader (o : Oracle) (before : Option NodeId) :
    o.reelect.1.leader = verdict before (eventsIn o.reelect.2) := by
  unfold reelect
  simp only
  by_cases hsame : o.candidates.first? = o.leader
  · rw [if_pos hsame]
    exact hsame.symm
  · rw [if_neg hsame]
    cases o.candidates.first? with
    | none => rfl
    | some n => rfl

/-- What a report of liveness emits says the leader. -/
lemma liveness_leader (o : Oracle) (report : LivenessReport) :
    (o.liveness report).1.leader = verdict o.leader (eventsIn (o.liveness report).2) := by
  unfold liveness
  by_cases hcurrent : o.subscriptions.get? report.node = some report.request
  · rw [if_pos hcurrent]
    cases report with
    | suspect n request => exact reelect_leader _ _
    | restore n request => exact reelect_leader _ _
  · rw [if_neg hcurrent]
    rfl

/-! ## Runs -/

/-- An input takes the leader away and emits nothing, or what it emits says the leader. -/
theorem receive_leader (o : Oracle) (input : Input) :
    (o.UnseatedBy input →
        (o.receive input).1.leader = none ∧ eventsIn (o.receive input).2 = []) ∧
      (¬ o.UnseatedBy input →
        (o.receive input).1.leader = verdict o.leader (eventsIn (o.receive input).2)) := by
  cases input with
  | install view => exact o.install_leader view
  | liveness report => exact ⟨fun h => h.elim, fun _ => o.liveness_leader report⟩

/-- The oracle is silenced by the last input, or it was before and the last input emits nothing. -/
lemma silenced_append {inputs : List Input} {input : Input} :
    o.Silenced (inputs ++ [input]) ↔
      (o.run inputs).UnseatedBy input ∨
        (o.Silenced inputs ∧ eventsIn ((o.run inputs).receive input).2 = []) := by
  constructor
  · rintro ⟨before, view, after, heq, hunseats, hquiet⟩
    rcases List.eq_nil_or_concat after with rfl | ⟨after, last, rfl⟩
    · obtain ⟨rfl, hlast⟩ := List.append_inj' heq rfl
      obtain rfl : input = .install view := List.singleton_inj.1 hlast
      exact .inl hunseats
    · have heq' : inputs ++ [input] = (before ++ .install view :: after) ++ [last] := by
        rw [heq]
        simp
      obtain ⟨rfl, hlast⟩ := List.append_inj' heq' rfl
      obtain rfl := List.singleton_inj.1 hlast
      rw [List.concat_eq_append, events_append, List.append_eq_nil_iff, run_install,
        events_singleton] at hquiet
      exact .inr ⟨⟨before, view, after, rfl, hunseats, hquiet.1⟩, hquiet.2⟩
  · rintro (hunseated | ⟨⟨before, view, after, rfl, hunseats, hquiet⟩, hlast⟩)
    · cases input with
      | liveness report => exact hunseated.elim
      | install view => exact ⟨inputs, view, [], rfl, hunseated, rfl⟩
    · refine ⟨before, view, after ++ [input], by simp, hunseats, ?_⟩
      rw [events_append, hquiet, run_install, events_singleton, hlast]
      rfl

/-- The events of a run say the leader unless the oracle is silenced; then it has no leader, but
its events say one. -/
theorem run_leader (o : Oracle) (inputs : List Input) :
    (o.Silenced inputs →
        (o.run inputs).leader = none ∧ verdict o.leader (o.events inputs) ≠ none) ∧
      (¬ o.Silenced inputs →
        (o.run inputs).leader = verdict o.leader (o.events inputs)) := by
  induction inputs using List.reverseRecOn with
  | nil => exact ⟨fun ⟨before, _, _, heq, _⟩ => by simp at heq, fun _ => rfl⟩
  | append_singleton inputs input ih =>
    obtain ⟨hsilenced, hheard⟩ := ih
    obtain ⟨hunseated, hsaid⟩ := (o.run inputs).receive_leader input
    have hrun : (o.run (inputs ++ [input])).leader = ((o.run inputs).receive input).1.leader := by
      rw [run_append]
      rfl
    rw [hrun, events_append, events_singleton, verdict_append, silenced_append]
    by_cases hnow : (o.run inputs).UnseatedBy input
    · obtain ⟨hnone, hquiet⟩ := hunseated hnow
      have hled : (o.run inputs).leader ≠ none := by
        cases input with
        | install view => exact hnow.led
        | liveness report => exact hnow.elim
      -- there was a leader, so the oracle was not silenced before
      have hbefore : ¬ o.Silenced inputs := fun h => hled (hsilenced h).1
      rw [hheard hbefore] at hled
      rw [hnone, hquiet]
      exact ⟨fun _ => ⟨rfl, hled⟩, fun h => absurd (.inl hnow) h⟩
    · rw [hsaid hnow]
      by_cases hquiet : eventsIn ((o.run inputs).receive input).2 = []
      · rw [hquiet]
        exact ⟨fun h => hsilenced (h.resolve_left hnow).1,
          fun h => hheard fun hs => h (.inr ⟨hs, rfl⟩)⟩
      · refine ⟨fun h => absurd (h.resolve_left hnow).2 hquiet, fun _ => ?_⟩
        exact verdict_of_ne_nil hquiet _ _

end Oracle

namespace Engine

/-- The event of the oracle that reaches an engine. -/
def Input.oracleEvent? : Input → Option OracleEvent
  | oracle event => some event
  | decided _ _ | bootstrap _ | mover _ | page _ => none

variable {e : Engine}

/-- Only events of the oracle change the leader. -/
lemma leader_step (h : e.Consistent) {s : Step} (hs : ∀ event, s ≠ .oracle event) :
    (e.step s).leader = e.leader := by
  cases s with
  | hold position value => rfl
  | page items => rfl
  | oracle event => exact absurd rfl (hs event)
  | bootstrap r =>
    obtain ⟨_, _, _, _, hmove⟩ := e.reconfigure_rest r
    show (e.reconfigure r).1.leader = e.leader
    rw [hmove]
  | mover event =>
    show (e.handleMover event).1.leader = e.leader
    rw [handleMover_eq h]
    obtain ⟨_, _, hexecute⟩ :=
      executeAll_rest { e with awaiting := none, deferred := [] } e.deferred
    rw [hexecute]
    split
    · rfl
    · rfl
  | value value =>
    obtain ⟨_, _, hcount⟩ :=
      countApplied_rest (apply { e with held := e.held.erase e.next } value).1
    show (countApplied _).1.leader = e.leader
    rw [hcount]
    cases value with
    | noop => rfl
    | reconfigure r =>
      obtain ⟨_, _, _, _, hmove⟩ := reconfigure_rest { e with held := e.held.erase e.next } r
      show (reconfigure _ r).1.leader = e.leader
      rw [hmove]
    | operation op =>
      obtain ⟨_, _, hexecute⟩ := execute_rest { e with held := e.held.erase e.next } op
      unfold apply
      simp only
      split
      · rfl
      · rw [hexecute]

lemma leader_follow (h : e.Consistent) {steps : List Step}
    (hsteps : ∀ s ∈ steps, ∀ event, s ≠ .oracle event) : (e.follow steps).leader = e.leader := by
  induction steps generalizing e with
  | nil => rfl
  | cons s steps ih =>
    have hhead := leader_step h (hsteps s (List.mem_cons_self ..))
    exact (ih (h.step s) fun s' hs' => hsteps s' (List.mem_cons_of_mem _ hs')).trans hhead

lemma leader_receive (h : e.Consistent) (input : Input) :
    (e.receive input).leader = verdict e.leader input.oracleEvent?.toList := by
  cases input with
  | oracle event =>
    cases event with
    | trust leader view => rfl
    | livenessChanged leader => rfl
  | bootstrap r => exact leader_step (s := .bootstrap r) h (by simp)
  | mover event => exact leader_step (s := .mover event) h (by simp)
  | page items => rfl
  | decided position value =>
    show (e.decide position value).1.leader = e.leader
    rw [decide_eq]
    refine leader_follow h fun s hs event => ?_
    have hsteps : e.stepsOf (.decided position value) = if position < e.next then [] else
        .hold position value :: (e.due position value).map .value := rfl
    rw [hsteps] at hs
    by_cases hold : position < e.next
    · rw [if_pos hold] at hs
      cases hs
    · rw [if_neg hold] at hs
      rcases List.mem_cons.1 hs with rfl | hs
      · simp
      · obtain ⟨value, -, rfl⟩ := List.mem_map.1 hs
        simp

/-- The leader of an engine is that of the last event of the oracle. -/
theorem leader_run (h : e.Consistent) (inputs : List Input) :
    (e.run inputs).leader = verdict e.leader (inputs.filterMap Input.oracleEvent?) := by
  induction inputs generalizing e with
  | nil => rfl
  | cons input rest ih =>
    have hstep : (e.receive input).Consistent := h.run [input]
    have hsplit : (input :: rest).filterMap Input.oracleEvent? =
        input.oracleEvent?.toList ++ rest.filterMap Input.oracleEvent? := by
      cases hevent : input.oracleEvent? with
      | none => exact List.filterMap_cons_none hevent
      | some event => exact List.filterMap_cons_some hevent
    show ((e.receive input).run rest).leader = _
    rw [ih hstep, leader_receive h, hsplit, verdict_append]

/-- A change of view is proposed only by the leader. -/
lemma leader_of_propose {r : Reconfigure} (hpropose : e.propose r ≠ []) :
    e.leader = some e.self := by
  by_contra hleader
  apply hpropose
  unfold propose proposeCheck
  rw [if_pos hleader]

/-- An engine that heard all events of the oracle on its node has the same leader, unless the oracle
is silenced. So it proposes a change of view only while the oracle trusts this node, or is
silenced and trusts none. -/
theorem leader_eq_iff (self : NodeId) (ids : IdSource) (config : ReplicationConfig) (store : Store)
    (inputs : List Oracle.Input) (heard : List Input)
    (hheard : heard.filterMap Input.oracleEvent? = (Oracle.start self ids).events inputs) :
    (((start self config store).run heard).leader = ((Oracle.start self ids).run inputs).leader ↔
        ¬ (Oracle.start self ids).Silenced inputs) ∧
      ∀ r, ((start self config store).run heard).propose r ≠ [] →
        ((Oracle.start self ids).run inputs).leader = some self ∨
          ((Oracle.start self ids).run inputs).leader = none ∧
            (Oracle.start self ids).Silenced inputs := by
  have hconsistent := consistent_start self config store
  have hleader : ((start self config store).run heard).leader =
      verdict none ((Oracle.start self ids).events inputs) := by
    rw [leader_run hconsistent, hheard]
    rfl
  have hself : ((start self config store).run heard).self = self := by
    rw [run_eq, self_follow hconsistent]
    rfl
  obtain ⟨hsilenced, hagree⟩ := (Oracle.start self ids).run_leader inputs
  constructor
  · rw [hleader]
    constructor
    · intro heq hs
      obtain ⟨hnone, hsome⟩ := hsilenced hs
      exact hsome (heq.trans hnone)
    · exact fun hs => (hagree hs).symm
  · intro r hpropose
    have htrust := leader_of_propose hpropose
    rw [hself] at htrust
    by_cases hs : (Oracle.start self ids).Silenced inputs
    · exact .inr ⟨(hsilenced hs).1, hs⟩
    · exact .inl ((hagree hs).trans (hleader.symm.trans htrust))

/-- A view of two nodes, and the report that the first one is suspected, as the second one gets it
on its first subscription. -/
def suspicion : List Oracle.Input :=
  [.install (.ofList 1 [⟨"a", 1, none⟩, ⟨"b", 1, none⟩]),
    .liveness (.suspect ⟨"a", 1, none⟩ (IdSource.ofSeed 0 0).next.1)]

/-- The events of that: each of the nodes is trusted in its turn. -/
def trusted : List Input := [.oracle (.trust ⟨"a", 1, none⟩ 1), .oracle (.trust ⟨"b", 1, none⟩ 1)]

/-- A view of the second node alone, newer than the one before. -/
def takeover : Reconfigure := ⟨.ofList 3 [⟨"b", 1, none⟩], 1, 1, .full⟩

/-- The node proposes a view while its oracle trusts it. -/
theorem leader_eq_iff_suspicion :
    ((start ⟨"b", 1, none⟩ {} (.ofList [])).run trusted).propose takeover ≠ [] ∧
      ((Oracle.start ⟨"b", 1, none⟩ (.ofSeed 0 0)).run suspicion).leader =
        some ⟨"b", 1, none⟩ ∧
      ¬ (Oracle.start ⟨"b", 1, none⟩ (.ofSeed 0 0)).Silenced suspicion := by
  have hproposes : ((start ⟨"b", 1, none⟩ {} (.ofList [])).run trusted).propose takeover ≠ [] := by
    decide
  obtain ⟨hagree, htrust⟩ := leader_eq_iff ⟨"b", 1, none⟩ (.ofSeed 0 0) {} (.ofList []) suspicion
    trusted (by decide)
  have hkept := hagree.1 (by decide)
  exact ⟨hproposes, (htrust takeover hproposes).resolve_right fun h => hkept h.2, hkept⟩

/-- A view without the node, whose only member it suspects, leaves the oracle without a leader. The
engine hears nothing of it, takes its own node for the leader and proposes a view. -/
theorem leader_kept_unseated :
    let o := (Oracle.start ⟨"b", 1, none⟩ (.ofSeed 0 0)).run
      (suspicion ++ [.install (.ofList 2 [⟨"a", 1, none⟩])])
    let e := (start ⟨"b", 1, none⟩ {} (.ofList [])).run trusted
    trusted.filterMap Input.oracleEvent? = (Oracle.start ⟨"b", 1, none⟩ (.ofSeed 0 0)).events
        (suspicion ++ [.install (.ofList 2 [⟨"a", 1, none⟩])]) ∧
      o.leader = none ∧ e.leader = some ⟨"b", 1, none⟩ ∧
      e.propose takeover = [.log (.propose (.reconfigure takeover))] := by
  decide

end Engine

end ReplicaRing
