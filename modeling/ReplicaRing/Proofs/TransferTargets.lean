import ReplicaRing.Proofs.Announcements
import ReplicaRing.Proofs.MoverRuns
import ReplicaRing.Proofs.TransferDuties

/-!
Where the transfers of a node go. The mover takes its commands from the engine alone, one by one,
amid frames and retransmission timers. A command opens a session to one node, closes the one there
or closes all, and nothing else opens any, `Mover.serving_of_handle`. What the commands of a change
of view leave going on is what the engine may do in the new view, `Engine.mayFeed_outputOn`: bring
data, as a member, to another member. So whatever the mover will go on with once it has carried out
the waiting commands, the engine may do at all times, `MoverLink.Directed.run`.
-/

namespace ReplicaRing

/-! ## Commands and where they lead -/

namespace MoverCommand

/-- Whether a transfer to a node may be going on after a command, if it may or may not before. -/
def leaves (n : NodeId) (going : Prop) : MoverCommand → Prop
  | startSend destination _ _ => going ∨ n = destination
  | stopSend destination => going ∧ n ≠ destination
  | stopAll => False

/-- The same after commands that are carried out one after the other. -/
def leavesAll (n : NodeId) (going : Prop) (commands : List MoverCommand) : Prop :=
  commands.foldl (leaves n) going

variable {n : NodeId} {going going' : Prop}

lemma leaves_mono (h : going → going') {command : MoverCommand} :
    command.leaves n going → command.leaves n going' := by
  cases command with
  | startSend destination range viewId => exact Or.imp_left h
  | stopSend destination => exact And.imp_left h
  | stopAll => exact id

lemma leavesAll_mono (h : going → going') {commands : List MoverCommand} :
    leavesAll n going commands → leavesAll n going' commands := by
  induction commands generalizing going going' with
  | nil => exact h
  | cons command rest ih => exact ih (leaves_mono h)

lemma leavesAll_append (commands more : List MoverCommand) :
    leavesAll n going (commands ++ more) = leavesAll n (leavesAll n going commands) more :=
  List.foldl_append

lemma leavesAll_stops {nodes : List NodeId} (h : leavesAll n going (nodes.map stopSend)) :
    going ∧ n ∉ nodes := by
  induction nodes generalizing going with
  | nil => exact ⟨h, List.not_mem_nil⟩
  | cons m nodes ih =>
    obtain ⟨⟨hgoing, hne⟩, hnot⟩ := @ih (going ∧ n ≠ m) h
    exact ⟨hgoing, fun hmem => (List.mem_cons.1 hmem).elim hne hnot⟩

lemma leavesAll_starts {nodes : List NodeId} {range : KeyRange} {viewId : UInt64}
    (h : leavesAll n going (nodes.map fun m => startSend m range viewId)) :
    going ∨ n ∈ nodes := by
  induction nodes generalizing going with
  | nil => exact .inl h
  | cons m nodes ih =>
    rcases @ih (going ∨ n = m) h with (hgoing | rfl) | hmem
    · exact .inl hgoing
    · exact .inr List.mem_cons_self
    · exact .inr (List.mem_cons_of_mem _ hmem)

end MoverCommand

/-! ## What an engine allows -/

namespace Engine

/-- An engine may bring data to a node: both are members of the installed view. -/
def MayFeed (e : Engine) (n : NodeId) : Prop :=
  ∃ r, e.installed = some r ∧ e.self ∈ r.view.members ∧ n ∈ r.view.members ∧ n ≠ e.self

variable {e : Engine} {n : NodeId} {going : Prop}

lemma MayFeed.congr {e' : Engine} (h : e.MayFeed n) (hself : e'.self = e.self)
    (hinstalled : e'.installed = e.installed) : e'.MayFeed n := by
  unfold MayFeed
  rw [hself, hinstalled]
  exact h

/-- A member that goes over to a configuration stops bringing data to those that leave, and starts
to bring it to others that join. -/
lemma mayFeed_reassign {self : NodeId} {previous next : Reconfigure}
    (hgoing : going → n ∈ previous.view.members ∧ n ≠ self)
    (h : MoverCommand.leavesAll n going (commandsIn (reassignTransfers self previous next))) :
    self ∈ next.view.members ∧ n ∈ next.view.members ∧ n ≠ self := by
  unfold reassignTransfers at h
  by_cases hstays : next.view.contains self = true
  · rw [if_pos hstays, commandsIn_append, commandsIn_map, MoverCommand.leavesAll_append] at h
    refine ⟨View.contains_iff.1 hstays, ?_⟩
    have hkept : MoverCommand.leavesAll n going
        ((next.view.removed previous.view).toList.map .stopSend) →
          n ∈ next.view.members ∧ n ≠ self := by
      intro hleaves
      obtain ⟨hbefore, hnot⟩ := MoverCommand.leavesAll_stops hleaves
      obtain ⟨hmember, hne⟩ := hgoing hbefore
      refine ⟨?_, hne⟩
      by_contra hgone
      exact hnot (SortedSet.mem_diff.2 ⟨hmember, hgone⟩)
    split at h
    · exact hkept h
    · rw [commandsIn_map] at h
      rcases MoverCommand.leavesAll_starts h with hleaves | hstarts
      · exact hkept hleaves
      · -- a node that is fed anew is a new member, while this node is none
        obtain ⟨hjoins, hstranger, hneighbour⟩ := mem_newlyResponsible.1 hstarts
        exact ⟨hjoins, fun heq => hstranger (heq ▸ (View.free_of_predecessor hneighbour).1)⟩
  · rw [if_neg hstays] at h
    cases h

/-- What the commands of a change of view leave going on is what the engine may do after it. -/
lemma mayFeed_reconfigure (h : e.Consistent) (hgoing : going → e.MayFeed n) {r : Reconfigure}
    (hleaves : MoverCommand.leavesAll n going (commandsIn (e.reconfigure r).2)) :
    (e.reconfigure r).1.MayFeed n := by
  rw [commandsIn_reconfigure] at hleaves
  rw [reconfigure_eq h]
  cases hstale : e.isStale r with
  | true =>
    rw [if_pos hstale] at hleaves
    exact hgoing hleaves
  | false =>
    rw [hstale, if_neg (by simp)] at hleaves
    rw [if_neg (by simp)]
    -- whatever becomes of the engine, it has the new configuration
    suffices hmembers : e.self ∈ r.view.members ∧ n ∈ r.view.members ∧ n ≠ e.self by
      rw [View.contains_iff.2 hmembers.1]
      split
      · contradiction
      · split
        · exact ⟨r, rfl, hmembers⟩
        · exact ⟨r, rfl, hmembers⟩
    unfold transfers at hleaves
    cases hi : e.installed with
    | none =>
      simp only [hi] at hleaves
      obtain ⟨r', hr', -⟩ := hgoing hleaves
      rw [hi] at hr'
      cases hr'
    | some previous =>
      simp only [hi] at hleaves
      split at hleaves
      · refine mayFeed_reassign (fun hbefore => ?_) hleaves
        obtain ⟨r', hr', -, hmember, hne⟩ := hgoing hbefore
        rw [hi] at hr'
        cases hr'
        exact ⟨hmember, hne⟩
      · -- no transfer went on while the engine was no member
        rename_i hstranger
        obtain ⟨r', hr', hself, -⟩ := hgoing hleaves
        refine absurd ?_ hstranger
        unfold isMember
        rw [hr']
        exact View.contains_iff.2 hself

/-- What the commands of a step leave going on is what the engine may do after it. -/
theorem mayFeed_outputAt (h : e.Consistent) (hgoing : going → e.MayFeed n) {s : Step}
    (hleaves : MoverCommand.leavesAll n going (commandsIn (e.outputAt s))) :
    (e.step s).MayFeed n := by
  by_cases hchange : ∃ r, s.changes = [r]
  · obtain ⟨r, hr⟩ := hchange
    have hs := standsAs_change h hr
    rw [commandsIn_outputAt_change hr] at hleaves
    exact (mayFeed_reconfigure h hgoing hleaves).congr hs.self hs.installed
  · obtain ⟨hquiet, hinstalled⟩ : s.changes = [] ∧ (e.step s).installed = e.installed := by
      rcases s.kinds with ⟨r, hr, -, -⟩ | ⟨op, rfl⟩ | ⟨event, rfl⟩ |
        ⟨hchanges, hoperations, hmover⟩
      · exact absurd ⟨r, hr⟩ hchange
      · refine ⟨rfl, (e.standsAs_operation op).installed.trans ?_⟩
        split
        · rfl
        · rfl
      · refine ⟨rfl, (standsAs_mover h event).installed.trans ?_⟩
        split
        · rfl
        · rfl
      · exact ⟨hchanges, (standsAs_quiet hchanges hoperations hmover).installed⟩
    rw [commandsIn_outputAt_quiet hquiet] at hleaves
    exact (hgoing hleaves).congr (self_step h s) hinstalled

lemma mayFeed_outputAlong (h : e.Consistent) (hgoing : going → e.MayFeed n) {steps : List Step}
    (hleaves : MoverCommand.leavesAll n going (commandsIn (e.outputAlong steps))) :
    (e.follow steps).MayFeed n := by
  induction steps generalizing e going with
  | nil => exact hgoing hleaves
  | cons s rest ih =>
    have hsplit : commandsIn (e.outputAlong (s :: rest)) =
        commandsIn (e.outputAt s) ++ commandsIn ((e.step s).outputAlong rest) :=
      commandsIn_append ..
    rw [hsplit, MoverCommand.leavesAll_append] at hleaves
    exact ih (h.step s) (mayFeed_outputAt h hgoing) hleaves

/-- The same of whatever comes to an engine. -/
theorem mayFeed_outputOn (h : e.Consistent) (hgoing : going → e.MayFeed n) {a : Arrival}
    (hleaves : MoverCommand.leavesAll n going (commandsIn (e.outputOn a))) :
    (e.react a).MayFeed n := by
  obtain ⟨store, ha⟩ := e.react_eq a
  suffices hfollow : (e.follow (e.stepsOn a)).MayFeed n by
    rw [ha]
    exact hfollow.congr rfl rfl
  rcases e.outputOn_eq a with hsteps | ⟨hnone, hothers⟩
  · rw [hsteps] at hleaves
    exact mayFeed_outputAlong h hgoing hleaves
  · have hsilent : commandsIn (e.outputOn a) = [] :=
      List.filterMap_eq_nil_iff.2 fun o ho => by
        obtain ⟨_, rfl⟩ | ⟨_, rfl⟩ := hothers o ho <;> rfl
    rw [hsilent] at hleaves
    rw [hnone]
    exact hgoing hleaves

end Engine

/-! ## The mover's sessions -/

namespace Mover

variable {m m' : Mover} {input : Input} {out : List Output} {n : NodeId}

/-- A mover between inputs whose sessions are all indexed, whatever numbers they have. -/
structure Attended (m : Mover) : Prop where
  tidy : m.Tidy
  active : ∀ id s, m.outbound.get? id = some s → s.stopped = false
  listed : m.Listed

lemma listed_onCommand (hm : m.Attended) (command : MoverCommand) :
    (m.onCommand command).1.finishTeardown.Listed := by
  cases command with
  | startSend destination range viewId =>
    show (m.startSend destination range viewId).1.finishTeardown.Listed
    obtain ⟨hlisted, hfree⟩ := hm.listed.vacate hm.active hm.tidy.teardown destination
    rw [startSend_eq]
    exact ((ActsOn.transmit _ rfl).listed (hlisted.withNewSession hfree _)).finishTeardown
  | stopSend destination =>
    unfold onCommand
    simp only
    split
    · exact ((ActsOn.stop m _).listed hm.listed).finishTeardown
    · exact hm.listed.finishTeardown
  | stopAll =>
    obtain ⟨_, _, _, hrest⟩ := foldl_stop_rest m.outbound.keys m
    refine (hm.listed.congr ?_ (foldl_stop_destination? m.outbound.keys m)).finishTeardown
    show (m.outbound.keys.foldl stop m).byDestination = _
    rw [hrest]

lemma listed_onMessage (hm : m.Listed) (src : NodeId) (message : Message) :
    (m.onMessage src message).1.finishTeardown.Listed := by
  cases hs : message.outboundSession? with
  | some id =>
    obtain ⟨_, _, _, hrest⟩ := (receives_onMessage m src hs).rest
    rw [hrest]
    exact Listed.finishTeardown (hm.congr rfl fun _ => rfl)
  | none =>
    cases message with
    | ack id => exact ((ActsOn.onAck m src id).listed hm).finishTeardown
    | clearToSend id quota => exact ((ActsOn.onClearToSend m src id quota).listed hm).finishTeardown
    | allReceived id => exact ((ActsOn.onAllReceived m src id).listed hm).finishTeardown
    | initiateTransfer => cases hs
    | requestToSend => cases hs
    | data => cases hs
    | _ => exact hm.finishTeardown

/-- Whatever a mover handles, it stays attended. -/
theorem attended_of_handle (hm : m.Attended) (h : m.handle input = .ok (m', out)) :
    m'.Attended := by
  refine ⟨tidy_of_handle hm.tidy h,
    fun id s => (sessionTurn_of_handle hm.tidy h id).active (hm.active id), ?_⟩
  cases input with
  | command command =>
    cases h
    exact listed_onCommand hm command
  | inbound src message =>
    cases h
    exact listed_onMessage hm.listed src message
  | retry id =>
    obtain ⟨r, hretry, rfl, -⟩ := handle_retry h
    exact ((ActsOn.onRetry (hm.tidy.inFlight id) hretry).listed hm.listed).finishTeardown

lemma serving_of_handle (hm : m.Attended) (h : m.handle input = .ok (m', out))
    (hserving : m'.Serving n) :
    m.Serving n ∨ ∃ range viewId, input = .command (.startSend n range viewId) := by
  obtain ⟨id, hid⟩ := hserving
  obtain ⟨s', hget, rfl⟩ := destination?_eq_some.1 hid
  have hturn := sessionTurn_of_handle hm.tidy h id
  rw [hget] at hturn
  rcases hturn.destination with ⟨s, hs, hsame⟩ | ⟨metadata, hopening⟩
  · exact .inl ⟨id, destination?_eq_some.2 ⟨s, hs, hsame⟩⟩
  · unfold opening? at hopening
    split at hopening
    · rename_i destination range viewId
      split at hopening
      · cases hopening
        exact .inr ⟨range, viewId, rfl⟩
      · cases hopening
    · cases hopening

/-- A command leaves going on what it says. -/
theorem serving_of_command (hm : m.Attended) {command : MoverCommand}
    (h : m.handle (.command command) = .ok (m', out)) (hserving : m'.Serving n) :
    command.leaves n (m.Serving n) := by
  have hbefore := serving_of_handle hm h hserving
  cases command with
  | startSend destination range viewId =>
    refine hbefore.imp_right ?_
    rintro ⟨_, _, heq⟩
    cases heq
    rfl
  | stopSend destination =>
    have hserved : m.Serving n := hbefore.resolve_right (by rintro ⟨_, _, heq⟩; cases heq)
    refine ⟨hserved, ?_⟩
    rintro rfl
    -- the session that the index has is the one that stops, and there is no other
    obtain ⟨id, hid⟩ := hserving
    obtain ⟨s', hget', rfl⟩ := destination?_eq_some.1 hid
    have hturn := sessionTurn_of_handle hm.tidy h id
    rw [hget'] at hturn
    obtain ⟨s, hget, hsame⟩ := hturn.destination.resolve_right (by rintro ⟨_, heq⟩; cases heq)
    have hlisted := hm.listed id _ (destination?_eq_some.2 ⟨s, hget, hsame⟩)
    have hstopped : m' = (m.stop id).finishTeardown := by
      cases h
      simp only [hlisted]
    rw [hstopped, stop_get?_self hget (hm.active id s hget)] at hget'
    cases hget'
  | stopAll =>
    obtain ⟨id, hid⟩ := hserving
    obtain ⟨s', hget', -⟩ := destination?_eq_some.1 hid
    cases h
    cases (onCommand_stopAll_get? hm.active id).symm.trans hget'

lemma attended_start (self : NodeId) (config : TransferConfig) (store : Store) (ids : IdSource)
    (c : BlockCompression.Compressor) : (start self config store ids c).Attended :=
  have hsettled := settled_start self config store ids c
  ⟨tidy_start self config store ids c, hsettled.active, hsettled.indexed.listed⟩

end Mover

/-! ## An engine and its mover -/

/-- An engine and the mover that carries out its commands. -/
structure MoverLink where
  engine : Engine
  /-- The commands that the mover has still to carry out, oldest first. -/
  commands : List MoverCommand
  mover : Mover

namespace MoverLink

inductive Step where
  /-- The engine handles something, and its commands join the queue. -/
  | engine (arrival : Engine.Arrival)
  /-- The mover carries out the oldest command. -/
  | command
  /-- A transfer frame reaches the mover. -/
  | frame (src : NodeId) (message : Message)
  /-- The retransmission timer of a session fires. -/
  | retry (id : SessionId)
  /-- Something changes around the mover. -/
  | amid (w : Surroundings)

def start (engine : Engine) (mover : Mover) : MoverLink := ⟨engine, [], mover⟩

/-- The mover handles an input. -/
def handle (l : MoverLink) (input : Mover.Input) : Except Mover.Crash MoverLink :=
  (l.mover.handle input).map fun r => { l with mover := r.1 }

def step (l : MoverLink) : Step → Except Mover.Crash MoverLink
  | .engine a => .ok
    { l with
      engine := l.engine.react a
      commands := l.commands ++ Engine.commandsIn (l.engine.outputOn a) }
  | .command =>
    match l.commands with
    | [] => .ok l
    | command :: rest => { l with commands := rest }.handle (.command command)
  | .frame src message => l.handle (.inbound src message)
  | .retry id => l.handle (.retry id)
  | .amid w => .ok { l with mover := l.mover.amid w }

def run (l : MoverLink) (steps : List Step) : Except Mover.Crash MoverLink := steps.foldlM step l

/-- Whatever the mover still serves once it has carried out the waiting commands, the engine may
bring data to. -/
structure Directed (l : MoverLink) (node : NodeId) : Prop where
  consistent : l.engine.Consistent
  name : l.engine.self = node
  attended : l.mover.Attended
  targets : ∀ n, MoverCommand.leavesAll n (l.mover.Serving n) l.commands → l.engine.MayFeed n

variable {l l' : MoverLink} {node : NodeId}

lemma handle_eq_ok {input : Mover.Input} (h : l.handle input = .ok l') :
    ∃ m' out, l.mover.handle input = .ok (m', out) ∧ l' = { l with mover := m' } := by
  unfold handle at h
  cases hhandle : l.mover.handle input with
  | error crash => simp [hhandle, Except.map] at h
  | ok r =>
    simp only [hhandle, Except.map, Except.ok.injEq] at h
    exact ⟨r.1, r.2, rfl, h.symm⟩

/-- What is no command opens no session. -/
lemma Directed.handle (h : l.Directed node) {input : Mover.Input}
    (hother : ∀ command, input ≠ .command command) (hstep : l.handle input = .ok l') :
    l'.Directed node := by
  obtain ⟨m', out, hhandle, rfl⟩ := handle_eq_ok hstep
  refine ⟨h.consistent, h.name, Mover.attended_of_handle h.attended hhandle, fun n hleaves => ?_⟩
  refine h.targets n (MoverCommand.leavesAll_mono (fun hserving => ?_) hleaves)
  refine (Mover.serving_of_handle h.attended hhandle hserving).resolve_right ?_
  rintro ⟨range, viewId, hcommand⟩
  exact hother _ hcommand

lemma Directed.step (h : l.Directed node) {s : Step} (hstep : l.step s = .ok l') :
    l'.Directed node := by
  cases s with
  | engine a =>
    cases hstep
    refine ⟨h.consistent.react a, (Engine.self_react h.consistent a).trans h.name, h.attended,
      fun n hleaves => ?_⟩
    -- what waits leaves going on what the engine allowed before, and what it says now follows it
    rw [MoverCommand.leavesAll_append] at hleaves
    exact Engine.mayFeed_outputOn h.consistent (h.targets n) hleaves
  | command =>
    unfold MoverLink.step at hstep
    simp only at hstep
    split at hstep
    · cases hstep
      exact h
    · rename_i command rest hcommands
      obtain ⟨m', out, hhandle, rfl⟩ := handle_eq_ok hstep
      refine ⟨h.consistent, h.name, Mover.attended_of_handle h.attended hhandle,
        fun n hleaves => h.targets n ?_⟩
      rw [hcommands]
      exact MoverCommand.leavesAll_mono (Mover.serving_of_command h.attended hhandle) hleaves
  | frame src message => exact h.handle (fun _ heq => by cases heq) hstep
  | retry id => exact h.handle (fun _ heq => by cases heq) hstep
  | amid w =>
    cases hstep
    exact ⟨h.consistent, h.name,
      ⟨h.attended.tidy.amid w, h.attended.active, h.attended.listed⟩, h.targets⟩

theorem Directed.run (h : l.Directed node) {steps : List Step} (hrun : l.run steps = .ok l') :
    l'.Directed node :=
  foldlM_invariant (motive := fun l => l.Directed node) (fun _ _ _ hl hstep => hl.step hstep) h hrun

lemma directed_start (node : NodeId) (config : ReplicationConfig) (store : Store)
    (tuning : TransferConfig) (files : Store) (ids : IdSource) (c : BlockCompression.Compressor) :
    (start (.start node config store) (.start node tuning files ids c)).Directed node := by
  refine ⟨Engine.consistent_start node config store, rfl,
    Mover.attended_start node tuning files ids c, fun n hserving => ?_⟩
  obtain ⟨id, hid⟩ := hserving
  obtain ⟨s, hs, -⟩ := Mover.destination?_eq_some.1 hid
  cases (Mover.start_outbound node tuning files ids c id).symm.trans hs

/-- Whenever the mover has carried out all commands of the engine, every outbound session goes to
another member of the view that the engine has installed, and there is none while the engine's node
is no member itself. -/
theorem targets_at_rest (node : NodeId) (config : ReplicationConfig) (store : Store)
    (tuning : TransferConfig) (files : Store) (ids : IdSource) (c : BlockCompression.Compressor)
    (steps : List Step)
    (hrun : (start (.start node config store) (.start node tuning files ids c)).run steps = .ok l)
    (hrest : l.commands = []) :
    (∀ id s, l.mover.outbound.get? id = some s → ∃ r, l.engine.installed = some r ∧
        s.destination ∈ r.view.members ∧ s.destination ≠ node) ∧
      (l.engine.isMember = false → l.mover.outbound = ∅) := by
  have h := (directed_start node config store tuning files ids c).run hrun
  have hfeeds : ∀ id s, l.mover.outbound.get? id = some s → l.engine.MayFeed s.destination := by
    intro id s hs
    refine h.targets s.destination ?_
    rw [hrest]
    exact ⟨id, Mover.destination?_eq_some.2 ⟨s, hs, rfl⟩⟩
  refine ⟨fun id s hs => ?_, fun hstranger => SortedMap.eq_empty fun id => ?_⟩
  · obtain ⟨r, hr, -, hmember, hne⟩ := hfeeds id s hs
    exact ⟨r, hr, hmember, h.name ▸ hne⟩
  · refine Option.eq_none_iff_forall_ne_some.2 fun s hs => ?_
    obtain ⟨r, hr, hself, -⟩ := hfeeds id s hs
    have hmember := Engine.isMember_eq_true_iff.2 ⟨r, hr, hself⟩
    rw [hstranger] at hmember
    cases hmember

/-- A node whose engine and mover have just started. -/
def idle (node : NodeId) : MoverLink :=
  start (.start node {} (.ofList [])) (.start node {} (.ofList []) ⟨0, 0⟩)

open Engine in
/-- The second of two nodes brings a third one its data, and then the first one leaves. -/
def joined : List Step :=
  [.engine (.input (.bootstrap pair)),
    .engine (.input (.decided 1 (.reconfigure (ringOf 2 1 ["a", "b", "c"])))),
    .command, .frame (named "c") (.ack 1),
    .engine (.input (.decided 2 (.reconfigure (ringOf 3 2 ["b", "c"])))), .command]

open Engine in
/-- After that it leaves itself. -/
def left : List Step :=
  joined ++ [.engine (.input (.decided 3 (.reconfigure (ringOf 4 3 ["c"])))), .command]

open Engine in
/-- A session is open while the node is a member, and none is once it has left. -/
theorem targets_at_rest_joined :
    (∃ l, (idle (named "b")).run joined = .ok l ∧ l.commands = [] ∧
        l.mover.senderState? (named "c") = some .waiting ∧
        ∀ id s, l.mover.outbound.get? id = some s → ∃ r, l.engine.installed = some r ∧
          s.destination ∈ r.view.members ∧ s.destination ≠ named "b") ∧
      ∃ l, (idle (named "b")).run left = .ok l ∧ l.commands = [] ∧ l.mover.outbound = ∅ := by
  have hjoined :=
    targets_at_rest (named "b") {} (.ofList []) {} (.ofList []) ⟨0, 0⟩ .literal joined rfl rfl
  have hleft :=
    targets_at_rest (named "b") {} (.ofList []) {} (.ofList []) ⟨0, 0⟩ .literal left rfl rfl
  exact ⟨⟨_, rfl, rfl, rfl, hjoined.1⟩, _, rfl, rfl, hleft.2 rfl⟩

end MoverLink

end ReplicaRing
