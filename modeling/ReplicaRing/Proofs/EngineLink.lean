import ReplicaRing.Proofs.Announcements
import ReplicaRing.Proofs.WaitingCallers

/-!
A router that follows an engine. The events of the engine wait in a queue, and the router takes
them one by one, amid requests, answers, reports of liveness and timeouts. Of all that a router
handles only these events change what it makes of the engine, `Router.outlook_handle`, and what
the engine says when it takes a step is just what brings such an outlook up to date,
`Engine.hears_outputAt`. So the outlook of the router, with the waiting events to come, is at all
times the engine's own, `EngineLink.followed_run`.
-/

namespace ReplicaRing

/-- What is known of an engine from outside: whether it is ready, and its configuration. -/
structure Outlook where
  ready : Bool
  view : Option View
  responsibility : Option KeyRange
  deriving DecidableEq

namespace Outlook

/-- Takes in an event. An engine that installs a view may go on being ready, but becomes so by
catching up only. -/
def hear (o : Outlook) : EngineEvent → Outlook
  | .viewInstalled view responsibility state =>
    ⟨state = .ready && o.ready, some view, some responsibility⟩
  | .synced _ => { o with ready := true }
  | .response _ => o

/-- Takes in the events among some outputs. -/
def hears (o : Outlook) (out : List Engine.Output) : Outlook := (Engine.eventsIn out).foldl hear o

lemma hears_append (o : Outlook) (out more : List Engine.Output) :
    o.hears (out ++ more) = (o.hears out).hears more := by
  unfold hears
  rw [Engine.eventsIn_append, List.foldl_append]

/-- Answers change nothing. -/
lemma hears_eq (o : Outlook) (out : List Engine.Output) :
    o.hears out = (Engine.noticesIn out).foldl hear o := by
  induction out generalizing o with
  | nil => rfl
  | cons first rest ih =>
    have hsplit : o.hears (first :: rest) = (o.hears [first]).hears rest :=
      o.hears_append [first] rest
    have hnotices : Engine.noticesIn (first :: rest) =
        Engine.noticesIn [first] ++ Engine.noticesIn rest := Engine.noticesIn_append [first] rest
    have hfirst : o.hears [first] = (Engine.noticesIn [first]).foldl hear o := by
      cases first with
      | event event =>
        cases event with
        | viewInstalled view range state => rfl
        | synced v => rfl
        | response a => rfl
      | log request => rfl
      | install view => rfl
      | mover command => rfl
    rw [hsplit, hnotices, List.foldl_append, hfirst, ih]

end Outlook

/-! ## The engine's own -/

namespace Engine

def outlook (e : Engine) : Outlook :=
  ⟨e.state = .ready, e.installed.map Reconfigure.view, e.installed.map Reconfigure.responsibility⟩

variable {e : Engine}

/-- What an engine announces of a change of view brings an outlook up to date. -/
lemma hear_announcement (h : e.Consistent) (r : Reconfigure) :
    (e.announcement r).foldl Outlook.hear e.outlook = (e.reconfigure r).1.outlook := by
  rw [reconfigure_eq h]
  unfold announcement
  by_cases hstale : e.isStale r = true
  · rw [if_pos hstale, if_pos hstale]
    rfl
  · rw [if_neg hstale, if_neg hstale]
    by_cases hleaves : (!r.view.contains e.self) = true
    · rw [if_pos hleaves, if_pos hleaves]
      rfl
    · rw [if_neg hleaves, if_neg hleaves]
      by_cases hmember : e.isMember = true
      · rw [if_pos hmember, if_pos hmember]
        simp [Outlook.hear, outlook]
      · rw [if_neg hmember, if_neg hmember]
        cases r.isFresh with
        | true => rfl
        | false => rfl

/-- Counting a position leaves the outlook alone. -/
lemma outlook_countApplied (e : Engine) : e.countApplied.1.outlook = e.outlook := by
  obtain ⟨_, _, hcount⟩ := e.countApplied_rest
  rw [hcount]
  rfl

/-- What an engine says when it takes a step brings an outlook up to date. -/
theorem hears_outputAt (h : e.Consistent) (s : Step) :
    e.outlook.hears (e.outputAt s) = (e.step s).outlook := by
  rw [Outlook.hears_eq, noticesIn_outputAt h]
  have hchange : ∀ r, ([r].flatMap e.announcement ++ []).foldl Outlook.hear e.outlook =
      (e.reconfigure r).1.outlook := by
    intro r
    rw [List.append_nil, List.flatMap_singleton]
    exact hear_announcement h r
  cases s with
  | hold position value => rfl
  | page items => rfl
  | oracle event =>
    cases event with
    | trust leader view => rfl
    | livenessChanged leader => rfl
  | bootstrap r => exact hchange r
  | mover event =>
    show (e.syncedBy (.mover event)).foldl Outlook.hear e.outlook = (e.handleMover event).1.outlook
    rw [handleMover_eq h, syncedBy_mover]
    by_cases hdone : e.completedBy event = true
    · obtain ⟨_, _, hexecute⟩ :=
        executeAll_rest { e with awaiting := none, deferred := [] } e.deferred
      rw [if_pos hdone, if_pos hdone, hexecute]
      unfold completedBy at hdone
      cases hi : e.installed with
      | none => simp [hi] at hdone
      | some r => simp [Outlook.hear, outlook, hi]
    · rw [if_neg hdone, if_neg hdone]
      rfl
  | value value =>
    show _ = (e.taken.apply value).1.countApplied.1.outlook
    rw [outlook_countApplied]
    cases value with
    | noop => rfl
    | reconfigure r =>
      have hmoved : (e.taken.reconfigure r).1.outlook = (e.reconfigure r).1.outlook := by
        unfold taken
        rw [reconfigure_withHeld]
        rfl
      exact (hchange r).trans hmoved.symm
    | operation op =>
      show e.outlook = _
      unfold apply
      simp only
      split
      · rfl
      · obtain ⟨_, _, hexecute⟩ := e.taken.execute_rest op
        rw [hexecute]
        rfl

lemma hears_outputAlong (h : e.Consistent) (steps : List Step) :
    e.outlook.hears (e.outputAlong steps) = (e.follow steps).outlook := by
  induction steps generalizing e with
  | nil => rfl
  | cons s rest ih =>
    show e.outlook.hears (e.outputAt s ++ (e.step s).outputAlong rest) = _
    rw [Outlook.hears_append, hears_outputAt h, ih (h.step s)]
    rfl

/-- The same of whatever comes to an engine. -/
theorem hears_outputOn (h : e.Consistent) (a : Arrival) :
    e.outlook.hears (e.outputOn a) = (e.react a).outlook := by
  obtain ⟨store, ha⟩ := e.react_eq a
  have hafter : (e.react a).outlook = (e.follow (e.stepsOn a)).outlook := by
    rw [ha]
    rfl
  rw [hafter]
  rcases e.outputOn_eq a with hsteps | ⟨hnone, hothers⟩
  · rw [hsteps]
    exact hears_outputAlong h _
  · rw [hnone, Outlook.hears_eq,
      noticesIn_eq_nil fun o ho => by obtain ⟨_, rfl⟩ | ⟨_, rfl⟩ := hothers o ho <;> rfl]
    rfl

end Engine

/-! ## The router's -/

namespace Router

def outlook (r : Router) : Outlook := ⟨r.state = .active, r.view, r.responsibility⟩

variable {r : Router}

/-- A request concerns the callers alone. -/
lemma request_rest (r : Router) (op : Operation) (reply : ReplyTo) :
    ∃ stats pending timers draws,
      (r.request op reply).1 = { r with stats, pending, timers, draws } := by
  have houtcome := r.requested op reply
  generalize r.request op reply = result at houtcome ⊢
  cases houtcome with
  | dropped hwaits => exact ⟨_, _, _, _, rfl⟩
  | refused reason hnew => exact ⟨_, _, _, _, rfl⟩
  | submitted paginate hnew => exact ⟨_, _, _, _, rfl⟩
  | forwarded peer draws hnew howner => exact ⟨_, _, _, _, rfl⟩

/-- So does an answer. -/
lemma respond_rest (r : Router) (a : Answer) :
    ∃ ids pending timers, (r.respond a).1 = { r with ids, pending, timers } := by
  have houtcome := r.responded a
  generalize r.respond a = result at houtcome ⊢
  cases houtcome with
  | unknown hp => exact ⟨_, _, _, rfl⟩
  | continued hp hresponse hpaginate => exact ⟨_, _, _, rfl⟩
  | answered response hp hnone => exact ⟨_, _, _, rfl⟩

lemma forwardTimeoutFired_rest (r : Router) (id : OperationId) :
    ∃ pending, (r.forwardTimeoutFired id).1 = { r with pending } := by
  have houtcome := r.timedOut id
  generalize r.forwardTimeoutFired id = result at houtcome ⊢
  cases houtcome with
  | nothing hlocal => exact ⟨_, rfl⟩
  | refused hp hpeer => exact ⟨_, rfl⟩

/-- Whether an input tells of the engine or of other nodes, not of callers. -/
def Input.isNews : Input → Bool
  | .liveness _ | .engine (.viewInstalled _ _ _) | .engine (.synced _) => true
  | .engine (.response _) | .request _ _ | .message _ | .statsTick | .forwardTimeout _ => false

/-- Everything that is no news concerns the callers alone. -/
lemma handle_rest (r : Router) {input : Input} (h : input.isNews = false) :
    ∃ ids stats pending timers draws,
      (r.handle input).1 = { r with ids, stats, pending, timers, draws } := by
  cases input with
  | request op reply =>
    obtain ⟨_, _, _, _, hrest⟩ := r.request_rest op reply
    exact ⟨_, _, _, _, _, hrest⟩
  | message m =>
    cases m with
    | forward op replyTo =>
      obtain ⟨_, _, _, _, hrest⟩ := r.request_rest op (.remote replyTo)
      exact ⟨_, _, _, _, _, hrest⟩
    | reply a =>
      obtain ⟨_, _, _, hrest⟩ := r.respond_rest a
      exact ⟨_, _, _, _, _, hrest⟩
    | _ => exact ⟨_, _, _, _, _, rfl⟩
  | liveness report => cases h
  | engine event =>
    cases event with
    | viewInstalled view range state => cases h
    | synced v => cases h
    | response a =>
      obtain ⟨_, _, _, hrest⟩ := respond_rest { r with stats := r.stats.recordDelta a.delta } a
      exact ⟨_, _, _, _, _, hrest⟩
  | statsTick => exact ⟨_, _, _, _, _, rfl⟩
  | forwardTimeout id =>
    obtain ⟨_, hrest⟩ := r.forwardTimeoutFired_rest id
    exact ⟨_, _, _, _, _, hrest⟩

/-- The router takes in what the engine tells it, and nothing else changes its outlook. -/
theorem outlook_handle (r : Router) (input : Input) :
    (r.handle input).1.outlook =
      match input with
      | .engine event => r.outlook.hear event
      | _ => r.outlook := by
  have hcallers : input.isNews = false → (r.handle input).1.outlook = r.outlook := by
    intro h
    obtain ⟨_, _, _, _, _, hrest⟩ := r.handle_rest h
    rw [hrest]
    rfl
  cases input with
  | request op reply => exact hcallers rfl
  | message m => exact hcallers rfl
  | statsTick => exact hcallers rfl
  | forwardTimeout id => exact hcallers rfl
  | liveness report =>
    cases report with
    | suspect n request => rfl
    | restore n request => rfl
  | engine event =>
    cases event with
    | synced v => rfl
    | response a => exact hcallers rfl
    | viewInstalled view range state =>
      show (⟨Decidable.decide ((if state = .ready then r.state else .forwarding) = .active), _, _⟩ :
        Outlook) = _
      cases state with
      | ready => rfl
      | passive => rfl
      | syncing => rfl

end Router

/-! ## Both -/

/-- Whether an event at the desk is one of the engine. -/
def Desk.Event.isEngine : Desk.Event → Bool
  | .input (.engine _) => true
  | .input (.request _ _) | .input (.message _) | .input (.liveness _) | .input .statsTick
  | .input (.forwardTimeout _) | .fire _ | .pass _ | .amid _ _ _ => false

/-- Nothing at the desk but an event of the engine changes the outlook. -/
lemma Desk.outlook_step (d : Desk) {event : Desk.Event} (h : event.isEngine = false) :
    (d.step event).router.outlook = d.router.outlook := by
  cases event with
  | input input =>
    refine (d.router.outlook_handle input).trans ?_
    cases input with
    | engine event => cases h
    | _ => rfl
  | fire id =>
    unfold Desk.step
    simp only
    split
    · rfl
    · rfl
  | pass span => rfl
  | amid ids placement placementFault => rfl

/-- An engine, its events that the router did not take yet, and the router. -/
structure EngineLink where
  engine : Engine
  events : List EngineEvent
  desk : Desk

namespace EngineLink

inductive Step where
  /-- The engine handles something, and its events join the queue. -/
  | engine (arrival : Engine.Arrival)
  /-- The router takes the oldest event. -/
  | event
  /-- The router handles something else, or time passes for it. -/
  | desk (event : Desk.Event) (h : event.isEngine = false)

def start (engine : Engine) (router : Router) : EngineLink := ⟨engine, [], .start router⟩

def step (l : EngineLink) : Step → EngineLink
  | .engine a =>
    { l with
      engine := l.engine.react a
      events := l.events ++ Engine.eventsIn (l.engine.outputOn a) }
  | .event =>
    match l.events with
    | [] => l
    | event :: rest => { l with events := rest, desk := l.desk.step (.input (.engine event)) }
  | .desk event _ => { l with desk := l.desk.step event }

def run (l : EngineLink) (steps : List Step) : EngineLink := steps.foldl step l

/-- The router will know what the engine is like once it has taken the waiting events. -/
structure Followed (l : EngineLink) : Prop where
  consistent : l.engine.Consistent
  outlook : l.events.foldl Outlook.hear l.desk.router.outlook = l.engine.outlook

variable {l : EngineLink}

lemma Followed.step (h : l.Followed) (s : Step) : (l.step s).Followed := by
  cases s with
  | engine a =>
    refine ⟨h.consistent.react a, ?_⟩
    show (l.events ++ Engine.eventsIn (l.engine.outputOn a)).foldl Outlook.hear
      l.desk.router.outlook = _
    -- what waits brings the router to the engine before the arrival, and what is said now to the
    -- engine after it
    rw [List.foldl_append, h.outlook]
    exact Engine.hears_outputOn h.consistent a
  | event =>
    unfold EngineLink.step
    simp only
    split
    · exact h
    · rename_i event rest hevents
      refine ⟨h.consistent, ?_⟩
      have hheard : (l.desk.step (.input (.engine event))).router.outlook =
          l.desk.router.outlook.hear event := l.desk.router.outlook_handle (.engine event)
      rw [hheard, ← h.outlook, hevents]
      rfl
  | desk event hother =>
    refine ⟨h.consistent, ?_⟩
    show l.events.foldl Outlook.hear (l.desk.step event).router.outlook = _
    rw [l.desk.outlook_step hother]
    exact h.outlook

theorem Followed.run (h : l.Followed) (steps : List Step) : (l.run steps).Followed := by
  induction steps generalizing l with
  | nil => exact h
  | cons s rest ih => exact ih (h.step s)

lemma followed_start (self : NodeId) (config : ReplicationConfig) (store : Store)
    (timeout : Duration) (placement : Placement) (ids : IdSource) (draws : Nat → Nat) :
    (start (.start self config store) (.start self timeout placement ids draws)).Followed :=
  ⟨Engine.consistent_start self config store, rfl⟩

/-- Whenever the router has taken all events of the engine, it is active if the engine is ready, and
not otherwise, and it has the view and the responsibility that the engine installed. -/
theorem follows_at_rest (self : NodeId) (config : ReplicationConfig) (store : Store)
    (timeout : Duration) (placement : Placement) (ids : IdSource) (draws : Nat → Nat)
    (steps : List Step)
    (hrun : l =
      (start (.start self config store) (.start self timeout placement ids draws)).run steps)
    (hrest : l.events = []) :
    (l.desk.router.state = .active ↔ l.engine.state = .ready) ∧
      l.desk.router.view = l.engine.installed.map Reconfigure.view ∧
      l.desk.router.responsibility = l.engine.installed.map Reconfigure.responsibility := by
  have h := (followed_start self config store timeout placement ids draws).run steps
  rw [← hrun] at h
  have hsame : l.desk.router.outlook = l.engine.outlook := by
    have houtlook := h.outlook
    rw [hrest] at houtlook
    exact houtlook
  obtain ⟨hready, hview, hrange⟩ := Outlook.mk.inj hsame
  exact ⟨decide_eq_decide.1 hready, hview, hrange⟩

namespace Rejoining

def a : NodeId := ⟨"a", 1, none⟩

def b : NodeId := ⟨"b", 1, none⟩

def initial : EngineLink :=
  start (.start a {} (.ofList [])) (.start a 5 (.ofList [([], [b])]) ⟨0, 1000⟩)

/-- A configuration of the log, for a range that holds no data yet. -/
def change (id : UInt64) (members : List NodeId) (range : KeyRange) : LogValue :=
  .reconfigure ⟨.ofList id members, 1, 0, range⟩

/-- The replica serves all keys alone, is removed and then joins again for some of the keys. The
router is told late, and a caller comes in between. -/
def happened : List Step :=
  [.engine (.input (.decided 1 (change 1 [a] (.halfOpen [] [9])))),
    .event, .event,
    .engine (.input (.decided 2 (change 2 [b] (.halfOpen [] [9])))),
    .desk (.input (.request ⟨10, .get [2]⟩ (.caller 0))) rfl,
    .engine (.input (.decided 3 (change 3 [a, b] (.halfOpen [1] [5])))),
    .event, .event, .event]

end Rejoining

open Rejoining in
/-- A router whose replica was removed and joined again serves the keys of the new configuration. -/
theorem follows_at_rest_rejoined :
    (initial.run happened).events = [] ∧
      (initial.run happened).desk.router.state = .active ∧
      (initial.run happened).desk.router.view = some (.ofList 3 [a, b]) ∧
      (initial.run happened).desk.router.responsibility = some (.halfOpen [1] [5]) := by
  have hrest : (initial.run happened).events = [] := rfl
  obtain ⟨hready, hview, hrange⟩ := follows_at_rest a {} (.ofList []) 5 _ _ _ happened rfl hrest
  exact ⟨hrest, hready.2 rfl, hview, hrange⟩

end EngineLink

end ReplicaRing
