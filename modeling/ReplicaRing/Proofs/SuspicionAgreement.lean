import Mathlib.Data.List.DropRight
import ReplicaRing.Proofs.EngineLink
import ReplicaRing.Proofs.ReportHistory

/-!
The suspicions of a router against the verdicts of the failure detector on its node. The engine
tells its views to the oracle and to the router, and the detector makes its reports to both of them,
each on a way of its own that keeps the order. The oracle ends and makes the subscriptions of the
detector as it takes the views. The router takes each report for what it says, whatever the
subscription, and forgets its suspicions of the nodes that a view leaves out, so what it suspects
depends on the order in which views and reports came to it, `Router.Accounted`.

With nothing on its way, the router suspects another member just if the detector takes it for dead,
unless the last report on the member was a suspicion and a view without the member came to the
router on the wrong side of it: after a suspicion under the present subscription, or before one
under a subscription that ended, `NodeLink.agree_iff`.
-/

namespace ReplicaRing

/-! ## What a router hears -/

/-- What a router hears of other nodes. -/
inductive Notice where
  | view (view : View)
  | report (report : LivenessReport)

namespace Notice

def report? : Notice → Option LivenessReport
  | report p => some p
  | view _ => none

/-- Whether a view without a node is told. -/
def lacks (n : NodeId) : Notice → Bool
  | view v => !v.contains n
  | report _ => false

end Notice

/-- The last report on a node that was heard. -/
def lastHeard (n : NodeId) (heard : List Notice) : Option LivenessReport :=
  lastOn n (heard.filterMap Notice.report?)

/-- What was heard after the last view without a node. -/
def sinceAbsent (n : NodeId) (heard : List Notice) : List Notice :=
  heard.rtakeWhile fun x => !x.lacks n

section

variable {n : NodeId} {heard : List Notice}

lemma lastHeard_report (p : LivenessReport) :
    lastHeard n (heard ++ [.report p]) = if p.node = n then some p else lastHeard n heard := by
  unfold lastHeard
  rw [List.filterMap_append]
  show lastOn n (heard.filterMap Notice.report? ++ [p]) = _
  rw [lastOn_append, lastOn_singleton]
  split
  · rfl
  · rfl

lemma lastHeard_view (v : View) : lastHeard n (heard ++ [.view v]) = lastHeard n heard := by
  unfold lastHeard
  rw [List.filterMap_append]
  exact congrArg (lastOn n) (List.append_nil _)

lemma sinceAbsent_report (p : LivenessReport) :
    sinceAbsent n (heard ++ [.report p]) = sinceAbsent n heard ++ [.report p] :=
  List.rtakeWhile_concat_pos _ _ _ rfl

lemma sinceAbsent_view (v : View) :
    sinceAbsent n (heard ++ [.view v]) =
      if v.contains n then sinceAbsent n heard ++ [.view v] else [] := by
  unfold sinceAbsent
  rw [List.rtakeWhile_concat]
  simp only [Notice.lacks, Bool.not_not]

/-- What was heard last since a view left a node out is the last thing heard, if there is any. -/
lemma lastHeard_sinceAbsent (n : NodeId) (heard : List Notice) :
    lastHeard n (sinceAbsent n heard) = none ∨
      lastHeard n (sinceAbsent n heard) = lastHeard n heard := by
  obtain ⟨before, hsplit⟩ := List.rtakeWhile_suffix (fun x => !Notice.lacks n x) (l := heard)
  have hlast : lastHeard n heard =
      (lastHeard n (sinceAbsent n heard)).or (lastHeard n before) := by
    conv_lhs => rw [← hsplit]
    unfold lastHeard
    rw [List.filterMap_append, lastOn_append]
    rfl
  cases h : lastHeard n (sinceAbsent n heard) with
  | none => exact .inl rfl
  | some p =>
    rw [h] at hlast
    exact .inr hlast.symm

end

namespace Router

/-- A router suspects the nodes that it heard suspicions of last, if no view left them out since. -/
def Accounted (r : Router) (heard : List Notice) : Prop :=
  ∀ n, n ∈ r.suspected ↔ ∃ request, lastHeard n (sinceAbsent n heard) = some (.suspect n request)

variable {r : Router} {heard : List Notice}

lemma Accounted.report (h : r.Accounted heard) (p : LivenessReport) :
    (r.handle (.liveness p)).1.Accounted (heard ++ [.report p]) := by
  intro n
  rw [sinceAbsent_report, lastHeard_report]
  cases p with
  | suspect m request =>
    show n ∈ r.suspected.insert m ↔ _
    rw [SortedSet.mem_insert, LivenessReport.node]
    by_cases hm : m = n
    · rw [if_pos hm, hm]
      exact iff_of_true (.inl rfl) ⟨request, rfl⟩
    · rw [if_neg hm, or_iff_right (Ne.symm hm)]
      exact h n
  | restore m request =>
    show n ∈ r.suspected.erase m ↔ _
    rw [SortedSet.mem_erase, LivenessReport.node]
    by_cases hm : m = n
    · rw [if_pos hm]
      refine iff_of_false (fun hin => hin.2 hm.symm) ?_
      rintro ⟨_, heq⟩
      cases heq
    · rw [if_neg hm, and_iff_left (Ne.symm hm)]
      exact h n

lemma Accounted.view (h : r.Accounted heard) (v : View) (range : KeyRange) (state : EngineState) :
    (r.handle (.engine (.viewInstalled v range state))).1.Accounted (heard ++ [.view v]) := by
  intro n
  show n ∈ r.suspected.filter v.contains ↔ _
  rw [SortedSet.mem_filter, sinceAbsent_view]
  cases v.contains n with
  | true =>
    rw [if_pos rfl, and_iff_left rfl, lastHeard_view]
    exact h n
  | false =>
    rw [if_neg (by simp)]
    refine iff_of_false (fun hin => by cases hin.2) ?_
    rintro ⟨_, heq⟩
    cases heq

/-- What is told of callers leaves the suspicions. -/
lemma Accounted.callers (h : r.Accounted heard) {input : Input} (hcallers : input.isNews = false) :
    (r.handle input).1.Accounted heard := by
  obtain ⟨_, _, _, _, _, hrest⟩ := r.handle_rest hcallers
  rw [hrest]
  exact h

/-- Of the events of an engine only a view counts. -/
lemma Accounted.engine (h : r.Accounted heard) (event : EngineEvent) :
    (r.handle (.engine event)).1.Accounted (heard ++ event.view?.toList.map .view) := by
  cases event with
  | viewInstalled v range state => exact h.view v range state
  | synced v =>
    show Accounted { r with state := .active } (heard ++ [])
    rw [List.append_nil]
    exact h
  | response a =>
    show (r.handle (.engine (.response a))).1.Accounted (heard ++ [])
    rw [List.append_nil]
    exact h.callers rfl

end Router

/-- Whether an event at the desk is a report of the detector. -/
def Desk.Event.isLiveness : Desk.Event → Bool
  | .input (.liveness _) => true
  | .input (.request _ _) | .input (.message _) | .input (.engine _) | .input .statsTick
  | .input (.forwardTimeout _) | .fire _ | .pass _ | .amid _ _ _ => false

lemma Desk.accounted_step {d : Desk} {heard : List Notice} (h : d.router.Accounted heard)
    {event : Desk.Event} (hengine : event.isEngine = false) (hliveness : event.isLiveness = false) :
    (d.step event).router.Accounted heard := by
  cases event with
  | input input =>
    refine Router.Accounted.callers h ?_
    cases input with
    | engine event => cases hengine
    | liveness report => cases hliveness
    | _ => rfl
  | fire id =>
    unfold Desk.step
    simp only
    split
    · exact h
    · exact h
  | pass span => exact h
  | amid ids placement placementFault => exact h

/-! ## The view of the oracle -/

/-- Whether a step gives the oracle a view. -/
def LivenessLink.Step.isInstall : LivenessLink.Step → Bool
  | .install _ => true
  | .draw _ | .inbound _ _ _ | .tick _ | .request _ | .report => false

lemma LivenessLink.view_step (l : LivenessLink) {s : Step} (h : s.isInstall = false) :
    (l.step s).oracle.view = l.oracle.view := by
  cases s with
  | install view => cases h
  | draw ids => rfl
  | inbound now src message => rfl
  | tick now => rfl
  | request now =>
    unfold step
    cases l.requests with
    | nil => rfl
    | cons q rest => rfl
  | report =>
    unfold step
    cases l.reports with
    | nil => rfl
    | cons p rest => exact l.oracle.view_liveness p

/-- The view that an oracle is in once it was given that of a configuration: none if it is empty. -/
def Reconfigure.watched? (r : Reconfigure) : Option View :=
  if r.view.isEmpty then none else some r.view

/-- What is on its way to an oracle are the views of the configurations that the engine went over to
since the one that the oracle was given last. -/
def Delivering (o : Oracle) (views : List View) (installed : Option Reconfigure) : Prop :=
  ∃ given rs, o.view = given.bind Reconfigure.watched? ∧ views = rs.map Reconfigure.view ∧
    Engine.Succession given rs installed

section

variable {o o' : Oracle} {views : List View} {installed : Option Reconfigure}

lemma Delivering.congr (h : Delivering o views installed) (hview : o'.view = o.view) :
    Delivering o' views installed := by
  obtain ⟨given, rs, ho, hviews, hsuccession⟩ := h
  exact ⟨given, rs, hview.trans ho, hviews, hsuccession⟩

/-- The oracle is given the next view, which is newer than the one it is in. -/
lemma Delivering.install {v : View} (h : Delivering o (v :: views) installed) :
    Delivering (o.install v).1 views installed := by
  obtain ⟨given, rs, hview, hviews, hsuccession⟩ := h
  cases rs with
  | nil => cases hviews
  | cons r rs =>
    obtain ⟨rfl, rfl⟩ := List.cons.inj hviews
    refine ⟨some r, rs, ?_, rfl, hsuccession.tail⟩
    have hnewer : o.view.any (r.view.id ≤ ·.id) = false := by
      rw [hview]
      cases given with
      | none => rfl
      | some current =>
        have hlt : current.view.id < r.view.id := hsuccession.newer
        show (current.watched?).any _ = false
        unfold Reconfigure.watched?
        split
        · rfl
        · simpa using hlt
    rw [Oracle.view_install, hnewer]
    rfl

end

/-! ## A node -/

/-- The engine, the router, the oracle and the failure detector of a node, and what is on its way
between them. -/
structure NodeLink where
  /-- The engine, its events on their way, and the router. -/
  follow : EngineLink
  /-- The oracle and the detector, and their requests and reports on their way. -/
  watch : LivenessLink
  /-- The views on their way from the engine to the oracle. -/
  views : List View
  /-- The reports on their way from the detector to the router. -/
  reports : List LivenessReport
  /-- What the router heard of other nodes so far. -/
  heard : List Notice

namespace NodeLink

inductive Step where
  /-- The engine handles something. -/
  | engine (arrival : Engine.Arrival)
  /-- The oldest view reaches the oracle. -/
  | view
  /-- The oracle and the detector go on otherwise. -/
  | watch (s : LivenessLink.Step) (h : s.isInstall = false)
  /-- The oldest event of the engine reaches the router. -/
  | event
  /-- The oldest report reaches the router. -/
  | report
  /-- The router handles something else, or time passes for it. -/
  | desk (event : Desk.Event) (hengine : event.isEngine = false)
    (hliveness : event.isLiveness = false)

def start (engine : Engine) (router : Router) (watch : LivenessLink) : NodeLink :=
  ⟨.start engine router, watch, [], [], []⟩

def step (n : NodeLink) : Step → NodeLink
  | .engine a =>
    { n with
      follow := n.follow.step (.engine a)
      views := n.views ++ Engine.viewsIn (n.follow.engine.outputOn a) }
  | .view =>
    match n.views with
    | [] => n
    | v :: rest => { n with views := rest, watch := n.watch.step (.install v) }
  | .watch s _ => { n with watch := n.watch.step s, reports := n.reports ++ n.watch.emits s }
  | .event =>
    { n with
      follow := n.follow.step .event
      heard := n.heard ++ (n.follow.events.head?.bind EngineEvent.view?).toList.map .view }
  | .report =>
    match n.reports with
    | [] => n
    | p :: rest =>
      { n with
        follow := n.follow.step (.desk (.input (.liveness p)) rfl)
        reports := rest
        heard := n.heard ++ [.report p] }
  | .desk event hengine _ => { n with follow := n.follow.step (.desk event hengine) }

def run (n : NodeLink) (steps : List Step) : NodeLink := steps.foldl step n

/-- Nothing is on its way. -/
structure AtRest (n : NodeLink) : Prop where
  events : n.follow.events = []
  views : n.views = []
  requests : n.watch.requests = []
  oracle : n.watch.reports = []
  router : n.reports = []

/-- All reports of the detector so far, as the router hears of them. -/
def told (n : NodeLink) : List LivenessReport := n.heard.filterMap Notice.report? ++ n.reports

/-- What holds on a node at all times. -/
structure Kept (n : NodeLink) (node : NodeId) : Prop where
  node : n.watch.oracle.self = node
  followed : n.follow.Followed
  accounted : n.follow.desk.router.Accounted n.heard
  delivering : Delivering n.watch.oracle n.views n.follow.engine.installed
  sound : n.watch.oracle.Sound
  recounted : n.watch.numbers.Nodup → n.watch.Tracked ∧ n.watch.Recounted n.told

variable {n : NodeLink} {node : NodeId}

/-- A step of the oracle or the detector, with the reports that it makes. -/
lemma Kept.watch (h : n.Kept node) (s : LivenessLink.Step) (hfresh : (n.watch.step s).numbers.Nodup) :
    (n.watch.step s).Tracked ∧ (n.watch.step s).Recounted (n.told ++ n.watch.emits s) := by
  have hbefore := hfresh.sublist (n.watch.numbers_step s).sublist
  obtain ⟨htracked, hrecounted⟩ := h.recounted hbefore
  exact ⟨LivenessLink.tracked_step htracked h.sound s hfresh,
    hrecounted.step htracked hbefore s⟩

/-- Every step keeps it. -/
theorem Kept.step (h : n.Kept node) (s : Step) : (n.step s).Kept node := by
  cases s with
  | engine a =>
    refine ⟨h.node, h.followed.step (.engine a), h.accounted, ?_, h.sound, h.recounted⟩
    -- the configurations that the engine goes over to now come after those on their way
    obtain ⟨given, rs, hview, hviews, hsuccession⟩ := h.delivering
    refine ⟨given, rs ++ _, hview, ?_,
      hsuccession.trans (Engine.succession_react h.followed.consistent a)⟩
    show n.views ++ Engine.viewsIn (n.follow.engine.outputOn a) = _
    rw [hviews, (Engine.views_on h.followed.consistent a).2, List.map_append]
  | view =>
    unfold NodeLink.step
    simp only
    split
    · exact h
    · rename_i v rest hviews
      have hdelivering := h.delivering
      rw [hviews] at hdelivering
      refine ⟨(Oracle.self_install ..).trans h.node, h.followed, h.accounted,
        hdelivering.install, h.sound.install v, fun hfresh => ?_⟩
      obtain ⟨htracked, hrecounted⟩ := h.watch (.install v) hfresh
      have hquiet : n.told ++ n.watch.emits (.install v) = n.told := List.append_nil _
      rw [hquiet] at hrecounted
      exact ⟨htracked, hrecounted⟩
  | watch s hs =>
    obtain ⟨hsound, hself⟩ := LivenessLink.sound_step h.sound s
    refine ⟨hself.trans h.node, h.followed, h.accounted,
      h.delivering.congr (n.watch.view_step hs), hsound, fun hfresh => ?_⟩
    obtain ⟨htracked, hrecounted⟩ := h.watch s hfresh
    unfold told at hrecounted
    rw [List.append_assoc] at hrecounted
    exact ⟨htracked, hrecounted⟩
  | event =>
    have htold : (n.step .event).told = n.told := by
      have hviews : ∀ vs : List View, (vs.map Notice.view).filterMap Notice.report? = [] := by
        intro vs
        rw [List.filterMap_eq_nil_iff]
        intro x hx
        obtain ⟨v, -, rfl⟩ := List.mem_map.1 hx
        rfl
      unfold told NodeLink.step
      simp only [List.filterMap_append, hviews, List.append_nil]
    refine ⟨h.node, h.followed.step .event, ?_, ?_, h.sound, fun hfresh => ?_⟩
    · unfold NodeLink.step EngineLink.step
      cases n.follow.events with
      | nil =>
        show n.follow.desk.router.Accounted (n.heard ++ [])
        rw [List.append_nil]
        exact h.accounted
      | cons event rest => exact h.accounted.engine event
    · unfold NodeLink.step EngineLink.step
      cases n.follow.events with
      | nil => exact h.delivering
      | cons event rest => exact h.delivering
    · rw [htold]
      exact h.recounted hfresh
  | report =>
    unfold NodeLink.step
    simp only
    split
    · exact h
    · rename_i p rest hreports
      refine ⟨h.node, h.followed.step (.desk (.input (.liveness p)) rfl), h.accounted.report p,
        h.delivering, h.sound, fun hfresh => ?_⟩
      obtain ⟨htracked, hrecounted⟩ := h.recounted hfresh
      -- the report is heard, and no longer on its way
      unfold told at hrecounted ⊢
      rw [hreports] at hrecounted
      rw [List.filterMap_append, List.append_assoc]
      exact ⟨htracked, hrecounted⟩
  | desk event hengine hliveness =>
    exact ⟨h.node, h.followed.step (.desk event hengine),
      Desk.accounted_step h.accounted hengine hliveness, h.delivering, h.sound, h.recounted⟩

theorem Kept.run (h : n.Kept node) (steps : List Step) : (n.run steps).Kept node := by
  induction steps generalizing n with
  | nil => exact h
  | cons s rest ih => exact ih (h.step s)

/-- With nothing on its way to the oracle or the router, both are in the view of the engine, and the
oracle is subscribed to the other members. -/
lemma Kept.subscribed (h : n.Kept node) (hrest : n.AtRest) {view : View}
    (hview : n.follow.desk.router.view = some view) {m : NodeId} (hm : m ∈ view.members)
    (hother : m ≠ node) : ∃ r, n.watch.oracle.subscriptions.get? m = some r := by
  have houtlook := h.followed.outlook
  rw [hrest.events] at houtlook
  have hinstalled : n.follow.engine.installed.map Reconfigure.view = some view :=
    (congrArg Outlook.view houtlook).symm.trans hview
  obtain ⟨r, hr, rfl⟩ := Option.map_eq_some_iff.1 hinstalled
  obtain ⟨given, rs, horacle, hviews, hsuccession⟩ := h.delivering
  rw [hrest.views] at hviews
  obtain rfl : rs = [] := List.map_eq_nil_iff.1 hviews.symm
  have hgiven : given = some r := by
    have hends := hsuccession.ends
    rw [hr, List.append_nil] at hends
    cases given with
    | none => cases hends
    | some current => exact hends.symm
  have hmembers : n.watch.oracle.members = r.view.members := by
    have hwatched : r.watched? = some r.view := by
      refine if_neg fun hempty => ?_
      have hnil : r.view.members.toList = [] := List.isEmpty_iff.1 hempty
      rw [← SortedSet.mem_toList, hnil] at hm
      cases hm
    unfold Oracle.members
    rw [horacle, hgiven, Option.bind_some, hwatched]
    rfl
  refine Option.ne_none_iff_exists'.1 ((h.sound.subscribed m).2 ⟨?_, hmembers ▸ hm⟩)
  exact fun heq => hother (heq.trans h.node)

/-- With nothing on its way, the detector takes a node that it watches for the oracle for dead just
if the router last heard a suspicion of it under the oracle's subscription. -/
lemma Kept.dead_iff (h : n.Kept node) (hrest : n.AtRest) (hfresh : n.watch.numbers.Nodup)
    {m : NodeId} {r : RequestId} (hr : n.watch.oracle.subscriptions.get? m = some r) :
    m ∉ n.watch.detector.live ↔ lastHeard m n.heard = some (.suspect m r) := by
  obtain ⟨htracked, hrecounted⟩ := h.recounted hfresh
  have htold : n.told = n.heard.filterMap Notice.report? := by
    unfold told
    rw [hrest.router, List.append_nil]
  -- the subscription reached the detector, since no request is on its way
  have hwatched : n.watch.detector.subscriptions.get? r = some m := by
    rcases htracked.followed m r hr with hpending | hactive
    · have hqueue := hpending.queued
      unfold LivenessLink.requestsOn at hqueue
      rw [hrest.requests] at hqueue
      cases hqueue
    · exact hactive.watched
  rw [hrecounted.verdict r m hwatched, htold]
  rfl

lemma kept_start (self : NodeId) (config : ReplicationConfig) (store : Store)
    (timeout : Duration) (placement : Placement) (ids oracleIds : IdSource) (draws : Nat → Nat)
    (detection : DetectorConfig) :
    (start (.start self config store) (.start self timeout placement ids draws)
      (.start self oracleIds detection)).Kept self where
  node := rfl
  followed := EngineLink.followed_start self config store timeout placement ids draws
  accounted m := iff_of_false (SortedSet.not_mem_empty m) (by rintro ⟨_, heq⟩; cases heq)
  delivering := ⟨none, [], rfl, rfl, .refl none⟩
  sound := Oracle.sound_start self oracleIds
  recounted _ := ⟨LivenessLink.tracked_start self oracleIds detection,
    LivenessLink.recounted_start self oracleIds detection⟩

/-- With nothing on its way, a router and the detector agree on another member of the router's view
just if, in case the last report on it that the router heard is a suspicion, no view without the
member was heard after the report exactly if the report is for the present subscription. -/
theorem agree_iff (self : NodeId) (config : ReplicationConfig) (store : Store)
    (timeout : Duration) (placement : Placement) (ids oracleIds : IdSource) (draws : Nat → Nat)
    (detection : DetectorConfig) (steps : List Step)
    (hrun : n = (start (.start self config store) (.start self timeout placement ids draws)
      (.start self oracleIds detection)).run steps)
    (hrest : n.AtRest) (hfresh : n.watch.numbers.Nodup) {view : View}
    (hview : n.follow.desk.router.view = some view) {m : NodeId} (hm : m ∈ view.members)
    (hother : m ≠ self) :
    (m ∈ n.follow.desk.router.suspected ↔ m ∉ n.watch.detector.live) ↔
      ∀ r, lastHeard m n.heard = some (.suspect m r) →
        (lastHeard m (sinceAbsent m n.heard) ≠ none ↔
          n.watch.oracle.subscriptions.get? m = some r) := by
  have h := (kept_start self config store timeout placement ids oracleIds draws detection).run steps
  rw [← hrun] at h
  obtain ⟨current, hcurrent⟩ := h.subscribed hrest hview hm hother
  rw [h.dead_iff hrest hfresh hcurrent, h.accounted m]
  have hsince := lastHeard_sinceAbsent m n.heard
  constructor
  · intro hagree r hlast
    constructor
    · intro hheard
      have hsuspected := hagree.1 ⟨r, (hsince.resolve_left hheard).trans hlast⟩
      rw [hlast, Option.some_inj] at hsuspected
      rw [hcurrent, (LivenessReport.suspect.inj hsuspected).2]
    · intro hr
      obtain rfl : current = r := Option.some.inj (hcurrent.symm.trans hr)
      obtain ⟨_, hheard⟩ := hagree.2 hlast
      rw [hheard]
      simp
  · intro hside
    constructor
    · rintro ⟨r, hheard⟩
      have hne : lastHeard m (sinceAbsent m n.heard) ≠ none := by
        rw [hheard]
        simp
      have hlast : lastHeard m n.heard = some (.suspect m r) :=
        (hsince.resolve_left hne).symm.trans hheard
      have hr := (hside r hlast).1 hne
      rw [hlast, Option.some.inj (hcurrent.symm.trans hr)]
    · intro hlast
      have hne := (hside current hlast).2 hcurrent
      exact ⟨current, (hsince.resolve_left hne).trans hlast⟩

namespace Readmission

def a : NodeId := ⟨"a", 1, none⟩

def b : NodeId := ⟨"b", 1, none⟩

def initial : NodeLink :=
  start (.start a {} (.ofList [])) (.start a 5 (.ofList [([], [a])]) ⟨0, 1000⟩)
    (.start a ⟨0, 0⟩ {})

def change (id : UInt64) (members : List NodeId) : LogValue :=
  .reconfigure ⟨.ofList id members, 1, 1, .full⟩

/-- Both nodes are members, and this one waits for its data. The router and the oracle are told, and
the other node is watched. -/
def joined : List Step :=
  [.engine (.input (.decided 1 (change 1 [a, b]))), .event, .view, .watch (.request 0) rfl]

/-- Nothing is heard of the other node for two rounds, and it is suspected. -/
def silence : List Step := [.watch (.tick 0) rfl, .watch (.tick 0) rfl, .report]

/-- The other node is removed, and the router is told of that before the detector. -/
def removed : List Step := [.engine (.input (.decided 2 (change 2 [a]))), .event]

/-- The oracle ends its subscription, and then the other node is a member again and watched anew. -/
def readmitted : List Step :=
  [.view, .watch .report rfl, .watch (.request 0) rfl,
    .engine (.input (.decided 3 (change 3 [a, b]))), .view, .watch (.request 0) rfl, .event]

/-- The node after a silence of the other one. -/
def silent : NodeLink := initial.run (joined ++ silence ++ [.watch .report rfl])

/-- The node after a silence that falls into the removal. -/
def confused : NodeLink := initial.run (joined ++ removed ++ silence ++ readmitted)

end Readmission

open Readmission in
/-- After a silence both suspect the other node, under the present subscription. -/
theorem agree_iff_silent : silent.AtRest ∧ b ∉ silent.watch.detector.live ∧
    (b ∈ silent.follow.desk.router.suspected ↔ b ∉ silent.watch.detector.live) := by
  have hrest : silent.AtRest := ⟨rfl, rfl, rfl, rfl, rfl⟩
  have hdead : silent.watch.detector.live.contains b = false := rfl
  have hrun : silent = initial.run (joined ++ silence ++ [.watch .report rfl]) := rfl
  have hnumbers : silent.watch.numbers = [1] := rfl
  have hfresh : silent.watch.numbers.Nodup := by
    rw [hnumbers]
    decide
  have hview : silent.follow.desk.router.view = some (.ofList 1 [a, b]) := rfl
  have hmember : b ∈ (View.ofList 1 [a, b]).members := SortedSet.contains_iff_mem.1 rfl
  have hagree := agree_iff a {} (.ofList []) 5 (.ofList [([], [a])]) ⟨0, 1000⟩ ⟨0, 0⟩
    (fun _ => 0) {} _ hrun hrest hfresh hview hmember (by decide)
  have hlast : lastHeard b silent.heard =
      (silent.watch.oracle.subscriptions.get? b).map (.suspect b) := rfl
  have hheard : (lastHeard b (sinceAbsent b silent.heard)).isSome = true := rfl
  refine ⟨hrest, fun hlive => ?_, hagree.2 fun r hr => ?_⟩
  · rw [SortedSet.contains_iff_mem.2 hlive] at hdead
    cases hdead
  · rw [hlast] at hr
    obtain ⟨r', hr', heq⟩ := Option.map_eq_some_iff.1 hr
    rw [hr', (LivenessReport.suspect.inj heq).2]
    exact iff_of_true (Option.isSome_iff_ne_none.1 hheard) rfl

open Readmission in
/-- A suspicion under a subscription that ended stays with the router when the node is back, and the
detector takes it for live. A caller is not sent on to it. -/
theorem disagree_confused : confused.AtRest ∧ confused.watch.numbers.Nodup ∧
    confused.follow.desk.router.view = some (.ofList 3 [a, b]) ∧
    b ∈ (View.ofList 3 [a, b]).members ∧ b ≠ a ∧
    b ∈ confused.follow.desk.router.suspected ∧ b ∈ confused.watch.detector.live ∧
    (confused.follow.desk.router.handle (.request ⟨10, .get [0x61]⟩ (.caller 0))).2 =
      [.answer 0 (.unchanged 10 (.unavailable "no live replica"))] := by
  have hnumbers : confused.watch.numbers = [1, 2] := rfl
  have hsuspected : confused.follow.desk.router.suspected.contains b = true := rfl
  have hlive : confused.watch.detector.live.contains b = true := rfl
  refine ⟨⟨rfl, rfl, rfl, rfl, rfl⟩, ?_, rfl, SortedSet.contains_iff_mem.1 rfl, by decide,
    SortedSet.contains_iff_mem.1 hsuspected, SortedSet.contains_iff_mem.1 hlive, rfl⟩
  rw [hnumbers]
  decide

end NodeLink

end ReplicaRing
