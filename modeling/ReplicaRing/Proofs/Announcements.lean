import Mathlib.Data.List.Basic
import ReplicaRing.Proofs.DecidedNext

/-!
What an engine announces of its standing: each view that it goes over to, with its state, and that
it is caught up. A newer configuration and the end of a wait are all there is to announce,
`Engine.noticesIn_outputAt`. In a run the views that are announced, and likewise the ones that the
oracle is given, are those of the configurations that were newer than all before them, and the one
installed is the last, `Engine.installs_arrivals`. So they come in ascending order, and the states
are told apart by the membership and by what is awaited, `Engine.standing_of_run`.
-/

namespace ReplicaRing

/-- The view that an event announces. -/
def EngineEvent.view? : EngineEvent → Option View
  | viewInstalled view _ _ => some view
  | synced _ | response _ => none

namespace Engine

/-- The event among the outputs that an output is. -/
def Output.event? : Output → Option EngineEvent
  | .event told => some told
  | .log _ | .install _ | .mover _ => none

/-- The event that an output is, unless it is an answer. -/
def Output.notice? : Output → Option EngineEvent
  | .event (.viewInstalled view range state) => some (.viewInstalled view range state)
  | .event (.synced v) => some (.synced v)
  | .event (.response _) | .log _ | .install _ | .mover _ => none

/-- The view that an output gives the oracle. -/
def Output.view? : Output → Option View
  | .install view => some view
  | .event _ | .log _ | .mover _ => none

/-- The events for the router among some outputs. -/
def eventsIn (out : List Output) : List EngineEvent := out.filterMap Output.event?

/-- The events among some outputs that are no answers. -/
def noticesIn (out : List Output) : List EngineEvent := out.filterMap Output.notice?

/-- The views for the oracle among some outputs. -/
def viewsIn (out : List Output) : List View := out.filterMap Output.view?

/-- The views that are announced among some outputs. -/
def announcedIn (out : List Output) : List View := (eventsIn out).filterMap EngineEvent.view?

/-- What an engine says in a run. -/
def outputs (e : Engine) : List Arrival → List Output
  | [] => []
  | a :: rest => e.outputOn a ++ (e.react a).outputs rest

variable {e : Engine}

lemma eventsIn_append (out more : List Output) :
    eventsIn (out ++ more) = eventsIn out ++ eventsIn more := List.filterMap_append

lemma noticesIn_append (out more : List Output) :
    noticesIn (out ++ more) = noticesIn out ++ noticesIn more := List.filterMap_append

lemma viewsIn_append (out more : List Output) :
    viewsIn (out ++ more) = viewsIn out ++ viewsIn more := List.filterMap_append

lemma noticesIn_eq_nil {out : List Output} (h : ∀ o ∈ out, o.notice? = none) :
    noticesIn out = [] := List.filterMap_eq_nil_iff.2 h

lemma viewsIn_eq_nil {out : List Output} (h : ∀ o ∈ out, o.view? = none) : viewsIn out = [] :=
  List.filterMap_eq_nil_iff.2 h

lemma announcedIn_append (out more : List Output) :
    announcedIn (out ++ more) = announcedIn out ++ announcedIn more := by
  unfold announcedIn
  rw [eventsIn_append, List.filterMap_append]

/-- Answers announce nothing. -/
lemma announcedIn_eq (out : List Output) :
    announcedIn out = (noticesIn out).filterMap EngineEvent.view? := by
  unfold announcedIn eventsIn noticesIn
  rw [List.filterMap_filterMap, List.filterMap_filterMap]
  congr 1
  funext o
  cases o with
  | event event =>
    cases event with
    | viewInstalled view range state => rfl
    | synced v => rfl
    | response a => rfl
  | log request => rfl
  | install view => rfl
  | mover command => rfl

/-! ## A change of view -/

/-- What an engine announces when a configuration comes to it. Who joins and has nothing to wait for
is caught up at once. -/
def announcement (e : Engine) (r : Reconfigure) : List EngineEvent :=
  if e.isStale r then []
  else if !r.view.contains e.self then [.viewInstalled r.view r.responsibility .passive]
  else if e.isMember then [.viewInstalled r.view r.responsibility e.state]
  else .viewInstalled r.view r.responsibility .syncing ::
    if r.isFresh then [.synced r.view.id] else []

/-- Starting and stopping transfers concerns the mover alone. -/
lemma mover_of_mem_transfers {r : Reconfigure} {o : Output} (ho : o ∈ e.transfers r) :
    ∃ command, o = .mover command := by
  unfold transfers reassignTransfers at ho
  cases hi : e.installed with
  | none => simp [hi] at ho
  | some previous =>
    simp only [hi] at ho
    split at ho
    · split at ho
      · rcases List.mem_append.1 ho with hstop | hstart
        · obtain ⟨n, -, rfl⟩ := List.mem_map.1 hstop
          exact ⟨_, rfl⟩
        · split at hstart
          · cases hstart
          · obtain ⟨n, -, rfl⟩ := List.mem_map.1 hstart
            exact ⟨_, rfl⟩
      · exact ⟨_, List.mem_singleton.1 ho⟩
    · cases ho

/-- An engine that leaves a view answers what it held back, and says nothing else. -/
lemma respond_of_mem_move {r : Reconfigure} {wasMember : Bool} {o : Output}
    (ho : o ∈ (e.move r wasMember).2) : ∃ a, o = respond a := by
  unfold move at ho
  split at ho
  · obtain ⟨op, -, rfl⟩ := List.mem_map.1 ho
    exact ⟨_, rfl⟩
  · split at ho
    · cases ho
    · cases ho

lemma noticesIn_reconfigure (h : e.Consistent) (r : Reconfigure) :
    noticesIn (e.reconfigure r).2 = e.announcement r := by
  unfold announcement
  cases hstale : e.isStale r with
  | true =>
    rw [reconfigure_of_stale hstale, if_pos rfl]
    rfl
  | false =>
    have htransfers : noticesIn (e.transfers r) = [] := noticesIn_eq_nil fun o ho => by
      obtain ⟨command, rfl⟩ := mover_of_mem_transfers ho
      rfl
    have hmoved : noticesIn ((e.adopt r).move r e.isMember).2 = [] :=
      noticesIn_eq_nil fun o ho => by
        obtain ⟨a, rfl⟩ := respond_of_mem_move ho
        rfl
    have hinstall : ∀ out, noticesIn (.install r.view :: out) = noticesIn out := fun _ => rfl
    have hevent : ∀ state out,
        noticesIn (.event (.viewInstalled r.view r.responsibility state) :: out) =
          .viewInstalled r.view r.responsibility state :: noticesIn out := fun _ _ => rfl
    rw [reconfigure_of_new hstale, if_neg Bool.false_ne_true]
    simp only [noticesIn_append, htransfers, hinstall, hmoved, hevent, List.nil_append]
    have hself : (e.adopt r).self = e.self := rfl
    unfold move
    rw [hself]
    cases hmember : r.view.contains e.self with
    | false => rfl
    | true =>
      cases hold : e.isMember with
      | true =>
        -- a member that syncs goes on awaiting, so it is not caught up yet
        have hwait : (Decidable.decide (e.state = .syncing) && e.awaiting.isNone) = false := by
          by_contra hcaught
          rw [Bool.not_eq_false, Bool.and_eq_true, decide_eq_true_iff] at hcaught
          have hsome := h.syncing.1 hcaught.1
          rw [Option.isNone_iff_eq_none.1 hcaught.2] at hsome
          cases hsome
        have hcaughtUp : ((e.adopt r).catchUp true).2 = [] := by
          unfold catchUp
          rw [Bool.true_and]
          exact congrArg Prod.snd (if_neg (Bool.not_eq_true _ ▸ hwait))
        simp only [Bool.not_true, Bool.false_eq_true, if_false, if_true, hcaughtUp]
        rfl
      | false =>
        have hjoins : ((e.adopt r).join r).state = .syncing := if_pos (h.passive.2 hold)
        have hwaits : ((e.adopt r).join r).awaiting.isNone = r.isFresh := by
          show (if r.isFresh then none else some r.view.id).isNone = r.isFresh
          cases r.isFresh with
          | true => rfl
          | false => rfl
        simp only [Bool.not_true, Bool.not_false, Bool.false_eq_true, if_false, if_true, catchUp,
          hjoins, hwaits, Bool.true_and, decide_true]
        cases r.isFresh with
        | true => rfl
        | false => rfl

/-- A configuration that is newer than the installed one gives the oracle its view. -/
lemma viewsIn_reconfigure (e : Engine) (r : Reconfigure) :
    viewsIn (e.reconfigure r).2 = if e.isStale r then [] else [r.view] := by
  cases hstale : e.isStale r with
  | true =>
    rw [reconfigure_of_stale hstale]
    rfl
  | false =>
    have htransfers : viewsIn (e.transfers r) = [] := viewsIn_eq_nil fun o ho => by
      obtain ⟨command, rfl⟩ := mover_of_mem_transfers ho
      rfl
    have hmoved : viewsIn ((e.adopt r).move r e.isMember).2 = [] := viewsIn_eq_nil fun o ho => by
      obtain ⟨a, rfl⟩ := respond_of_mem_move ho
      rfl
    have hready : ∀ e' : Engine, viewsIn (e'.catchUp (r.view.contains e.self)).2 = [] := by
      intro e'
      unfold catchUp markReady
      split
      · cases e'.installed with
        | none => rfl
        | some r' => rfl
      · rfl
    have hinstall : ∀ out, viewsIn (.install r.view :: out) = r.view :: viewsIn out :=
      fun _ => rfl
    have hevent : ∀ event out, viewsIn (.event event :: out) = viewsIn out := fun _ _ => rfl
    rw [reconfigure_of_new hstale]
    simp only [viewsIn_append, htransfers, hinstall, hmoved, hevent, hready, List.nil_append,
      List.append_nil]
    rfl

/-! ## What a step announces -/

/-- What the end of a wait announces. -/
def syncedBy (e : Engine) : Step → List EngineEvent
  | .mover event =>
    if e.completedBy event then e.installed.toList.map fun r => .synced r.view.id else []
  | .hold _ _ | .value _ | .bootstrap _ | .oracle _ | .page _ => []

lemma syncedBy_mover (e : Engine) (event : MoverEvent) :
    e.syncedBy (.mover event) =
      if e.completedBy event then e.installed.toList.map fun r => .synced r.view.id else [] := rfl

/-- What a step announces. -/
def noticesAt (e : Engine) (s : Step) : List EngineEvent :=
  s.changes.flatMap e.announcement ++ e.syncedBy s

/-- The configurations of a step that are newer than the installed one. -/
def accepted (e : Engine) (s : Step) : List Reconfigure := s.changes.filter fun r => !e.isStale r

/-- Only the log hears of an applied position. -/
lemma log_of_mem_countApplied {o : Output} (ho : o ∈ e.countApplied.2) :
    ∃ request, o = .log request := by
  unfold countApplied at ho
  simp only at ho
  split at ho
  · exact ⟨_, List.mem_singleton.1 ho⟩
  · cases ho

/-- Executing operations answers each, and says nothing else. -/
lemma respond_of_mem_executeAll {ops : List Operation} {o : Output}
    (ho : o ∈ (e.executeAll ops).2) : ∃ a, o = respond a := by
  rw [executeAll_output] at ho
  obtain ⟨x, -, rfl⟩ := List.mem_map.1 ho
  exact ⟨_, rfl⟩

/-- An operation of the log is answered or held back. -/
lemma respond_of_mem_apply {op : Operation} {o : Output}
    (ho : o ∈ (e.apply (.operation op)).2) : ∃ a, o = respond a := by
  unfold apply at ho
  simp only at ho
  split at ho
  · cases ho
  · exact ⟨_, List.mem_singleton.1 ho⟩

/-- A completed transfer that ends a wait answers what was held back, and then announces that the
replica is caught up. -/
lemma handleMover_output (h : e.Consistent) (event : MoverEvent) :
    (e.handleMover event).2 =
      if e.completedBy event then
        (e.released.executeAll e.deferred).2 ++
          e.installed.toList.map fun r => .event (.synced r.view.id)
      else [] := by
  unfold completedBy
  cases event with
  | sendFinished session destination items bytes => simp [MoverEvent.completes, handleMover]
  | sendFailed session destination reason => simp [MoverEvent.completes, handleMover]
  | transferComplete session source metadata items bytes =>
    unfold handleMover
    cases ha : e.awaiting with
    | none => rfl
    | some v =>
      obtain ⟨r, hr, -⟩ := h.awaited v ha
      obtain ⟨store, executed, hexecute⟩ := e.released.executeAll_rest e.deferred
      have hstate : (e.released.executeAll e.deferred).1.state = .syncing := by
        rw [hexecute]
        exact h.syncing.2 (by rw [ha]; rfl)
      have hinstalled : (e.released.executeAll e.deferred).1.installed = some r := by
        rw [hexecute]
        exact hr
      have hreleased : ({ e with awaiting := none, deferred := [] } : Engine) = e.released := rfl
      have hcovers : (e.installed.any fun r => metadata.range.covers r.responsibility) =
          metadata.range.covers r.responsibility := by rw [hr]; rfl
      have hcompletes : (e.installed.any fun r =>
          MoverEvent.completes v r.responsibility
            (.transferComplete session source metadata items bytes)) =
          (!(metadata.viewId < v : Bool) && metadata.range.covers r.responsibility) := by
        rw [hr]
        rfl
      simp only [hcovers, Option.any_some, hcompletes, hreleased]
      generalize e.released.executeAll e.deferred = done at hstate hinstalled ⊢
      by_cases hlt : metadata.viewId < v
      · simp [hlt]
      · cases hc : metadata.range.covers r.responsibility with
        | false => simp
        | true => simp [hlt, hstate, markReady, hinstalled, hr]

lemma noticesIn_handleMover (h : e.Consistent) (event : MoverEvent) :
    noticesIn (e.handleMover event).2 = e.syncedBy (.mover event) := by
  have hanswers : noticesIn (e.released.executeAll e.deferred).2 = [] :=
    noticesIn_eq_nil fun o ho => by
      obtain ⟨a, rfl⟩ := respond_of_mem_executeAll ho
      rfl
  rw [handleMover_output h, syncedBy_mover]
  cases e.completedBy event with
  | false => rfl
  | true =>
    rw [if_pos rfl, if_pos rfl, noticesIn_append, hanswers]
    cases e.installed with
    | none => rfl
    | some r => rfl

/-- A step announces the view that it goes over to, if any, and the end of a wait. -/
theorem noticesIn_outputAt (h : e.Consistent) (s : Step) :
    noticesIn (e.outputAt s) = e.noticesAt s := by
  have hcount : ∀ e' : Engine, noticesIn e'.countApplied.2 = [] := fun e' =>
    noticesIn_eq_nil fun o ho => by
      obtain ⟨request, rfl⟩ := log_of_mem_countApplied ho
      rfl
  have hchange : ∀ r, e.announcement r = [r].flatMap e.announcement ++ [] := by simp
  cases s with
  | hold position value => rfl
  | oracle event => rfl
  | page items => rfl
  | bootstrap r => exact (noticesIn_reconfigure h r).trans (hchange r)
  | mover event => exact noticesIn_handleMover h event
  | value value =>
    show noticesIn ((e.apply value).2 ++ (e.apply value).1.countApplied.2) = _
    rw [noticesIn_append, hcount, List.append_nil]
    cases value with
    | noop => rfl
    | reconfigure r => exact (noticesIn_reconfigure h r).trans (hchange r)
    | operation op =>
      exact noticesIn_eq_nil fun o ho => by
        obtain ⟨a, rfl⟩ := respond_of_mem_apply ho
        rfl

/-- A step gives the oracle the view that it goes over to. -/
lemma viewsIn_outputAt (h : e.Consistent) (s : Step) :
    viewsIn (e.outputAt s) = (e.accepted s).map Reconfigure.view := by
  have hcount : ∀ e' : Engine, viewsIn e'.countApplied.2 = [] := fun e' =>
    viewsIn_eq_nil fun o ho => by
      obtain ⟨request, rfl⟩ := log_of_mem_countApplied ho
      rfl
  have hchange : ∀ r, (if e.isStale r then [] else [r.view]) =
      ([r].filter fun r => !e.isStale r).map Reconfigure.view := by
    intro r
    cases hstale : e.isStale r with
    | true => simp [hstale]
    | false => simp [hstale]
  cases s with
  | hold position value => rfl
  | oracle event => rfl
  | page items => rfl
  | bootstrap r => exact (e.viewsIn_reconfigure r).trans (hchange r)
  | mover event =>
    show viewsIn (e.handleMover event).2 = []
    rw [handleMover_output h]
    split
    · refine viewsIn_eq_nil fun o ho => ?_
      rcases List.mem_append.1 ho with hanswer | hsynced
      · obtain ⟨a, rfl⟩ := respond_of_mem_executeAll hanswer
        rfl
      · obtain ⟨r, -, rfl⟩ := List.mem_map.1 hsynced
        rfl
    · rfl
  | value value =>
    show viewsIn ((e.apply value).2 ++ (e.apply value).1.countApplied.2) = _
    rw [viewsIn_append, hcount, List.append_nil]
    cases value with
    | noop => rfl
    | reconfigure r => exact (e.viewsIn_reconfigure r).trans (hchange r)
    | operation op =>
      exact viewsIn_eq_nil fun o ho => by
        obtain ⟨a, rfl⟩ := respond_of_mem_apply ho
        rfl

/-- What a step announces are the views that the oracle is given. -/
lemma announcedIn_outputAt (h : e.Consistent) (s : Step) :
    announcedIn (e.outputAt s) = (e.accepted s).map Reconfigure.view := by
  have hsynced : (e.syncedBy s).filterMap EngineEvent.view? = [] := by
    rw [List.filterMap_eq_nil_iff]
    intro event hevent
    cases s with
    | mover completed =>
      rw [syncedBy_mover] at hevent
      split at hevent
      · obtain ⟨r, -, rfl⟩ := List.mem_map.1 hevent
        rfl
      · cases hevent
    | _ => cases hevent
  have hchange : ∀ r, (e.announcement r).filterMap EngineEvent.view? =
      if e.isStale r then [] else [r.view] := by
    intro r
    unfold announcement
    split
    · rfl
    · split
      · rfl
      · split
        · rfl
        · split
          · rfl
          · rfl
  rw [announcedIn_eq, noticesIn_outputAt h, noticesAt, List.filterMap_append, hsynced,
    List.append_nil, accepted, List.filterMap_flatMap]
  induction s.changes with
  | nil => rfl
  | cons r rest ih =>
    rw [List.flatMap_cons, hchange, ih, List.filter_cons]
    cases e.isStale r with
    | true => rfl
    | false => rfl

/-! ## Configurations in a run -/

/-- The configurations that are installed along some steps. -/
def acceptedAlong (e : Engine) : List Step → List Reconfigure
  | [] => []
  | s :: rest => e.accepted s ++ (e.step s).acceptedAlong rest

/-- The configurations that are installed in a run. -/
def installs (e : Engine) : List Arrival → List Reconfigure
  | [] => []
  | a :: rest => e.acceptedAlong (e.stepsOn a) ++ (e.react a).installs rest

/-- Configurations installed one after the other, each newer than the one before. -/
structure Succession (first : Option Reconfigure) (rs : List Reconfigure)
    (last : Option Reconfigure) : Prop where
  ascending : (first.toList ++ rs).Pairwise (·.view.id < ·.view.id)
  ends : last = (first.toList ++ rs).getLast?

lemma Succession.refl (installed : Option Reconfigure) : Succession installed [] installed := by
  cases installed with
  | none => exact ⟨List.Pairwise.nil, rfl⟩
  | some r => exact ⟨List.pairwise_singleton _ r, rfl⟩

lemma Succession.trans {first middle last : Option Reconfigure} {rs more : List Reconfigure}
    (h : Succession first rs middle) (h' : Succession middle more last) :
    Succession first (rs ++ more) last := by
  obtain ⟨hascending, rfl⟩ := h
  obtain ⟨hlater, rfl⟩ := h'
  rcases List.eq_nil_or_concat (first.toList ++ rs) with hnone | ⟨front, r, hlast⟩
  · obtain ⟨hfirst, rfl⟩ := List.append_eq_nil_iff.1 hnone
    rw [hnone] at hlater ⊢
    exact ⟨by rw [hfirst]; exact hlater, by rw [hfirst]; rfl⟩
  · rw [List.concat_eq_append] at hlast
    rw [hlast, List.getLast?_concat, Option.toList_some] at hlater ⊢
    rw [hlast] at hascending
    have hjoined : first.toList ++ (rs ++ more) = front ++ ([r] ++ more) := by
      rw [← List.append_assoc, hlast, List.append_assoc]
    refine ⟨?_, ?_⟩
    · rw [hjoined, List.pairwise_append]
      refine ⟨(List.pairwise_append.1 hascending).1, hlater, fun a ha b hb => ?_⟩
      have hlt : a.view.id < r.view.id :=
        (List.pairwise_append.1 hascending).2.2 a ha r (by simp)
      rcases List.mem_append.1 hb with hmiddle | hmore
      · obtain rfl := List.mem_singleton.1 hmiddle
        exact hlt
      · exact UInt64.lt_trans hlt ((List.pairwise_cons.1 hlater).1 b hmore)
    · rw [hjoined]
      exact (List.getLast?_append_cons front r more).symm

lemma Succession.tail {first last : Option Reconfigure} {r : Reconfigure} {rs : List Reconfigure}
    (h : Succession first (r :: rs) last) : Succession (some r) rs last := by
  obtain ⟨hascending, rfl⟩ := h
  exact ⟨(List.pairwise_append.1 hascending).2.1, List.getLast?_append_cons first.toList r rs⟩

lemma Succession.newer {current r : Reconfigure} {rs : List Reconfigure}
    {last : Option Reconfigure} (h : Succession (some current) (r :: rs) last) :
    current.view.id < r.view.id := (List.pairwise_cons.1 h.ascending).1 r List.mem_cons_self

/-- A configuration takes the place of the installed one if it is newer. -/
lemma succession_step (h : e.Consistent) (s : Step) :
    Succession e.installed (e.accepted s) (e.step s).installed := by
  unfold accepted
  rcases s.kinds with ⟨r, hr, -, -⟩ | ⟨op, rfl⟩ | ⟨event, rfl⟩ | ⟨hchanges, hoperations, hmover⟩
  · have hafter : (e.step s).installed = if e.isStale r then e.installed else some r := by
      rw [(standsAs_change h hr).installed, reconfigure_eq h]
      split
      · rfl
      · split
        · rfl
        · split
          · rfl
          · rfl
    rw [hr, hafter]
    cases hstale : e.isStale r with
    | true =>
      rw [List.filter_cons_of_neg (by simp [hstale])]
      exact .refl e.installed
    | false =>
      rw [List.filter_cons_of_pos (by simp [hstale])]
      cases hi : e.installed with
      | none => exact ⟨List.pairwise_singleton _ r, rfl⟩
      | some current =>
        have hnewer : current.view.id < r.view.id := by
          have hnot : ¬ r.view.id ≤ current.view.id := by simpa [isStale, hi] using hstale
          exact UInt64.not_le.1 hnot
        exact ⟨List.pairwise_pair.2 hnewer, rfl⟩
  · rw [(e.standsAs_operation op).installed]
    split
    · exact .refl _
    · exact .refl _
  · rw [(standsAs_mover h event).installed]
    split
    · exact .refl _
    · exact .refl _
  · rw [(standsAs_quiet (e := e) hchanges hoperations hmover).installed, hchanges]
    exact .refl _

lemma succession_follow (h : e.Consistent) (steps : List Step) :
    Succession e.installed (e.acceptedAlong steps) (e.follow steps).installed := by
  induction steps generalizing e with
  | nil => exact .refl e.installed
  | cons s rest ih => exact (succession_step h s).trans (ih (h.step s))

/-- The same of whatever comes to an engine. -/
lemma succession_react (h : e.Consistent) (a : Arrival) :
    Succession e.installed (e.acceptedAlong (e.stepsOn a)) (e.react a).installed := by
  obtain ⟨store, ha⟩ := e.react_eq a
  have hplace : (e.react a).installed = (e.follow (e.stepsOn a)).installed := by rw [ha]
  rw [hplace]
  exact succession_follow h _

/-- What an engine announces along some steps, and gives the oracle, are the views that it goes
over to. -/
lemma views_along (h : e.Consistent) (steps : List Step) :
    announcedIn (e.outputAlong steps) = (e.acceptedAlong steps).map Reconfigure.view ∧
      viewsIn (e.outputAlong steps) = (e.acceptedAlong steps).map Reconfigure.view := by
  induction steps generalizing e with
  | nil => exact ⟨rfl, rfl⟩
  | cons s rest ih =>
    obtain ⟨hannounced, hviews⟩ := ih (h.step s)
    show announcedIn (e.outputAt s ++ (e.step s).outputAlong rest) =
        (e.accepted s ++ (e.step s).acceptedAlong rest).map _ ∧
      viewsIn (e.outputAt s ++ (e.step s).outputAlong rest) =
        (e.accepted s ++ (e.step s).acceptedAlong rest).map _
    rw [announcedIn_append, viewsIn_append, List.map_append, hannounced, hviews,
      announcedIn_outputAt h, viewsIn_outputAt h]
    exact ⟨rfl, rfl⟩

/-- What an engine says on an arrival, apart from its word on a client's request, is what its steps
say. -/
lemma outputOn_eq (e : Engine) (a : Arrival) :
    e.outputOn a = e.outputAlong (e.stepsOn a) ∨
      e.stepsOn a = [] ∧ ∀ o ∈ e.outputOn a, (∃ answer, o = respond answer) ∨
        ∃ request, o = .log request := by
  cases a with
  | input input =>
    have hout := e.outputOfRun_eq [input]
    rw [stepsOfAll, stepsOfAll, List.append_nil] at hout
    exact .inl ((List.append_nil _).symm.trans hout)
  | submit op =>
    refine .inr ⟨rfl, fun o ho => ?_⟩
    have hsays : o ∈ e.submit op := ho
    unfold submit at hsays
    split at hsays
    · exact .inl ⟨_, List.mem_singleton.1 hsays⟩
    · exact .inr ⟨_, List.mem_singleton.1 hsays⟩
  | propose r =>
    refine .inr ⟨rfl, fun o ho => ?_⟩
    have hsays : o ∈ e.propose r := ho
    unfold propose at hsays
    split at hsays
    · exact .inr ⟨_, List.mem_singleton.1 hsays⟩
    · cases hsays
  | store store => exact .inl rfl

lemma views_on (h : e.Consistent) (a : Arrival) :
    announcedIn (e.outputOn a) = (e.acceptedAlong (e.stepsOn a)).map Reconfigure.view ∧
      viewsIn (e.outputOn a) = (e.acceptedAlong (e.stepsOn a)).map Reconfigure.view := by
  rcases e.outputOn_eq a with hsteps | ⟨hnone, hothers⟩
  · rw [hsteps]
    exact views_along h _
  · rw [hnone, announcedIn_eq]
    constructor
    · rw [noticesIn_eq_nil fun o ho => by obtain ⟨_, rfl⟩ | ⟨_, rfl⟩ := hothers o ho <;> rfl]
      rfl
    · rw [viewsIn_eq_nil fun o ho => by obtain ⟨_, rfl⟩ | ⟨_, rfl⟩ := hothers o ho <;> rfl]
      rfl

/-- An engine goes over to one configuration after the other, each newer than the one before, and
announces the view of each. -/
theorem installs_arrivals (h : e.Consistent) (arrivals : List Arrival) :
    Succession e.installed (e.installs arrivals) (e.course arrivals).installed ∧
      announcedIn (e.outputs arrivals) = (e.installs arrivals).map Reconfigure.view ∧
      viewsIn (e.outputs arrivals) = (e.installs arrivals).map Reconfigure.view := by
  induction arrivals generalizing e with
  | nil => exact ⟨.refl e.installed, rfl, rfl⟩
  | cons a rest ih =>
    obtain ⟨hlater, hannounced, hviews⟩ := ih (h.react a)
    obtain ⟨hannouncedNow, hviewsNow⟩ := views_on h a
    refine ⟨(succession_react h a).trans hlater, ?_, ?_⟩
    · show announcedIn (e.outputOn a ++ (e.react a).outputs rest) =
        (e.acceptedAlong (e.stepsOn a) ++ (e.react a).installs rest).map _
      rw [announcedIn_append, List.map_append, hannounced, hannouncedNow]
    · show viewsIn (e.outputOn a ++ (e.react a).outputs rest) =
        (e.acceptedAlong (e.stepsOn a) ++ (e.react a).installs rest).map _
      rw [viewsIn_append, List.map_append, hviews, hviewsNow]

/-! ## The states -/

/-- Whether the log is to be pruned once the next position is applied. -/
def pruneDue (e : Engine) : Prop := e.config.pruneInterval ≤ e.appliedSincePrune + 1

instance (e : Engine) : Decidable e.pruneDue := inferInstanceAs (Decidable (_ ≤ _))

/-- The engine one position further in the log, with nothing done about the value there. -/
def movedOn (e : Engine) : Engine :=
  { e with
    next := e.next + 1
    appliedSincePrune := if e.pruneDue then 0 else e.appliedSincePrune + 1 }

/-- What is said about a position as such. -/
def pruning (e : Engine) : List Output :=
  if e.pruneDue then [.log (.prune (UInt64.ofNat (e.next + 1)))] else []

/-- A configuration that is not newer than the installed one does no more than take up a position
of the log. -/
lemma decide_of_stale (hgap : e.AtGap) {r : Reconfigure} (hstale : e.isStale r = true)
    (hlast : e.held.get? (e.next + 1) = none) :
    e.decide e.next (.reconfigure r) = (e.movedOn, e.pruning) := by
  have hcount : e.countApplied = (e.movedOn, e.pruning) := e.countApplied_eq
  have hignored : e.apply (.reconfigure r) = (e, []) := reconfigure_of_stale hstale
  have hnext : e.movedOn.AtGap := hlast
  rw [decide_next hgap]
  simp only [hignored, hcount, applyHeld_of_gap _ hnext, List.nil_append, List.append_nil]

/-- The same of the step, whatever else is held. -/
lemma step_of_stale {r : Reconfigure} (hstale : e.isStale r = true) :
    e.step (.value (.reconfigure r)) = e.taken.movedOn ∧
      e.outputAt (.value (.reconfigure r)) = e.pruning := by
  have hcount : ∀ e' : Engine, e'.countApplied = (e'.movedOn, e'.pruning) := countApplied_eq
  have hignored : e.apply (.reconfigure r) = (e, []) := reconfigure_of_stale hstale
  have htaken : e.taken.apply (.reconfigure r) = (e.taken, []) := reconfigure_of_stale hstale
  constructor
  · show (e.taken.apply (.reconfigure r)).1.countApplied.1 = _
    rw [htaken, hcount]
  · show (e.apply (.reconfigure r)).2 ++ (e.apply (.reconfigure r)).1.countApplied.2 = _
    rw [hignored, hcount]
    rfl

lemma self_react (h : e.Consistent) (a : Arrival) : (e.react a).self = e.self := by
  obtain ⟨store, ha⟩ := e.react_eq a
  rw [ha]
  exact self_follow h _

lemma self_course (h : e.Consistent) (arrivals : List Arrival) :
    (e.course arrivals).self = e.self := by
  induction arrivals generalizing e with
  | nil => rfl
  | cons a rest ih => exact (ih (h.react a)).trans (self_react h a)

lemma isMember_eq_true_iff :
    e.isMember = true ↔ ∃ r, e.installed = some r ∧ e.self ∈ r.view.members := by
  unfold isMember
  cases e.installed with
  | none => simp
  | some r => simp [View.contains, SortedSet.contains_iff_mem]

lemma isMember_eq_false_iff :
    e.isMember = false ↔
      e.installed = none ∨ ∃ r, e.installed = some r ∧ e.self ∉ r.view.members := by
  unfold isMember
  cases e.installed with
  | none => simp
  | some r => simp [View.contains, ← SortedSet.contains_iff_mem]

lemma Consistent.operates_iff (h : e.Consistent) : e.state ≠ .passive ↔ e.isMember = true := by
  rw [ne_eq, h.passive, Bool.not_eq_false]

/-- A transfer is awaited by a member, for the installed view or an older one. -/
lemma Consistent.member_of_awaiting (h : e.Consistent) {v : UInt64} (hv : e.awaiting = some v) :
    ∃ r, e.installed = some r ∧ e.self ∈ r.view.members ∧ v ≤ r.view.id := by
  obtain ⟨r, hr, hle⟩ := h.awaited v hv
  have hstate : e.state = .syncing := h.syncing.2 (by rw [hv]; rfl)
  have hmember : e.isMember = true := h.operates_iff.1 (by rw [hstate]; simp)
  obtain ⟨r', hr', hin⟩ := isMember_eq_true_iff.1 hmember
  obtain rfl : r = r' := Option.some.inj (hr.symm.trans hr')
  exact ⟨r, hr, hin, hle⟩

lemma Consistent.ready_iff (h : e.Consistent) :
    e.state = .ready ↔ e.awaiting = none ∧ e.isMember = true := by
  rw [← h.operates_iff, ← Option.not_isSome_iff_eq_none, ← h.syncing]
  cases e.state with
  | passive => simp
  | syncing => simp
  | ready => simp

/-- After every arrival of a run, an engine is passive if no view is installed or it is no member of
it, syncing if it awaits a transfer, and ready otherwise; what it awaits belongs to a view that it
is a member of and is no newer than that. The views it announced have ascending numbers, and a
configuration that is not newer than the installed one, with the log or without it, changes nothing
but the place in the log. -/
theorem standing_of_run (self : NodeId) (config : ReplicationConfig) (store : Store)
    (arrivals : List Arrival) :
    let e := (start self config store).course arrivals
    (e.state = .passive ↔
        e.installed = none ∨ ∃ r, e.installed = some r ∧ self ∉ r.view.members) ∧
      (e.state = .syncing ↔ ∃ v, e.awaiting = some v) ∧
      (∀ v, e.awaiting = some v →
        ∃ r, e.installed = some r ∧ self ∈ r.view.members ∧ v ≤ r.view.id) ∧
      (e.state = .ready ↔
        e.awaiting = none ∧ ∃ r, e.installed = some r ∧ self ∈ r.view.members) ∧
      ((announcedIn ((start self config store).outputs arrivals)).map View.id).Pairwise (· < ·) ∧
      ∀ current r, e.installed = some current → r.view.id ≤ current.view.id →
        e.bootstrap r = (e, []) ∧
          (e.held.get? (e.next + 1) = none →
            e.decide e.next (.reconfigure r) = (e.movedOn, e.pruning)) ∧
          e.step (.value (.reconfigure r)) = e.taken.movedOn ∧
          e.outputAt (.value (.reconfigure r)) = e.pruning := by
  intro e
  have hstart := consistent_start self config store
  have h : e.Consistent := hstart.course arrivals
  have hgap : e.AtGap := (atGap_start self config store).course hstart arrivals
  have hself : e.self = self := self_course hstart arrivals
  refine ⟨?_, ?_, fun v hv => ?_, ?_, ?_, fun current r hcurrent hle => ?_⟩
  · rw [h.passive, isMember_eq_false_iff, hself]
  · rw [h.syncing, Option.isSome_iff_exists]
  · rw [← hself]
    exact h.member_of_awaiting hv
  · rw [h.ready_iff, isMember_eq_true_iff, hself]
  · obtain ⟨hsuccession, hannounced, -⟩ := installs_arrivals hstart arrivals
    rw [hannounced, List.map_map, List.pairwise_map]
    exact hsuccession.ascending
  · have hstale : e.isStale r = true := by
      unfold isStale
      rw [hcurrent]
      simpa using hle
    exact ⟨reconfigure_of_stale hstale, decide_of_stale hgap hstale, step_of_stale hstale⟩

end Engine

end ReplicaRing
