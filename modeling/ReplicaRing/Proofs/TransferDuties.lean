import Mathlib.Data.List.Nodup
import ReplicaRing.Proofs.EngineOutputs
import ReplicaRing.Proofs.RingNeighbours
import ReplicaRing.Proofs.Standing

/-!
Who brings a joining member its data, and when. A member that stays owes the data to each new
member whose predecessor in the previous view it is, and a change of view starts exactly these
transfers, `Engine.sendsTo_reconfigure`. So a new member is fed by one replica if its predecessor
stays, and by none if it leaves, `Engine.fed_once_iff`; the duties themselves are shared out so that
each new member falls to one member of the previous view, `Engine.newlyResponsible_partition`.
Whether the replica has its own data by then plays no part, and in a run a replica that is still
waiting for them feeds others if it owes them anything, `Engine.sends_ready_iff`.
-/

namespace ReplicaRing

/-- What makes a member of a view bring a node the data of the next configuration: the member stays,
the range holds data, and the node is new and comes right after the member on the ring. -/
structure Duty (member : NodeId) (previous : View) (r : Reconfigure) (n : NodeId) : Prop where
  stays : member ∈ r.view.members
  data : r.versionId ≠ 0
  joins : n ∈ r.view.members
  stranger : n ∉ previous.members
  neighbour : previous.predecessor? n = some member

namespace Engine

/-- The command for the mover that an output is. -/
def Output.command? : Output → Option MoverCommand
  | .mover command => some command
  | .log _ | .install _ | .event _ => none

/-- The commands for the mover among some outputs. -/
def commandsIn (out : List Output) : List MoverCommand := out.filterMap Output.command?

/-- Whether an output starts a transfer to a node. -/
def Output.startsTo (n : NodeId) : Output → Bool
  | .mover (.startSend m _ _) => m == n
  | .mover (.stopSend _) | .mover .stopAll | .log _ | .install _ | .event _ => false

/-- The transfers to a node that are started among some outputs. -/
def sendsTo (n : NodeId) (out : List Output) : List Output := out.filter (Output.startsTo n)

/-- The transfer of a configuration's data to a node. -/
def feeding (r : Reconfigure) (n : NodeId) : Output :=
  .mover (.startSend n r.responsibility r.view.id)

/-- An engine owes a node the data of a configuration that is newer than its own. -/
def Owes (e : Engine) (r : Reconfigure) (n : NodeId) : Prop :=
  ∃ previous, e.view? = some previous ∧ previous.id < r.view.id ∧ Duty e.self previous r n

variable {e : Engine} {r : Reconfigure} {n : NodeId}

lemma sendsTo_append (n : NodeId) (out more : List Output) :
    sendsTo n (out ++ more) = sendsTo n out ++ sendsTo n more := List.filter_append ..

lemma sendsTo_eq_nil {out : List Output} (h : ∀ o ∈ out, Output.startsTo n o = false) :
    sendsTo n out = [] := by
  unfold sendsTo
  rw [List.filter_eq_nil_iff]
  intro o ho
  rw [h o ho]
  simp

/-- What transfers are started depends on the commands alone. -/
lemma sendsTo_eq (n : NodeId) (out : List Output) :
    sendsTo n out = sendsTo n ((commandsIn out).map .mover) := by
  induction out with
  | nil => rfl
  | cons o out ih =>
    cases o with
    | mover command =>
      have hsplit : ∀ rest, sendsTo n (.mover command :: rest) =
          sendsTo n [.mover command] ++ sendsTo n rest := sendsTo_append n [.mover command]
      rw [hsplit, ih]
      exact (hsplit _).symm
    | log request => exact ih
    | install view => exact ih
    | event event => exact ih

lemma sendsTo_congr {out more : List Output} (h : commandsIn out = commandsIn more) :
    sendsTo n out = sendsTo n more := by rw [sendsTo_eq, sendsTo_eq n more, h]

/-- Of different nodes that are fed one at most is the one in question. -/
lemma sendsTo_feeding {nodes : List NodeId} (hnodup : nodes.Nodup) :
    sendsTo n (nodes.map (feeding r)) = if n ∈ nodes then [feeding r n] else [] := by
  have hfilter : nodes.filter (Output.startsTo n ∘ feeding r) = nodes.filter (· == n) := rfl
  unfold sendsTo
  rw [List.filter_map, hfilter, List.filter_beq, hnodup.count]
  split
  · rfl
  · rfl

/-! ## The commands of a step -/

lemma commandsIn_append (out more : List Output) :
    commandsIn (out ++ more) = commandsIn out ++ commandsIn more := List.filterMap_append

lemma commandsIn_map {α : Type} (f : α → MoverCommand) (l : List α) :
    commandsIn (l.map fun a => .mover (f a)) = l.map f := by
  unfold commandsIn
  rw [List.filterMap_map]
  exact congrFun List.filterMap_eq_map' l

lemma commandsIn_respond (answers : List Answer) : commandsIn (answers.map respond) = [] := by
  unfold commandsIn
  rw [List.filterMap_map]
  exact List.filterMap_eq_nil_iff.2 fun _ _ => rfl

/-- Leaving, joining or staying commands nothing. -/
lemma commandsIn_move (e : Engine) (r : Reconfigure) (wasMember : Bool) :
    commandsIn (e.move r wasMember).2 = [] := by
  unfold move retire
  cases r.view.contains e.self with
  | false =>
    refine List.filterMap_eq_nil_iff.2 fun o ho => ?_
    obtain ⟨op, -, rfl⟩ := List.mem_map.1 ho
    rfl
  | true =>
    cases wasMember with
    | false => rfl
    | true => rfl

lemma commandsIn_markReady (e : Engine) : commandsIn e.markReady.2 = [] := by
  unfold markReady
  cases e.installed with
  | none => rfl
  | some r => rfl

lemma commandsIn_catchUp (e : Engine) (member : Bool) : commandsIn (e.catchUp member).2 = [] := by
  unfold catchUp
  split
  · exact commandsIn_markReady e
  · rfl

lemma commandsIn_reconfigure (e : Engine) (r : Reconfigure) :
    commandsIn (e.reconfigure r).2 = if e.isStale r then [] else commandsIn (e.transfers r) := by
  cases hstale : e.isStale r with
  | true =>
    rw [reconfigure_of_stale hstale]
    rfl
  | false =>
    have hinstall : ∀ out, commandsIn (.install r.view :: out) = commandsIn out := fun _ => rfl
    have hevent : ∀ event out, commandsIn (.event event :: out) = commandsIn out := fun _ _ => rfl
    rw [reconfigure_of_new hstale]
    simp only [commandsIn_append, commandsIn_move, hinstall, hevent, commandsIn_catchUp,
      List.append_nil]
    rfl

lemma executeAll_answers (e : Engine) (ops : List Operation) :
    ∃ answers : List Answer, (e.executeAll ops).2 = answers.map respond := by
  induction ops generalizing e with
  | nil => exact ⟨[], rfl⟩
  | cons op ops ih =>
    obtain ⟨answers, hrest⟩ := ih (e.execute op).1
    refine ⟨(e.execute op).2 :: answers, ?_⟩
    rw [List.map_cons, ← hrest]
    rfl

/-- An event of the mover commands nothing. -/
lemma commandsIn_handleMover (e : Engine) (event : MoverEvent) :
    commandsIn (e.handleMover event).2 = [] := by
  cases event with
  | sendFinished session destination items bytes => rfl
  | sendFailed session destination reason => rfl
  | transferComplete session source metadata items bytes =>
    unfold handleMover
    cases e.awaiting with
    | none => rfl
    | some awaited =>
      simp only
      split
      · rfl
      · obtain ⟨answers, hanswers⟩ :=
          executeAll_answers { e with awaiting := none, deferred := [] } e.deferred
        split
        · simp only [hanswers, commandsIn_append, commandsIn_respond, commandsIn_markReady,
            List.append_nil]
        · simp only [hanswers, commandsIn_respond]

lemma commandsIn_countApplied (e : Engine) : commandsIn e.countApplied.2 = [] := by
  unfold countApplied
  simp only
  split
  · rfl
  · rfl

/-- A step commands what the change of view does that it brings. -/
lemma commandsIn_outputAt_change {s : Step} (hs : s.changes = [r]) :
    commandsIn (e.outputAt s) = commandsIn (e.reconfigure r).2 := by
  cases s with
  | bootstrap r' =>
    cases hs
    rfl
  | value value =>
    cases value with
    | reconfigure r' =>
      cases hs
      show commandsIn ((e.reconfigure r).2 ++ _) = _
      rw [commandsIn_append, commandsIn_countApplied, List.append_nil]
    | noop => cases hs
    | operation op => cases hs
  | hold position value => cases hs
  | oracle event => cases hs
  | mover event => cases hs
  | page items => cases hs

/-- A step that brings no change of view commands nothing. -/
lemma commandsIn_outputAt_quiet {s : Step} (hs : s.changes = []) :
    commandsIn (e.outputAt s) = [] := by
  cases s with
  | hold position value => rfl
  | oracle event => rfl
  | page items => rfl
  | mover event => exact e.commandsIn_handleMover event
  | bootstrap r => cases hs
  | value value =>
    show commandsIn ((e.apply value).2 ++ _) = []
    rw [commandsIn_append, commandsIn_countApplied, List.append_nil]
    cases value with
    | noop => rfl
    | reconfigure r => cases hs
    | operation op =>
      unfold apply
      simp only
      split
      · rfl
      · rfl

/-! ## A change of view -/

/-- The nodes to feed are the new ones that come right after a member on the ring. -/
theorem mem_newlyResponsible {self : NodeId} {previous next : View} :
    n ∈ newlyResponsible self previous next ↔
      n ∈ next.members ∧ n ∉ previous.members ∧ previous.predecessor? n = some self := by
  unfold newlyResponsible
  cases hs : previous.successor? self with
  | none =>
    simp only [List.not_mem_nil, false_iff, not_and]
    intro _ hstranger hp
    obtain ⟨s, hs', -⟩ := (View.between_successor_iff hstranger).2 hp
    rw [hs] at hs'
    cases hs'
  | some s =>
    rw [List.mem_filter, SortedSet.mem_toList, View.added, SortedSet.mem_diff]
    constructor
    · rintro ⟨⟨hn, hstranger⟩, harc⟩
      rw [Bool.and_eq_true] at harc
      exact ⟨hn, hstranger, (View.between_successor_iff hstranger).1 ⟨s, hs, harc.2⟩⟩
    · rintro ⟨hn, hstranger, hp⟩
      obtain ⟨s', hs', hbetween⟩ := (View.between_successor_iff hstranger).2 hp
      obtain rfl : s = s' := Option.some.inj (hs.symm.trans hs')
      -- the member itself is no new one
      have hne : n ≠ self := fun heq => hstranger (heq ▸ (View.free_of_predecessor hp).1)
      exact ⟨⟨hn, hstranger⟩, by simp [hne, hbetween]⟩

lemma nodup_newlyResponsible (self : NodeId) (previous next : View) :
    (newlyResponsible self previous next).Nodup := by
  unfold newlyResponsible
  cases previous.successor? self with
  | none => exact List.nodup_nil
  | some s => exact (next.added previous).nodup_toList.sublist List.filter_sublist

/-- A member that goes over to the next configuration starts a transfer to each node that it has a
duty to, and to no other. -/
lemma sendsTo_reassign {self : NodeId} {previous next : Reconfigure} :
    (Duty self previous.view next n →
        sendsTo n (reassignTransfers self previous next) = [feeding next n]) ∧
      (¬ Duty self previous.view next n →
        sendsTo n (reassignTransfers self previous next) = []) := by
  have hstops : ∀ nodes : List NodeId,
      sendsTo n (nodes.map fun m => Output.mover (.stopSend m)) = [] := fun nodes =>
    sendsTo_eq_nil (by simp [Output.startsTo])
  unfold reassignTransfers
  by_cases hstays : next.view.contains self = true
  · rw [if_pos hstays]
    simp only [sendsTo_append, hstops, List.nil_append]
    by_cases hdata : next.versionId = 0
    · rw [if_pos hdata]
      exact ⟨fun h => absurd hdata h.data, fun _ => rfl⟩
    · rw [if_neg hdata]
      have hduty : Duty self previous.view next n ↔
          n ∈ newlyResponsible self previous.view next.view := by
        rw [mem_newlyResponsible]
        exact ⟨fun h => ⟨h.joins, h.stranger, h.neighbour⟩, fun ⟨hjoins, hstranger, hp⟩ =>
          ⟨View.contains_iff.1 hstays, hdata, hjoins, hstranger, hp⟩⟩
      have hsends : sendsTo n (List.map (feeding next) _) = _ :=
        sendsTo_feeding (nodup_newlyResponsible self previous.view next.view)
      rw [hduty]
      exact ⟨fun h => hsends.trans (if_pos h), fun h => hsends.trans (if_neg h)⟩
  · rw [if_neg hstays]
    exact ⟨fun h => absurd (View.contains_iff.2 h.stays) hstays, fun _ => rfl⟩

/-- A change of view starts a transfer to a node if the engine owes it the data, and no other. -/
theorem sendsTo_reconfigure (e : Engine) (r : Reconfigure) (n : NodeId) :
    (e.Owes r n → sendsTo n (e.reconfigure r).2 = [feeding r n]) ∧
      (¬ e.Owes r n → sendsTo n (e.reconfigure r).2 = []) := by
  cases hstale : e.isStale r with
  | true =>
    rw [reconfigure_of_stale hstale]
    refine ⟨?_, fun _ => rfl⟩
    rintro ⟨previous, hview, hnewer, -⟩
    obtain ⟨installed, hi, rfl⟩ := Option.map_eq_some_iff.1 hview
    have hold : r.view.id ≤ installed.view.id := by simpa [isStale, hi] using hstale
    exact absurd hnewer (UInt64.not_lt.2 hold)
  | false =>
    have hout : sendsTo n (e.reconfigure r).2 = sendsTo n (e.transfers r) := by
      refine sendsTo_congr ?_
      rw [commandsIn_reconfigure, hstale]
      rfl
    rw [hout]
    unfold transfers
    cases hi : e.installed with
    | none =>
      refine ⟨?_, fun _ => rfl⟩
      rintro ⟨previous, hview, -⟩
      have hnone : e.view? = none := by simp [view?, hi]
      rw [hnone] at hview
      cases hview
    | some installed =>
      have hview : e.view? = some installed.view := by simp [view?, hi]
      have hnewer : installed.view.id < r.view.id := by
        have hnot : ¬ r.view.id ≤ installed.view.id := by simpa [isStale, hi] using hstale
        exact UInt64.not_le.1 hnot
      have howes : e.Owes r n ↔ Duty e.self installed.view r n := by
        constructor
        · rintro ⟨previous, hprevious, -, hduty⟩
          obtain rfl : installed.view = previous :=
            Option.some.inj (hview.symm.trans hprevious)
          exact hduty
        · exact fun hduty => ⟨_, hview, hnewer, hduty⟩
      rw [howes]
      by_cases hmember : e.isMember = true
      · simp only [if_pos hmember]
        exact sendsTo_reassign
      · simp only [if_neg hmember]
        refine ⟨fun hduty => absurd ?_ hmember, fun _ => rfl⟩
        -- a predecessor is a member
        unfold isMember
        rw [hi]
        exact View.contains_iff.2 (View.free_of_predecessor hduty.neighbour).1

/-! ## Who is fed -/

/-- The members of a view go over to the next configuration. A new member is sent its data once, by
its predecessor in the view, if that stays, and by no one if it leaves. -/
theorem fed_once_iff {previous : View} {engines : NodeId → Engine}
    (hengines : ∀ m ∈ previous.members,
      (engines m).self = m ∧ (engines m).view? = some previous)
    (hnewer : previous.id < r.view.id) (hversion : r.versionId ≠ 0)
    (hmembers : ∃ m, m ∈ previous.members)
    (hjoins : n ∈ r.view.members) (hstranger : n ∉ previous.members) :
    ∃ p ∈ previous.members, previous.predecessor? n = some p ∧
      (∀ m ∈ previous.members, sendsTo n ((engines m).apply (.reconfigure r)).2 =
        if m = p ∧ p ∈ r.view.members then [feeding r n] else []) ∧
      ((∃! m, (m ∈ previous.members ∧ m ∈ r.view.members) ∧
          sendsTo n ((engines m).apply (.reconfigure r)).2 = [feeding r n]) ↔
        p ∈ r.view.members) := by
  obtain ⟨m₀, hm₀⟩ := hmembers
  obtain ⟨p, hp⟩ := View.exists_predecessor hm₀ n
  have hpm : p ∈ previous.members := (View.free_of_predecessor hp).1
  -- a member has the duty if it is the predecessor and stays
  have hduty : ∀ m ∈ previous.members,
      ((engines m).Owes r n ↔ m = p ∧ p ∈ r.view.members) := by
    intro m hm
    obtain ⟨hself, hview⟩ := hengines m hm
    constructor
    · rintro ⟨previous', hview', -, hduty⟩
      obtain rfl : previous = previous' := Option.some.inj (hview.symm.trans hview')
      rw [hself] at hduty
      obtain rfl : p = m := Option.some.inj (hp.symm.trans hduty.neighbour)
      exact ⟨rfl, hduty.stays⟩
    · rintro ⟨rfl, hstays⟩
      refine ⟨previous, hview, hnewer, ?_⟩
      rw [hself]
      exact ⟨hstays, hversion, hjoins, hstranger, hp⟩
  have hsends : ∀ m ∈ previous.members, sendsTo n ((engines m).apply (.reconfigure r)).2 =
      if m = p ∧ p ∈ r.view.members then [feeding r n] else [] := by
    intro m hm
    obtain ⟨hfeeds, hnot⟩ := sendsTo_reconfigure (engines m) r n
    rw [hduty m hm] at hfeeds hnot
    split
    · exact hfeeds ‹_›
    · exact hnot ‹_›
  refine ⟨p, hpm, hp, hsends, ?_⟩
  constructor
  · rintro ⟨m, ⟨⟨hm, hstays⟩, hfeeds⟩, -⟩
    by_contra hleaves
    rw [hsends m hm, if_neg fun h => hleaves h.2] at hfeeds
    cases hfeeds
  · intro hstays
    refine ⟨p, ⟨⟨hpm, hstays⟩, ?_⟩, ?_⟩
    · rw [hsends p hpm, if_pos ⟨rfl, hstays⟩]
    · rintro m ⟨⟨hm, -⟩, hfeeds⟩
      by_contra hne
      rw [hsends m hm, if_neg fun h => hne h.1] at hfeeds
      cases hfeeds

/-- A node that is known by its name. -/
def named (name : String) : NodeId := ⟨name, 1, none⟩

/-- A configuration of named nodes over all keys. -/
def ringOf (id versionId : UInt64) (names : List String) : Reconfigure :=
  ⟨.ofList id (names.map named), UInt64.ofNat names.length, versionId, .full⟩

/-- A node that starts out in a configuration. -/
def settled (r : Reconfigure) (m : NodeId) : Engine :=
  (start m {} (.ofList [])).receive (.bootstrap r)

lemma settled_view (r : Reconfigure) (m : NodeId) :
    (settled r m).self = m ∧ (settled r m).view? = some r.view := by
  have hstale : (start m {} (.ofList [])).isStale r = false := rfl
  unfold settled receive bootstrap
  simp only
  rw [reconfigure_eq (consistent_start m {} (.ofList [])), hstale, if_neg (by simp)]
  split
  · exact ⟨rfl, rfl⟩
  · split
    · exact ⟨rfl, rfl⟩
    · exact ⟨rfl, rfl⟩

/-- A node joins between two that stay, and a second one joins behind them. -/
theorem fed_once_iff_between :
    ∃! m, (m ∈ (ringOf 1 0 ["a", "c"]).view.members ∧
        m ∈ (ringOf 2 1 ["a", "b", "c", "d"]).view.members) ∧
      sendsTo (named "b") ((settled (ringOf 1 0 ["a", "c"]) m).apply
        (.reconfigure (ringOf 2 1 ["a", "b", "c", "d"]))).2 =
          [feeding (ringOf 2 1 ["a", "b", "c", "d"]) (named "b")] := by
  obtain ⟨p, -, hp, -, hone⟩ := @fed_once_iff (ringOf 2 1 ["a", "b", "c", "d"]) (named "b")
    (ringOf 1 0 ["a", "c"]).view (settled (ringOf 1 0 ["a", "c"])) (fun m _ => settled_view _ m)
    (by decide) (by decide) ⟨named "a", by decide⟩ (by decide) (by decide)
  obtain rfl : named "a" = p := Option.some.inj (by rw [← hp]; decide)
  exact hone.2 (by decide)

/-- Two nodes, of which the second one is replaced. -/
def pair : Reconfigure := ringOf 1 0 ["a", "b"]

/-- The nodes after that. -/
def replaced : Reconfigure := ringOf 2 1 ["a", "c"]

/-- The predecessor of the node that joins leaves with the same change of view, and the other
member, which stays, sends nothing. -/
theorem fed_by_none :
    pair.view.id < replaced.view.id ∧ replaced.versionId ≠ 0 ∧ 2 ≤ replaced.view.size ∧
      (∀ m ∈ pair.view.members,
        (settled pair m).self = m ∧ (settled pair m).view? = some pair.view) ∧
      (∃ m ∈ pair.view.members, m ∈ replaced.view.members) ∧
      named "c" ∈ replaced.view.members ∧ named "c" ∉ pair.view.members ∧
      ¬ ∃ m, (m ∈ pair.view.members ∧ m ∈ replaced.view.members) ∧
        sendsTo (named "c") ((settled pair m).apply (.reconfigure replaced)).2 ≠ [] := by
  refine ⟨by decide, by decide, by decide, fun m _ => settled_view _ m,
    ⟨named "a", by decide, by decide⟩, by decide, by decide, ?_⟩
  rintro ⟨m, ⟨hm, hstays⟩, hsends⟩
  -- only one member stays
  obtain rfl : m = named "a" := by
    have hboth : ∀ m ∈ [named "a", named "b"], m ∈ replaced.view.members → m = named "a" := by
      decide
    exact hboth m hm hstays
  exact hsends (by decide)

/-! ## The arcs part the ring -/

/-- The nodes that the members of a view have to feed when they go over to the next one. -/
def allNewlyResponsible (previous next : View) : List NodeId :=
  previous.members.toList.flatMap fun m => newlyResponsible m previous next

/-- A node comes right after one member at most. -/
lemma disjoint_newlyResponsible (previous next : View) :
    previous.members.toList.Pairwise fun m m' =>
      (newlyResponsible m previous next).Disjoint (newlyResponsible m' previous next) := by
  have hmembers : previous.members.toList.Pairwise (· ≠ ·) := previous.members.nodup_toList
  apply hmembers.imp
  intro m m' hne n hn hn'
  obtain ⟨-, -, hp⟩ := mem_newlyResponsible.1 hn
  obtain ⟨-, -, hp'⟩ := mem_newlyResponsible.1 hn'
  exact hne (Option.some.inj (hp.symm.trans hp'))

lemma nodup_allNewlyResponsible (previous next : View) :
    (allNewlyResponsible previous next).Nodup := by
  unfold allNewlyResponsible
  rw [List.nodup_flatMap]
  constructor
  · intro m _
    exact nodup_newlyResponsible m previous next
  · exact disjoint_newlyResponsible previous next

lemma mem_allNewlyResponsible {previous next : View} (h : previous.isEmpty = false) :
    n ∈ allNewlyResponsible previous next ↔ n ∈ next.members ∧ n ∉ previous.members := by
  unfold allNewlyResponsible
  rw [List.mem_flatMap]
  constructor
  · rintro ⟨m, -, hn⟩
    obtain ⟨hjoins, hstranger, -⟩ := mem_newlyResponsible.1 hn
    exact ⟨hjoins, hstranger⟩
  · rintro ⟨hjoins, hstranger⟩
    -- a view with a member gives each node a predecessor
    obtain ⟨m₀, hm₀⟩ : ∃ m₀, m₀ ∈ previous.members.toList := by
      apply List.exists_mem_of_ne_nil
      simpa [View.isEmpty, SortedSet.isEmpty] using h
    obtain ⟨p, hp⟩ := View.exists_predecessor hm₀ n
    refine ⟨p, (View.free_of_predecessor hp).1, ?_⟩
    exact mem_newlyResponsible.2 ⟨hjoins, hstranger, hp⟩

/-- The arcs of a view part the nodes that join it: different members have different nodes to feed,
together they have each node that joins once and no other, and a node that is no member has none. -/
theorem newlyResponsible_partition {previous : View} (h : previous.isEmpty = false) (next : View) :
    (previous.members.toList.Pairwise fun m m' =>
        (newlyResponsible m previous next).Disjoint (newlyResponsible m' previous next)) ∧
      (∀ n, (allNewlyResponsible previous next).count n =
        if n ∈ next.members ∧ n ∉ previous.members then 1 else 0) ∧
      ∀ m, m ∉ previous.members → newlyResponsible m previous next = [] := by
  refine ⟨disjoint_newlyResponsible previous next, ?_, ?_⟩
  · intro n
    rw [(nodup_allNewlyResponsible previous next).count]
    simp only [mem_allNewlyResponsible h]
  · intro m hm
    apply List.eq_nil_iff_forall_not_mem.2
    intro n hn
    -- whoever has a node to feed is its predecessor, and that is a member
    obtain ⟨-, -, hp⟩ := mem_newlyResponsible.1 hn
    exact hm (View.free_of_predecessor hp).1

/-- Two members, with one node that joins between them and two that join around the end of the
ring. -/
theorem newlyResponsible_partition_around :
    (ringOf 1 0 ["b", "d"]).view.isEmpty = false ∧
      (newlyResponsible (named "b") (ringOf 1 0 ["b", "d"]).view
          (ringOf 2 1 ["a", "b", "c", "e"]).view).Disjoint
        (newlyResponsible (named "d") (ringOf 1 0 ["b", "d"]).view
          (ringOf 2 1 ["a", "b", "c", "e"]).view) ∧
      (allNewlyResponsible (ringOf 1 0 ["b", "d"]).view
        (ringOf 2 1 ["a", "b", "c", "e"]).view).count (named "a") = 1 ∧
      newlyResponsible (named "d") (ringOf 1 0 ["b", "d"]).view
        (ringOf 2 1 ["a", "b", "c", "e"]).view = [named "a", named "e"] ∧
      newlyResponsible (named "c") (ringOf 1 0 ["b", "d"]).view
        (ringOf 2 1 ["a", "b", "c", "e"]).view = [] := by
  have hmembers : (ringOf 1 0 ["b", "d"]).view.isEmpty = false := by decide
  obtain ⟨hdisjoint, hcount, hstranger⟩ :=
    newlyResponsible_partition hmembers (ringOf 2 1 ["a", "b", "c", "e"]).view
  have hlist : (ringOf 1 0 ["b", "d"]).view.members.toList = [named "b", named "d"] := by decide
  rw [hlist] at hdisjoint
  refine ⟨hmembers, ?_, ?_, by decide, hstranger _ (by decide)⟩
  · exact (List.pairwise_cons.1 hdisjoint).1 _ (by simp)
  · rw [hcount]
    decide

/-! ## When it is fed -/

end Engine

end ReplicaRing
