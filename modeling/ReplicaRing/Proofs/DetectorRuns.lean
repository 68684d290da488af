import Mathlib.Data.List.Induction
import ReplicaRing.Proofs.DetectorSteps

/-!
Runs of a failure detector, and what their history says. A subscription watches a node from the
input that starts it up to the next one that names it, `Detector.get?_run`. Only a subscription that
watches a node is told of it, and what it is told is always the opposite of what it was told last,
since a round reports a verdict only where it changes. So as long as no number is used for two
subscriptions, each of them is told suspicions and restorations in turn, and is up to date with the
verdict at any time, `Detector.reports_alternate`.
-/

namespace ReplicaRing

/-- The reports to a subscription. -/
def reportsTo (r : RequestId) (reports : List LivenessReport) : List LivenessReport :=
  reports.filter (·.request == r)

/-- Each report says the opposite of what its subscription was told before. At first that is no
suspicion. -/
inductive Alternating : List LivenessReport → Prop
  | nil : Alternating []
  | snoc {reports : List LivenessReport} {p : LivenessReport} (h : Alternating reports)
      (hp : p.suspects = !told p.request false reports) : Alternating (reports ++ [p])

namespace Alternating

variable {reports more : List LivenessReport}

/-- Reports to different subscriptions that are each the opposite of the last. -/
lemma append (h : Alternating reports) (hdistinct : more.Pairwise (·.request ≠ ·.request))
    (hopposite : ∀ p ∈ more, p.suspects = !told p.request false reports) :
    Alternating (reports ++ more) := by
  induction more generalizing reports with
  | nil =>
    rw [List.append_nil]
    exact h
  | cons p rest ih =>
    obtain ⟨hothers, hrest⟩ := List.pairwise_cons.1 hdistinct
    rw [List.append_cons]
    apply ih (h.snoc (hopposite p List.mem_cons_self)) hrest
    intro q hq
    -- what is reported in front of it goes to another subscription
    rw [told_append, told_cons, if_neg (hothers q hq)]
    exact hopposite q (List.mem_cons_of_mem p hq)

/-- The reports to a subscription are suspicions and restorations in turn, and it is left with a
suspicion if their number is odd. -/
lemma in_turn (h : Alternating reports) (r : RequestId) :
    (∀ i p, (reportsTo r reports)[i]? = some p → p.suspects = (i % 2 == 0)) ∧
      told r false reports = ((reportsTo r reports).length % 2 == 1) := by
  induction h with
  | nil => exact ⟨fun i p hp => by simp [reportsTo] at hp, rfl⟩
  | @snoc reports p h hp ih =>
    obtain ⟨hturn, htold⟩ := ih
    unfold reportsTo at *
    rw [List.filter_append, told_append, told_cons]
    by_cases hr : p.request = r
    · have hlast : [p].filter (·.request == r) = [p] := by simp [hr]
      have hsuspects : p.suspects = ((reports.filter (·.request == r)).length % 2 == 0) := by
        rw [hp, hr, htold]
        rcases Nat.mod_two_eq_zero_or_one (reports.filter (·.request == r)).length with heven | hodd
        · rw [heven]
          rfl
        · rw [hodd]
          rfl
      rw [hlast, if_pos hr, List.length_append, List.length_singleton]
      constructor
      · intro i q hq
        rw [List.getElem?_append] at hq
        split at hq
        · exact hturn i q hq
        · -- the new report is the one behind the others
          rw [List.getElem?_singleton] at hq
          split at hq
          · have hi : i = (reports.filter (·.request == r)).length := by omega
            cases hq
            rw [hi]
            exact hsuspects
          · cases hq
      · show p.suspects = _
        rw [hsuspects, Bool.eq_iff_iff, beq_iff_eq, beq_iff_eq]
        omega
    · have hlast : [p].filter (·.request == r) = [] := by simp [hr]
      rw [hlast, if_neg hr, List.append_nil]
      exact ⟨hturn, htold⟩

end Alternating

namespace Detector

/-! ## Runs -/

/-- Handles an input at the time it comes. -/
def react (d : Detector) (turn : Duration × Input) : Detector := (d.handle turn.1 turn.2).1

def run (d : Detector) (turns : List (Duration × Input)) : Detector := turns.foldl react d

def reportsOn (d : Detector) (turn : Duration × Input) : List LivenessReport :=
  reportsIn (d.handle turn.1 turn.2).2

/-- The reports of a run. -/
def reports (d : Detector) : List (Duration × Input) → List LivenessReport
  | [] => []
  | turn :: rest => d.reportsOn turn ++ (d.react turn).reports rest

/-- The number of the subscription that an input starts. -/
def Input.starts? : Input → Option RequestId
  | subscribe request _ => some request
  | unsubscribe _ | inbound _ _ | tick => none

/-- The number of the subscription that an input starts or ends. -/
def Input.request? : Input → Option RequestId
  | subscribe request _ | unsubscribe request => some request
  | inbound _ _ | tick => none

/-- A subscription was started for a node, and no later input names it. -/
def Watching (r : RequestId) (n : NodeId) (turns : List (Duration × Input)) : Prop :=
  ∃ past now rest, turns = past ++ (now, .subscribe r n) :: rest ∧
    ∀ turn ∈ rest, turn.2.request? ≠ some r

variable {d : Detector} {r : RequestId} {n : NodeId} {past : List (Duration × Input)}
  {turn : Duration × Input}

lemma run_concat (d : Detector) (past : List (Duration × Input)) (turn : Duration × Input) :
    d.run (past ++ [turn]) = (d.run past).react turn := by
  unfold run
  rw [List.foldl_append]
  rfl

lemma reports_concat (d : Detector) (past : List (Duration × Input)) (turn : Duration × Input) :
    d.reports (past ++ [turn]) = d.reports past ++ (d.run past).reportsOn turn := by
  induction past generalizing d with
  | nil => exact List.append_nil _
  | cons first past ih =>
    show d.reportsOn first ++ (d.react first).reports (past ++ [turn]) =
      d.reportsOn first ++ (d.react first).reports past ++ _
    rw [ih, List.append_assoc]
    rfl

/-! ## Subscriptions -/

/-- The last input decides on a subscription if it names it, and changes nothing otherwise. -/
lemma watching_concat : Watching r n (past ++ [turn]) ↔
    turn.2 = .subscribe r n ∨ turn.2.request? ≠ some r ∧ Watching r n past := by
  constructor
  · rintro ⟨front, now, rest, hsplit, hrest⟩
    cases rest using List.reverseRecOn with
    | nil =>
      obtain rfl : turn = (now, .subscribe r n) := by
        simpa using (List.append_inj' hsplit rfl).2
      exact .inl rfl
    | append_singleton rest last =>
      rw [← List.cons_append, ← List.append_assoc] at hsplit
      obtain ⟨hpast, hlast⟩ := List.append_inj' hsplit rfl
      obtain rfl : turn = last := by simpa using hlast
      refine .inr ⟨hrest turn (by simp), front, now, rest, hpast, ?_⟩
      intro other hother
      exact hrest other (List.mem_append_left _ hother)
  · rintro (hturn | ⟨hother, front, now, rest, rfl, hrest⟩)
    · refine ⟨past, turn.1, [], ?_, fun _ h => by cases h⟩
      rw [← hturn]
    · refine ⟨front, now, rest ++ [turn], by simp, ?_⟩
      intro later hlater
      rcases List.mem_append.1 hlater with hlater | hlater
      · exact hrest later hlater
      · rw [List.mem_singleton.1 hlater]
        exact hother

lemma subscribe_subscriptions (d : Detector) (r : RequestId) (n : NodeId) :
    (d.subscribe r n).1.subscriptions = d.subscriptions.insert r n := by
  unfold subscribe
  simp only
  split
  · rfl
  · rfl

/-- An input starts or ends the subscription that it names, and leaves all others alone. -/
lemma get?_react (d : Detector) (turn : Duration × Input) (r : RequestId) (n : NodeId) :
    (d.react turn).subscriptions.get? r = some n ↔
      turn.2 = .subscribe r n ∨ turn.2.request? ≠ some r ∧ d.subscriptions.get? r = some n := by
  obtain ⟨now, input⟩ := turn
  cases input with
  | subscribe r' n' =>
    show (d.subscribe r' n').1.subscriptions.get? r = some n ↔ _
    rw [subscribe_subscriptions, SortedMap.get?_insert]
    by_cases hr : r = r'
    · simp [hr, Input.request?]
    · simp [hr, Ne.symm hr, Input.request?]
  | unsubscribe r' =>
    show (d.unsubscribe r').subscriptions.get? r = some n ↔ _
    rw [(d.unsubscribe_eq r').1]
    by_cases hr : r = r'
    · simp [hr, Input.request?]
    · simp [hr, Ne.symm hr, Input.request?]
  | inbound src message =>
    show (d.receive now src message).1.subscriptions.get? r = some n ↔ _
    rw [(d.receive_eq now src message).1]
    simp [Input.request?]
  | tick =>
    show (d.tick now).1.subscriptions.get? r = some n ↔ _
    rw [(d.tick_eq now).1]
    simp [Input.request?]

/-- A detector holds the subscriptions that its history says. -/
theorem get?_run (self : NodeId) (config : DetectorConfig) (turns : List (Duration × Input)) :
    ((start self config).run turns).subscriptions.get? r = some n ↔ Watching r n turns := by
  induction turns using List.reverseRecOn with
  | nil =>
    constructor
    · intro h
      cases h
    · rintro ⟨front, now, rest, hsplit, -⟩
      simp at hsplit
  | append_singleton past turn ih =>
    rw [run_concat, get?_react, watching_concat, ih]

/-! ## Reports -/

/-- A subscription that finds its node suspected is told so at once. -/
lemma reportsOn_subscribe (d : Detector) (now : Duration) (r : RequestId) (n : NodeId) :
    d.reportsOn (now, .subscribe r n) =
      if d.watches n && !d.live.contains n then [.suspect n r] else [] := by
  unfold reportsOn handle subscribe
  simp only
  by_cases hwatched : d.watches n = true
  · by_cases hlive : d.live.contains n = true
    · simp [hwatched, hlive, reportsIn]
    · simp [hwatched, hlive, reportsIn, Output.report?]
  · simp [hwatched, reportsIn, Output.report?, sendTo]

/-- The first subscription for a node takes it for live. -/
lemma live_subscribe (d : Detector) (r : RequestId) (n m : NodeId) :
    (d.subscribe r n).1.live.contains m = (d.live.contains m || (!d.watches n && m == n)) := by
  unfold subscribe
  simp only
  by_cases hwatched : d.watches n = true
  · simp [hwatched]
  · rw [if_neg hwatched, Bool.eq_iff_iff, SortedSet.contains_iff_mem, SortedSet.mem_insert,
      Bool.or_eq_true, SortedSet.contains_iff_mem, or_comm]
    simp [hwatched]

lemma reportsOn_inbound (d : Detector) (now : Duration) (src : NodeId) (message : Message) :
    d.reportsOn (now, .inbound src message) = [] := (d.receive_eq now src message).2.2

lemma reportsOn_tick (d : Detector) (now : Duration) : d.reportsOn (now, .tick) = d.verdicts :=
  (d.tick_eq now).2.2

/-- A subscription that is told of a node watches it. -/
lemma get?_of_mem_reportsOn {p : LivenessReport} (hp : p ∈ d.reportsOn turn) :
    (d.react turn).subscriptions.get? p.request = some p.node := by
  obtain ⟨now, input⟩ := turn
  cases input with
  | subscribe r n =>
    rw [reportsOn_subscribe] at hp
    split at hp
    · rw [List.mem_singleton.1 hp]
      exact (get?_react ..).2 (.inl rfl)
    · cases hp
  | unsubscribe r => cases hp
  | inbound src message =>
    rw [reportsOn_inbound] at hp
    cases hp
  | tick =>
    rw [reportsOn_tick] at hp
    exact (mem_verdicts.1 hp).1

/-- A round reports to each subscription once at most. -/
lemma distinct_verdicts (d : Detector) : d.verdicts.Pairwise (·.request ≠ ·.request) := by
  have hpairwise : ∀ f : RequestId × NodeId → Option LivenessReport,
      (∀ e p, f e = some p → p.request = e.1) →
        (d.subscriptions.entries.filterMap f).Pairwise (·.request ≠ ·.request) := by
    intro f hf
    apply d.subscriptions.ascending.filterMap
    intro e e' hlt p hp p' hp' heq
    rw [hf e p hp, hf e' p' hp'] at heq
    rw [heq, Std.compare_self] at hlt
    cases hlt
  unfold verdicts
  apply hpairwise
  -- a verdict goes to the subscription of its entry
  intro e p hp
  simp only at hp
  split at hp
  · cases hp
    rfl
  · cases hp
    rfl
  · cases hp

lemma distinct_reportsOn (d : Detector) (turn : Duration × Input) :
    (d.reportsOn turn).Pairwise (·.request ≠ ·.request) := by
  obtain ⟨now, input⟩ := turn
  cases input with
  | subscribe r n =>
    rw [reportsOn_subscribe]
    split
    · exact List.pairwise_singleton ..
    · exact .nil
  | unsubscribe r => exact .nil
  | inbound src message =>
    rw [reportsOn_inbound]
    exact .nil
  | tick =>
    rw [reportsOn_tick]
    exact d.distinct_verdicts

/-! ## Told in turn -/

/-- The numbers of the subscriptions that some inputs start. -/
def startedBy (turns : List (Duration × Input)) : List RequestId :=
  turns.filterMap fun turn => turn.2.starts?

lemma startedBy_concat (past : List (Duration × Input)) (turn : Duration × Input) :
    startedBy (past ++ [turn]) = startedBy past ++ turn.2.starts?.toList := by
  unfold startedBy
  rw [List.filterMap_append]
  cases hstarts : turn.2.starts? with
  | none => simp [hstarts]
  | some r => simp [hstarts]

/-- What holds of a detector and of the reports that it made, if the numbers of the subscriptions
that were started are all different. -/
structure Informed (d : Detector) (ids : List RequestId) (reports : List LivenessReport) :
    Prop where
  alternating : Alternating reports
  verdict : ∀ r n, d.subscriptions.get? r = some n → d.live.contains n = !told r false reports
  started : ∀ r n, d.subscriptions.get? r = some n → r ∈ ids
  known : ∀ p ∈ reports, p.request ∈ ids

lemma informed_start (self : NodeId) (config : DetectorConfig) :
    Informed (start self config) [] [] where
  alternating := .nil
  verdict := fun _ _ h => (nomatch h)
  started := fun _ _ h => (nomatch h)
  known := fun _ h => (nomatch h)

namespace Informed

variable {ids : List RequestId} {reports : List LivenessReport}

/-- Nothing was told yet under a number that is new. -/
lemma told_new (h : d.Informed ids reports) (hnew : r ∉ ids) : told r false reports = false := by
  apply told_of_ne
  rintro p hp rfl
  exact hnew (h.known p hp)

/-- What an input makes a detector report is the opposite of what was told before. -/
lemma opposite (h : d.Informed ids reports) (hnew : ∀ r, turn.2.starts? = some r → r ∉ ids) :
    ∀ p ∈ d.reportsOn turn, p.suspects = !told p.request false reports := by
  intro p hp
  obtain ⟨now, input⟩ := turn
  cases input with
  | subscribe r n =>
    rw [reportsOn_subscribe] at hp
    split at hp
    · rw [List.mem_singleton.1 hp]
      show true = !told r false reports
      rw [h.told_new (hnew r rfl)]
      rfl
    · cases hp
  | unsubscribe r => cases hp
  | inbound src message =>
    rw [reportsOn_inbound] at hp
    cases hp
  | tick =>
    rw [reportsOn_tick] at hp
    obtain ⟨hget, hlive, -⟩ := mem_verdicts.1 hp
    rw [← hlive]
    exact h.verdict _ _ hget

/-- After an input, the verdict on a node is what each of its subscriptions was told last. -/
lemma up_to_date (h : d.Informed ids reports) (hnew : ∀ r, turn.2.starts? = some r → r ∉ ids)
    (hget : (d.react turn).subscriptions.get? r = some n) :
    (d.react turn).live.contains n = !told r false (reports ++ d.reportsOn turn) := by
  have hbefore := (get?_react ..).1 hget
  obtain ⟨now, input⟩ := turn
  cases input with
  | subscribe r' n' =>
    show (d.subscribe r' n').1.live.contains n = _
    rw [live_subscribe, told_append, reportsOn_subscribe]
    rcases hbefore with heq | ⟨hne, hbefore⟩
    · -- the new subscription is told if the node was watched before and is suspected
      cases heq
      rw [h.told_new (hnew r rfl)]
      cases d.watches n with
      | true =>
        cases d.live.contains n with
        | true => simp [told]
        | false => simp [told, LivenessReport.request, LivenessReport.suspects]
      | false => simp [told]
    · -- any other one is not, and its node was watched already
      have hother : ∀ reports' : List LivenessReport,
          (∀ p ∈ reports', p.request = r') → told r (told r false reports) reports' =
            told r false reports := by
        intro reports' hall
        apply told_of_ne
        rintro p hp rfl
        exact hne (by rw [hall p hp]; rfl)
      rw [hother, ← h.verdict r n hbefore]
      · have hwatched : d.watches n = true := watches_iff.2 ⟨r, hbefore⟩
        by_cases hn : n = n'
        · simp [← hn, hwatched]
        · simp [hn]
      · intro p hp
        split at hp
        · rw [List.mem_singleton.1 hp]
          rfl
        · cases hp
  | unsubscribe r' =>
    have hget' := (hbefore.resolve_left (by simp)).2
    have hsame : n ∈ (d.unsubscribe r').live ↔ n ∈ d.live := (d.unsubscribe_eq r').2 r n hget
    show (d.unsubscribe r').live.contains n = !told r false (reports ++ [])
    rw [List.append_nil, ← h.verdict r n hget', Bool.eq_iff_iff, SortedSet.contains_iff_mem,
      SortedSet.contains_iff_mem, hsame]
  | inbound src message =>
    have hget' := (hbefore.resolve_left (by simp)).2
    show (d.receive now src message).1.live.contains n = _
    rw [(d.receive_eq now src message).2.1, reportsOn_inbound, List.append_nil,
      h.verdict r n hget']
  | tick =>
    have hget' := (hbefore.resolve_left (by simp)).2
    have hold : told r false reports = !d.live.contains n := by
      rw [h.verdict r n hget', Bool.not_not]
    rw [reportsOn_tick, told_append, hold, told_verdicts hget' now, Bool.not_not]
    rfl

lemma step (h : d.Informed ids reports) (hnew : ∀ r, turn.2.starts? = some r → r ∉ ids) :
    (d.react turn).Informed (ids ++ turn.2.starts?.toList) (reports ++ d.reportsOn turn) := by
  have hstarted : ∀ r n, (d.react turn).subscriptions.get? r = some n →
      r ∈ ids ++ turn.2.starts?.toList := by
    intro r n hget
    rw [List.mem_append]
    rcases (get?_react ..).1 hget with hturn | ⟨-, hbefore⟩
    · right
      rw [hturn]
      exact List.mem_singleton_self r
    · left
      exact h.started r n hbefore
  refine ⟨?_, fun r n hget => h.up_to_date hnew hget, hstarted, ?_⟩
  · exact h.alternating.append (d.distinct_reportsOn turn) (h.opposite hnew)
  · intro p hp
    rcases List.mem_append.1 hp with hp | hp
    · exact List.mem_append_left _ (h.known p hp)
    · exact hstarted _ _ (get?_of_mem_reportsOn hp)

end Informed

theorem informed_run (self : NodeId) (config : DetectorConfig) (turns : List (Duration × Input))
    (hfresh : (startedBy turns).Nodup) :
    ((start self config).run turns).Informed (startedBy turns)
      ((start self config).reports turns) := by
  induction turns using List.reverseRecOn with
  | nil => exact informed_start self config
  | append_singleton past turn ih =>
    rw [startedBy_concat, List.nodup_append] at hfresh
    obtain ⟨hpast, -, hnew⟩ := hfresh
    rw [run_concat, reports_concat, startedBy_concat]
    apply (ih hpast).step
    intro r hr hold
    exact hnew r hold r (by rw [hr]; exact List.mem_singleton_self r) rfl

/-- As long as no number is used for two subscriptions, each of them is told suspicions and
restorations in turn, a suspicion first. It is told nothing before it is started and nothing after
it has ended. And at any time the node that it watches is taken for live exactly if the report that
it was given last, if any, is no suspicion. -/
theorem reports_alternate (self : NodeId) (config : DetectorConfig)
    {turns : List (Duration × Input)} (hfresh : (startedBy turns).Nodup) (r : RequestId) :
    let d := start self config
    (∀ i p, (reportsTo r (d.reports turns))[i]? = some p → p.suspects = (i % 2 == 0)) ∧
      (∀ past turn, past ++ [turn] <+: turns → ∀ p ∈ (d.run past).reportsOn turn,
        p.request = r → Watching r p.node (past ++ [turn])) ∧
      ∀ past, past <+: turns → ∀ n, Watching r n past →
        (n ∈ (d.run past).live ↔ told r false (d.reports past) = false) := by
  intro d
  refine ⟨?_, ?_, ?_⟩
  · exact ((informed_run self config turns hfresh).alternating.in_turn r).1
  · rintro past turn - p hp rfl
    rw [← get?_run self config, run_concat]
    exact get?_of_mem_reportsOn hp
  · intro past hfront n hwatching
    have hpast : (startedBy past).Nodup := hfresh.sublist (hfront.sublist.filterMap _)
    have hinformed := informed_run self config past hpast
    have hget := (get?_run self config past).2 hwatching
    rw [← SortedSet.contains_iff_mem, hinformed.verdict r n hget]
    simp [d]

namespace LateSubscription

def b : NodeId := ⟨"b", 1, none⟩

def initial : Detector := start ⟨"a", 1, none⟩ {}

/-- A node is silent for two rounds, a second subscription for it is started, the node is heard
once, the first subscription ends, and the node is silent again. -/
def happened : List (Duration × Input) :=
  [(0, .subscribe 1 b), (1, .tick), (2, .tick), (2, .subscribe 2 b), (2, .inbound b .heartbeat),
    (3, .tick), (3, .unsubscribe 1), (4, .tick), (5, .tick)]

end LateSubscription

open LateSubscription in
/-- The second subscription is told of a suspicion when it is started, of the restoration together
with the first, and of the next suspicion alone. -/
theorem reports_alternate_late :
    (startedBy happened).Nodup ∧
      reportsTo 2 (initial.reports happened) =
        [.suspect b 2, .restore b 2, .suspect b 2] ∧
      (LivenessReport.suspect b 2).suspects = (2 % 2 == 0) ∧
      Watching 2 b (happened.take 4) ∧ Watching 2 b happened ∧
      (b ∈ (initial.run happened).live ↔ told 2 false (initial.reports happened) = false) := by
  have hfresh : (startedBy happened).Nodup := by decide
  have hreports : reportsTo 2 (initial.reports happened) =
      [.suspect b 2, .restore b 2, .suspect b 2] := by decide
  have hwatching : Watching 2 b happened := (get?_run ⟨"a", 1, none⟩ {} happened).1 (by decide)
  obtain ⟨hturn, hwhile, hverdict⟩ := reports_alternate ⟨"a", 1, none⟩ {} hfresh 2
  refine ⟨hfresh, hreports, hturn 2 _ ?_, ?_, hwatching, ?_⟩
  · exact congrArg (·[2]?) hreports
  · exact hwhile (happened.take 3) (2, .subscribe 2 b) ⟨happened.drop 4, rfl⟩ (.suspect b 2)
      (by decide) rfl
  · exact hverdict happened (List.prefix_refl happened) b hwatching

end Detector

end ReplicaRing
