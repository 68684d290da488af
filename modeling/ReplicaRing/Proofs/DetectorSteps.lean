import Mathlib.Tactic.Common
import ReplicaRing.Liveness.Detector

/-!
What the inputs of a failure detector do to its subscriptions, to the nodes that it takes for live,
and to what it reports. A subscription for a node that no other one watches takes the node for live,
and only a round changes the verdict on a node after that. It reports the change to each
subscription of the node, so what a subscription was told last is the verdict,
`Detector.told_verdicts`.
-/

namespace ReplicaRing

lemma SortedMap.mem_values_iff {κ ν : Type} [Ord κ] [Std.LawfulEqOrd κ] {m : SortedMap κ ν}
    {v : ν} : v ∈ m.values ↔ ∃ k, m.get? k = some v := by
  unfold SortedMap.values
  rw [List.mem_map]
  constructor
  · rintro ⟨⟨k, w⟩, hin, rfl⟩
    exact ⟨k, get?_eq_some_iff.2 hin⟩
  · rintro ⟨k, hk⟩
    exact ⟨(k, v), get?_eq_some_iff.1 hk, rfl⟩

/-- Whether a report suspects its node. -/
def LivenessReport.suspects : LivenessReport → Bool
  | suspect _ _ => true
  | restore _ _ => false

/-- The suspicion that a subscription is left with by some reports, after another one before. -/
def told (r : RequestId) (before : Bool) (reports : List LivenessReport) : Bool :=
  reports.foldl (fun b p => if p.request = r then p.suspects else b) before

section

variable {r : RequestId} {before : Bool} {reports more : List LivenessReport}

lemma told_append : told r before (reports ++ more) = told r (told r before reports) more :=
  List.foldl_append

lemma told_cons (p : LivenessReport) :
    told r before (p :: reports) = told r (if p.request = r then p.suspects else before) reports :=
  rfl

/-- Reports to other subscriptions tell nothing. -/
lemma told_of_ne (h : ∀ p ∈ reports, p.request ≠ r) : told r before reports = before := by
  induction reports with
  | nil => rfl
  | cons p rest ih =>
    rw [told_cons, if_neg (h p (by simp))]
    exact ih fun q hq => h q (by simp [hq])

/-- Reports that agree tell what they say. -/
lemma told_of_forall {c : Bool} (h : ∀ p ∈ reports, p.request = r → p.suspects = c)
    (hsome : before = c ∨ ∃ p ∈ reports, p.request = r) : told r before reports = c := by
  induction reports generalizing before with
  | nil =>
    rcases hsome with hbefore | ⟨p, hp, -⟩
    · exact hbefore
    · cases hp
  | cons p rest ih =>
    rw [told_cons]
    refine ih (fun q hq => h q (by simp [hq])) ?_
    by_cases hr : p.request = r
    · rw [if_pos hr]
      exact .inl (h p (by simp) hr)
    · rw [if_neg hr]
      refine hsome.imp_right fun ⟨q, hq, hqr⟩ => ?_
      rcases List.mem_cons.1 hq with rfl | hq
      · exact absurd hqr hr
      · exact ⟨q, hq, hqr⟩

end

namespace Detector

/-- The report among the outputs that an output is. -/
def Output.report? : Output → Option LivenessReport
  | .report p => some p
  | .send _ => none

/-- The reports among some outputs. -/
def reportsIn (out : List Output) : List LivenessReport := out.filterMap Output.report?

variable {d : Detector} {r : RequestId} {n : NodeId}

lemma reportsIn_append (out more : List Output) :
    reportsIn (out ++ more) = reportsIn out ++ reportsIn more := List.filterMap_append

/-- A node is watched if it has a subscription. -/
lemma watches_iff : d.watches n = true ↔ ∃ r, d.subscriptions.get? r = some n := by
  unfold watches
  rw [List.contains_iff_mem, SortedMap.mem_values_iff]

lemma mem_subscribed : n ∈ d.subscribed ↔ ∃ r, d.subscriptions.get? r = some n := by
  unfold subscribed
  rw [SortedSet.mem_ofList, SortedMap.mem_values_iff]

/-! ## Subscriptions -/

/-- A node that was not watched is taken for live, and nothing is reported. -/
lemma subscribe_new (h : ∀ r', d.subscriptions.get? r' ≠ some n) (r : RequestId) :
    (d.subscribe r n).1.subscriptions = d.subscriptions.insert r n ∧
      (d.subscribe r n).1.live = d.live.insert n ∧ reportsIn (d.subscribe r n).2 = [] := by
  have hnew : ¬ d.watches n = true := by
    rw [watches_iff]
    rintro ⟨r', hr'⟩
    exact h r' hr'
  unfold subscribe
  simp only [if_neg hnew]
  exact ⟨trivial, trivial, rfl⟩

/-- Ending a subscription leaves the verdict on the nodes that are watched still. -/
lemma unsubscribe_eq (d : Detector) (r : RequestId) :
    (∀ r', (d.unsubscribe r).subscriptions.get? r' =
        if r' = r then none else d.subscriptions.get? r') ∧
      ∀ r' n, (d.unsubscribe r).subscriptions.get? r' = some n →
        (n ∈ (d.unsubscribe r).live ↔ n ∈ d.live) := by
  unfold unsubscribe
  cases hr : d.subscriptions.get? r with
  | none =>
    refine ⟨fun r' => ?_, fun _ _ _ => Iff.rfl⟩
    by_cases heq : r' = r
    · rw [if_pos heq, heq, hr]
    · rw [if_neg heq]
  | some m =>
    simp only
    split
    · exact ⟨fun r' => SortedMap.get?_erase .., fun _ _ _ => Iff.rfl⟩
    · rename_i hunwatched
      refine ⟨fun r' => SortedMap.get?_erase .., fun r' n hn => ?_⟩
      -- the node that is watched no longer is another one
      have hne : n ≠ m := by
        rintro rfl
        exact hunwatched (watches_iff.2 ⟨r', hn⟩)
      show n ∈ d.live.erase m ↔ n ∈ d.live
      rw [SortedSet.mem_erase, and_iff_left hne]

/-- Messages change no verdict. -/
lemma receive_eq (d : Detector) (now : Duration) (src : NodeId) (message : Message) :
    (d.receive now src message).1.subscriptions = d.subscriptions ∧
      (d.receive now src message).1.live = d.live ∧
      reportsIn (d.receive now src message).2 = [] := by
  unfold receive
  split
  · split
    · exact ⟨rfl, rfl, rfl⟩
    · exact ⟨rfl, rfl, rfl⟩
  · exact ⟨rfl, rfl, rfl⟩
  · split
    · exact ⟨rfl, rfl, rfl⟩
    · exact ⟨rfl, rfl, rfl⟩
  · exact ⟨rfl, rfl, rfl⟩

/-! ## Rounds -/

/-- A round reports its verdicts, and takes the nodes for live that it heard from. -/
lemma tick_eq (d : Detector) (now : Duration) :
    (d.tick now).1.subscriptions = d.subscriptions ∧
      (d.tick now).1.live = d.heard.inter d.subscribed ∧
      reportsIn (d.tick now).2 = d.verdicts := by
  refine ⟨rfl, rfl, ?_⟩
  have hreports : reportsIn (d.verdicts.map .report) = d.verdicts := by
    unfold reportsIn
    rw [List.filterMap_map]
    exact List.filterMap_some
  have hheartbeats : ∀ nodes : List NodeId,
      reportsIn (nodes.map (d.sendTo · .heartbeat)) = [] := by
    intro nodes
    unfold reportsIn
    rw [List.filterMap_eq_nil_iff]
    intro o ho
    obtain ⟨_, -, rfl⟩ := List.mem_map.1 ho
    rfl
  have hpings : ∀ (nodes : List NodeId) (timestamp last : UInt64),
      reportsIn (d.pings timestamp last nodes) = [] := by
    intro nodes timestamp
    induction nodes with
    | nil => exact fun _ => rfl
    | cons m rest ih => exact fun last => ih (last + 1)
  unfold tick
  simp only
  rw [reportsIn_append, reportsIn_append, hreports, hheartbeats, hpings, List.append_nil,
    List.append_nil]

/-- A verdict is on the node of its subscription, and it is new. -/
lemma mem_verdicts {p : LivenessReport} :
    p ∈ d.verdicts ↔ d.subscriptions.get? p.request = some p.node ∧
      d.live.contains p.node = p.suspects ∧ d.heard.contains p.node = !p.suspects := by
  unfold verdicts
  rw [List.mem_filterMap]
  constructor
  · rintro ⟨⟨r, n⟩, hin, hp⟩
    have hr := SortedMap.get?_eq_some_iff.2 hin
    cases hlive : d.live.contains n with
    | true =>
      cases hheard : d.heard.contains n with
      | true => simp [hlive, hheard] at hp
      | false =>
        simp only [hlive, hheard, Option.some.injEq] at hp
        subst hp
        exact ⟨hr, hlive, hheard⟩
    | false =>
      cases hheard : d.heard.contains n with
      | true =>
        simp only [hlive, hheard, Option.some.injEq] at hp
        subst hp
        exact ⟨hr, hlive, hheard⟩
      | false => simp [hlive, hheard] at hp
  · rintro ⟨hr, hlive, hheard⟩
    refine ⟨(p.request, p.node), SortedMap.get?_eq_some_iff.1 hr, ?_⟩
    cases p with
    | suspect n r =>
      have hlive' : d.live.contains n = true := hlive
      have hheard' : d.heard.contains n = false := hheard
      simp [LivenessReport.node, LivenessReport.request, hlive', hheard']
    | restore n r =>
      have hlive' : d.live.contains n = false := hlive
      have hheard' : d.heard.contains n = true := hheard
      simp [LivenessReport.node, LivenessReport.request, hlive', hheard']

/-- A subscription that was told the verdict on its node is told the new one by a round. -/
theorem told_verdicts (hr : d.subscriptions.get? r = some n) (now : Duration) :
    told r (!d.live.contains n) d.verdicts = !(d.tick now).1.live.contains n := by
  -- a report to the subscription is on its node
  have hnode : ∀ p ∈ d.verdicts, p.request = r →
      d.live.contains n = p.suspects ∧ d.heard.contains n = !p.suspects := by
    intro p hp hpr
    obtain ⟨hsub, hlive, hheard⟩ := mem_verdicts.1 hp
    rw [hpr, hr, Option.some.injEq] at hsub
    rw [hsub]
    exact ⟨hlive, hheard⟩
  have hafter : (d.tick now).1.live.contains n = d.heard.contains n := by
    have hiff : n ∈ (d.tick now).1.live ↔ n ∈ d.heard := by
      rw [(d.tick_eq now).2.1, SortedSet.mem_inter, mem_subscribed]
      exact and_iff_left ⟨r, hr⟩
    rw [Bool.eq_iff_iff, SortedSet.contains_iff_mem, SortedSet.contains_iff_mem, hiff]
  rw [hafter]
  refine told_of_forall (fun p hp hpr => ?_) ?_
  · rw [(hnode p hp hpr).2, Bool.not_not]
  · -- if the verdict changes it is reported
    cases hlive : d.live.contains n with
    | true =>
      cases hheard : d.heard.contains n with
      | true => exact .inl rfl
      | false => exact .inr ⟨.suspect n r, mem_verdicts.2 ⟨hr, hlive, hheard⟩, rfl⟩
    | false =>
      cases hheard : d.heard.contains n with
      | true => exact .inr ⟨.restore n r, mem_verdicts.2 ⟨hr, hlive, hheard⟩, rfl⟩
      | false => exact .inl rfl

end Detector

end ReplicaRing
