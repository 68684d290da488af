import ReplicaRing.Proofs.LeaderAgreement

/-!
What a failure detector ever reported, to whoever listens. The detector tells each change of its
mind on a node once, under the subscription that watches the node at the time. A later subscription
to the node starts with the node live and without a report. So the detector takes a watched node for
dead just if its last word on the node was a suspicion under the subscription that still watches
it, `LivenessLink.Recounted`, and a suspicion under an earlier subscription means nothing.
-/

namespace ReplicaRing

/-- The last report on a node. -/
def lastOn (n : NodeId) (reports : List LivenessReport) : Option LivenessReport :=
  (reports.filter (·.node = n)).getLast?

section

variable {n : NodeId} {p : LivenessReport} {reports more : List LivenessReport}

lemma lastOn_append : lastOn n (reports ++ more) = (lastOn n more).or (lastOn n reports) := by
  unfold lastOn
  rw [List.filter_append, List.getLast?_append]

lemma lastOn_singleton (n : NodeId) (p : LivenessReport) :
    lastOn n [p] = if p.node = n then some p else none := by
  unfold lastOn
  by_cases hp : p.node = n
  · rw [List.filter_cons_of_pos (by simp [hp]), if_pos hp]
    rfl
  · rw [List.filter_cons_of_neg (by simp [hp]), if_neg hp]
    rfl

lemma mem_of_lastOn (h : lastOn n reports = some p) : p ∈ reports ∧ p.node = n := by
  have hin := List.mem_filter.1 (List.mem_of_getLast? h)
  exact ⟨hin.1, of_decide_eq_true hin.2⟩

lemma lastOn_eq_none (h : ∀ q ∈ reports, q.node ≠ n) : lastOn n reports = none := by
  cases hlast : lastOn n reports with
  | none => rfl
  | some p => exact absurd (mem_of_lastOn hlast).2 (h p (mem_of_lastOn hlast).1)

/-- If all reports on a node are the same, the last one is. -/
lemma lastOn_eq_some (hp : p ∈ reports) (hnode : p.node = n)
    (h : ∀ q ∈ reports, q.node = n → q = p) : lastOn n reports = some p := by
  cases hlast : lastOn n reports with
  | none =>
    unfold lastOn at hlast
    rw [List.getLast?_eq_none_iff, List.filter_eq_nil_iff] at hlast
    exact absurd (decide_eq_true hnode) (hlast p hp)
  | some q => exact congrArg some (h q (mem_of_lastOn hlast).1 (mem_of_lastOn hlast).2)

end

/-- A suspicion under a subscription. -/
lemma LivenessReport.eq_suspect {p : LivenessReport} (h : p.suspects = true) :
    p = .suspect p.node p.request := by
  cases p with
  | suspect n r => rfl
  | restore n r => cases h

lemma LivenessReport.eq_restore {p : LivenessReport} (h : p.suspects = false) :
    p = .restore p.node p.request := by
  cases p with
  | suspect n r => cases h
  | restore n r => rfl

/-- The last word of a round on a node that one subscription watches: the new verdict, if it
changes. -/
lemma Detector.lastOn_verdicts {d : Detector} {r : RequestId} {n : NodeId}
    (hr : d.subscriptions.get? r = some n)
    (hsingle : ∀ r', d.subscriptions.get? r' = some n → r' = r) :
    lastOn n d.verdicts =
      match d.live.contains n, d.heard.contains n with
      | true, false => some (.suspect n r)
      | false, true => some (.restore n r)
      | _, _ => none := by
  -- a report on the node is to that subscription, and says how the verdict changes
  have hon : ∀ p ∈ d.verdicts, p.node = n →
      p.request = r ∧ d.live.contains n = p.suspects ∧ d.heard.contains n = !p.suspects := by
    rintro p hp rfl
    obtain ⟨hsub, hlive, hheard⟩ := mem_verdicts.1 hp
    exact ⟨hsingle _ hsub, hlive, hheard⟩
  have hsame : d.live.contains n = d.heard.contains n → lastOn n d.verdicts = none := by
    intro heq
    refine lastOn_eq_none fun p hp hnode => ?_
    obtain ⟨-, hlive, hheard⟩ := hon p hp hnode
    rw [hlive, hheard] at heq
    cases hp : p.suspects with
    | true => simp [hp] at heq
    | false => simp [hp] at heq
  cases hlive : d.live.contains n with
  | true =>
    cases hheard : d.heard.contains n with
    | true => exact hsame (hlive.trans hheard.symm)
    | false =>
      refine lastOn_eq_some (p := .suspect n r) (mem_verdicts.2 ⟨hr, hlive, hheard⟩) rfl ?_
      intro q hq hnode
      obtain ⟨hrequest, hverdict, -⟩ := hon q hq hnode
      rw [LivenessReport.eq_suspect (hverdict.symm.trans hlive), hnode, hrequest]
  | false =>
    cases hheard : d.heard.contains n with
    | false => exact hsame (hlive.trans hheard.symm)
    | true =>
      refine lastOn_eq_some (p := .restore n r) (mem_verdicts.2 ⟨hr, hlive, hheard⟩) rfl ?_
      intro q hq hnode
      obtain ⟨hrequest, hverdict, -⟩ := hon q hq hnode
      rw [LivenessReport.eq_restore (hverdict.symm.trans hlive), hnode, hrequest]

namespace LivenessLink

/-- The reports that the detector makes in a step. -/
def emits (l : LivenessLink) : Step → List LivenessReport
  | .inbound now src message =>
    Detector.reportsIn (l.detector.handle now (.inbound src message)).2
  | .tick now => Detector.reportsIn (l.detector.handle now .tick).2
  | .request now =>
    match l.requests with
    | [] => []
    | q :: _ => Detector.reportsIn (l.detector.handle now q.input).2
  | .install _ | .draw _ | .report => []

/-- What holds between a detector and all the reports that it made so far. -/
structure Recounted (l : LivenessLink) (all : List LivenessReport) : Prop where
  /-- No two subscriptions watch one node. -/
  single : ∀ r r' n, l.detector.subscriptions.get? r = some n →
    l.detector.subscriptions.get? r' = some n → r = r'
  verdict : ∀ r n, l.detector.subscriptions.get? r = some n →
    (n ∉ l.detector.live ↔ lastOn n all = some (.suspect n r))
  /-- The numbers on which the detector reported or still does were requested before those of the
  requests on their way. -/
  past : ∃ done, l.numbers = done ++ l.requests.filterMap LivenessRequest.subscribed? ∧
    (∀ p ∈ all, p.request ∈ done) ∧
    ∀ r n, l.detector.subscriptions.get? r = some n → r ∈ done

variable {l : LivenessLink} {all : List LivenessReport}

lemma recounted_start (self : NodeId) (ids : IdSource) (config : DetectorConfig) :
    (start self ids config).Recounted [] where
  single r r' n hr := by cases hr
  verdict r n hr := by cases hr
  past := ⟨[], rfl, fun p hp => (nomatch hp), fun r n hr => (nomatch hr)⟩

namespace Recounted

/-- What the oracle asks for does not matter until it reaches the detector. -/
lemma relay (h : l.Recounted all) (next : Oracle × List Oracle.Output) :
    (l.relay next).Recounted all := by
  obtain ⟨done, hnumbers, hreported, hwatched⟩ := h.past
  refine ⟨h.single, h.verdict, done, ?_, hreported, hwatched⟩
  show l.numbers ++ (Oracle.requestsIn next.2).filterMap LivenessRequest.subscribed? =
    done ++ (l.requests ++ Oracle.requestsIn next.2).filterMap LivenessRequest.subscribed?
  rw [hnumbers, List.filterMap_append, List.append_assoc]

/-- A change of the detector that reports nothing and leaves who is watched and the verdicts. -/
lemma quiet (h : l.Recounted all) {d : Detector} (reports : List LivenessReport)
    (hsubscriptions : d.subscriptions = l.detector.subscriptions)
    (hlive : d.live = l.detector.live) :
    Recounted { l with detector := d, reports } all := by
  obtain ⟨done, hnumbers, hreported, hwatched⟩ := h.past
  refine ⟨?_, ?_, done, hnumbers, hreported, ?_⟩
  · show ∀ r r' n, d.subscriptions.get? r = some n → d.subscriptions.get? r' = some n → r = r'
    rw [hsubscriptions]
    exact h.single
  · show ∀ r n, d.subscriptions.get? r = some n → (n ∉ d.live ↔ _)
    rw [hsubscriptions, hlive]
    exact h.verdict
  · show ∀ r n, d.subscriptions.get? r = some n → r ∈ done
    rw [hsubscriptions]
    exact hwatched

/-- A round tells every change of verdict. -/
lemma tick (h : l.Recounted all) (now : Duration) :
    (l.detect now .tick).Recounted (all ++ l.emits (.tick now)) := by
  obtain ⟨hsubscriptions, hlive, hverdicts⟩ := l.detector.tick_eq now
  obtain ⟨done, hnumbers, hreported, hwatched⟩ := h.past
  have hemits : l.emits (.tick now) = l.detector.verdicts := hverdicts
  have hdetector : (l.detect now .tick).detector = (l.detector.tick now).1 := rfl
  rw [hemits]
  refine ⟨?_, fun r n hr => ?_, done, hnumbers, fun p hp => ?_, ?_⟩
  · rw [hdetector, hsubscriptions]
    exact h.single
  · rw [hdetector, hsubscriptions] at hr
    have hafter : n ∉ (l.detector.tick now).1.live ↔ l.detector.heard.contains n = false := by
      rw [hlive, SortedSet.mem_inter, Detector.mem_subscribed, ← Bool.not_eq_true,
        SortedSet.contains_iff_mem]
      exact not_congr (and_iff_left ⟨r, hr⟩)
    have hbefore := h.verdict r n hr
    rw [← SortedSet.contains_iff_mem, Bool.not_eq_true] at hbefore
    rw [hdetector, hafter, lastOn_append,
      Detector.lastOn_verdicts hr fun r' hr' => h.single r' r n hr' hr]
    cases hknown : l.detector.live.contains n with
    | true =>
      rw [hknown] at hbefore
      cases l.detector.heard.contains n with
      | true => simpa using hbefore
      | false => simp
    | false =>
      rw [hknown] at hbefore
      cases l.detector.heard.contains n with
      | true => simp
      | false => simpa using hbefore
  · rcases List.mem_append.1 hp with hp | hp
    · exact hreported p hp
    · exact hwatched _ _ (Detector.mem_verdicts.1 hp).1
  · rw [hdetector, hsubscriptions]
    exact hwatched

/-- The oldest request reaches the detector. A subscription that it makes is to a node that is not
watched and has a number that was never reported on. -/
lemma request (h : l.Recounted all) (htracked : l.Tracked) (hfresh : l.numbers.Nodup)
    {q : LivenessRequest} {rest : List LivenessRequest} (hq : l.requests = q :: rest)
    (now : Duration) :
    ({ l with requests := rest }.detect now q.input).Recounted all ∧
      l.emits (.request now) = [] := by
  have hturn := htracked.orderly
  rw [hq] at hturn
  obtain ⟨hturn, -⟩ := hturn
  obtain ⟨hwatch, hquiet, hkept, hlive⟩ := Detector.handle_request hturn now
  have hemits : l.emits (.request now) = [] := by
    unfold emits
    rw [hq]
    exact hquiet
  refine ⟨?_, hemits⟩
  obtain ⟨done, hnumbers, hreported, hwatched⟩ := h.past
  have hdetector : ({ l with requests := rest }.detect now q.input).detector =
      (l.detector.handle now q.input).1 := rfl
  cases q with
  | subscribe r n =>
    rw [hq] at hnumbers
    have hnew : r ∉ done := by
      intro hr
      rw [hnumbers] at hfresh
      exact (List.nodup_append.1 hfresh).2.2 r hr r (List.mem_cons_self ..) rfl
    have hothers : ∀ r' m, r' ≠ r →
        ((l.detector.handle now (LivenessRequest.subscribe r n).input).1.subscriptions.get? r' =
          some m ↔ l.detector.subscriptions.get? r' = some m) := by
      intro r' m hne
      rw [hwatch, LivenessRequest.apply_of_ne _ hne]
    have hown : ∀ m,
        (l.detector.handle now (LivenessRequest.subscribe r n).input).1.subscriptions.get? r =
          some m ↔ n = m := by
      intro m
      rw [hwatch]
      show Function.update l.detector.subscriptions.get? r (some n) r = some m ↔ _
      rw [Function.update_self, Option.some_inj]
    refine ⟨fun r₁ r₂ m h₁ h₂ => ?_, fun r' m hr' => ?_, done ++ [r], ?_, fun p hp => ?_,
      fun r' m hr' => ?_⟩
    · rw [hdetector] at h₁ h₂
      by_cases heq₁ : r₁ = r
      · by_cases heq₂ : r₂ = r
        · rw [heq₁, heq₂]
        · rw [heq₁, hown] at h₁
          rw [hothers r₂ m heq₂, ← h₁] at h₂
          exact absurd h₂ (hturn r n rfl r₂)
      · by_cases heq₂ : r₂ = r
        · rw [heq₂, hown] at h₂
          rw [hothers r₁ m heq₁, ← h₂] at h₁
          exact absurd h₁ (hturn r n rfl r₁)
        · exact h.single r₁ r₂ m ((hothers r₁ m heq₁).1 h₁) ((hothers r₂ m heq₂).1 h₂)
    · rw [hdetector] at hr' ⊢
      by_cases heq : r' = r
      · rw [heq, hown] at hr'
        subst hr' heq
        refine iff_of_false (fun hdead => hdead (hlive r' n rfl)) fun hlast => ?_
        exact hnew (hreported _ (mem_of_lastOn hlast).1)
      · have hbefore := (hothers r' m heq).1 hr'
        rw [hkept r' m heq hbefore]
        exact h.verdict r' m hbefore
    · rw [List.append_assoc]
      exact hnumbers
    · exact List.mem_append_left _ (hreported p hp)
    · rw [hdetector] at hr'
      by_cases heq : r' = r
      · exact List.mem_append_right _ (by simp [heq])
      · exact List.mem_append_left _ (hwatched r' m ((hothers r' m heq).1 hr'))
  | unsubscribe r =>
    have hbefore : ∀ r' m,
        (l.detector.handle now (LivenessRequest.unsubscribe r).input).1.subscriptions.get? r' =
          some m → r' ≠ r ∧ l.detector.subscriptions.get? r' = some m := by
      intro r' m hr'
      rw [hwatch] at hr'
      have hupdate : Function.update l.detector.subscriptions.get? r none r' = some m := hr'
      rw [Function.update_apply] at hupdate
      split at hupdate
      · cases hupdate
      · exact ⟨‹_›, hupdate⟩
    refine ⟨fun r₁ r₂ m h₁ h₂ => h.single r₁ r₂ m (hbefore r₁ m h₁).2 (hbefore r₂ m h₂).2,
      fun r' m hr' => ?_, done, ?_, hreported, fun r' m hr' => hwatched r' m (hbefore r' m hr').2⟩
    · rw [hdetector] at hr' ⊢
      obtain ⟨hne, hwas⟩ := hbefore r' m hr'
      rw [hkept r' m hne hwas]
      exact h.verdict r' m hwas
    · rw [hq] at hnumbers
      exact hnumbers

/-- Every step keeps the account, with the reports that it makes. -/
theorem step (h : l.Recounted all) (htracked : l.Tracked) (hfresh : l.numbers.Nodup) (s : Step) :
    (l.step s).Recounted (all ++ l.emits s) := by
  have hnone : all ++ [] = all := List.append_nil all
  cases s with
  | install view =>
    show (l.relay (l.oracle.install view)).Recounted (all ++ [])
    rw [hnone]
    exact h.relay _
  | draw ids =>
    show Recounted { l with oracle := { l.oracle with ids } } (all ++ [])
    rw [hnone]
    exact ⟨h.single, h.verdict, h.past⟩
  | inbound now src message =>
    obtain ⟨hsubscriptions, hlive, hquiet⟩ := l.detector.receive_eq now src message
    have hemits : l.emits (.inbound now src message) = [] := hquiet
    rw [hemits, hnone]
    exact h.quiet _ hsubscriptions hlive
  | tick now => exact h.tick now
  | request now =>
    cases hq : l.requests with
    | nil =>
      have hstep : l.step (.request now) = l := by
        unfold LivenessLink.step
        rw [hq]
      have hemits : l.emits (.request now) = [] := by
        unfold emits
        rw [hq]
      rw [hstep, hemits, hnone]
      exact h
    | cons q rest =>
      obtain ⟨hafter, hemits⟩ := h.request htracked hfresh hq now
      have hstep : l.step (.request now) = { l with requests := rest }.detect now q.input := by
        unfold LivenessLink.step
        rw [hq]
      rw [hstep, hemits, hnone]
      exact hafter
  | report =>
    show (l.step .report).Recounted (all ++ [])
    rw [hnone]
    unfold LivenessLink.step
    cases l.reports with
    | nil => exact h
    | cons p rest =>
      exact relay (l := { l with reports := rest }) ⟨h.single, h.verdict, h.past⟩ _

end Recounted

end LivenessLink

end ReplicaRing
