import ReplicaRing.Proofs.OracleSteps

/-!
The leader of an oracle against what its failure detector takes for live, across changes of view
and whatever is on its way between the two. The oracle alone keeps its candidates and its leader in
step with its suspicions, `Oracle.Sound`. For the suspicions both sides and both ways count: the
request for a subscription of the oracle is on its way and nobody reports on it, or the detector
watches the node, and the reports on their way will leave the oracle with the verdict of the
detector, `LivenessLink.Tracked`. With nothing on its way the suspicions are the verdicts, which
gives `LivenessLink.leader_at_rest`.

The numbers of subscriptions have to be fresh. A number that is used twice lets a report on the old
subscription pass for one on the new.
-/

namespace ReplicaRing

namespace LivenessLink

variable {l : LivenessLink} {n : NodeId} {r : RequestId}

/-- The requests under a number that are on their way. -/
def requestsOn (l : LivenessLink) (r : RequestId) : List LivenessRequest :=
  l.requests.filter (·.number = r)

/-- The request for a subscription of the oracle is on its way. -/
structure Pending (l : LivenessLink) (n : NodeId) (r : RequestId) : Prop where
  queued : l.requestsOn r = [.subscribe r n]
  unwatched : l.detector.subscriptions.get? r = none
  unreported : ∀ p ∈ l.reports, p.request ≠ r
  trusted : n ∉ l.oracle.suspected

/-- The detector has a subscription of the oracle, and what is on its way will leave the oracle with
the verdict on the node. -/
structure Active (l : LivenessLink) (n : NodeId) (r : RequestId) : Prop where
  taken : l.requestsOn r = []
  watched : l.detector.subscriptions.get? r = some n
  named : ∀ p ∈ l.reports, p.request = r → p.node = n
  told : told r (l.oracle.suspected.contains n) l.reports = !l.detector.live.contains n

/-- What holds between an oracle and the detector as long as numbers are fresh. -/
structure Tracked (l : LivenessLink) : Prop where
  suspected : ∀ n ∈ l.oracle.suspected, l.oracle.subscriptions.get? n ≠ none
  watched : ∀ r n, l.detector.subscriptions.get? r = some n → r ∈ l.numbers
  requested : ∀ q ∈ l.requests, q.number ∈ l.numbers
  reported : ∀ p ∈ l.reports, p.request ∈ l.numbers
  orderly : Orderly l.detector.subscriptions.get? l.requests
  settled : ∀ r n, settle l.detector.subscriptions.get? l.requests r = some n →
    l.oracle.subscriptions.get? n = some r
  followed : ∀ n r, l.oracle.subscriptions.get? n = some r → l.Pending n r ∨ l.Active n r

lemma mem_requestsOn {q : LivenessRequest} :
    q ∈ l.requestsOn r ↔ q ∈ l.requests ∧ q.number = r := by
  unfold requestsOn
  rw [List.mem_filter, decide_eq_true_eq]

lemma requestsOn_relay_of_ne {o : Oracle} {out : List Oracle.Output} {q : LivenessRequest}
    (hout : Oracle.requestsIn out = [q]) (hne : q.number ≠ r) :
    (l.relay (o, out)).requestsOn r = l.requestsOn r := by
  unfold requestsOn relay
  rw [hout, List.filter_append, List.filter_cons_of_neg (by simp [hne])]
  exact List.append_nil _

namespace Tracked

/-- A subscription of the oracle has a number that was drawn. -/
lemma number_mem (h : l.Tracked) (hr : l.oracle.subscriptions.get? n = some r) : r ∈ l.numbers := by
  rcases h.followed n r hr with hpending | hactive
  · have hq : LivenessRequest.subscribe r n ∈ l.requestsOn r := by simp [hpending.queued]
    exact h.requested _ (mem_requestsOn.1 hq).1
  · exact h.watched r n hactive.watched

/-- No two subscriptions of the oracle have one number. -/
lemma number_inj (h : l.Tracked) {m : NodeId} (hn : l.oracle.subscriptions.get? n = some r)
    (hm : l.oracle.subscriptions.get? m = some r) : n = m := by
  rcases h.followed n r hn with hpending | hactive
  · rcases h.followed m r hm with hpending' | hactive'
    · have heq := hpending.queued.symm.trans hpending'.queued
      exact (LivenessRequest.subscribe.inj (List.singleton_inj.1 heq)).2
    · have heq := hpending.queued.symm.trans hactive'.taken
      cases heq
  · rcases h.followed m r hm with hpending' | hactive'
    · have heq := hactive.taken.symm.trans hpending'.queued
      cases heq
    · exact Option.some.inj (hactive.watched.symm.trans hactive'.watched)

end Tracked

/-- A subscription is followed as before if nothing on it is new. -/
lemma followed_of_eq {l' : LivenessLink} (h : l.Pending n r ∨ l.Active n r)
    (hrequests : l'.requestsOn r = l.requestsOn r)
    (hwatched : l'.detector.subscriptions.get? r = l.detector.subscriptions.get? r)
    (hlive : l.detector.subscriptions.get? r = some n →
      (n ∈ l'.detector.live ↔ n ∈ l.detector.live))
    (hreports : ∀ p ∈ l'.reports, p.request = r → p ∈ l.reports)
    (htold : ∀ before, told r before l'.reports = told r before l.reports)
    (hsuspected : n ∈ l'.oracle.suspected ↔ n ∈ l.oracle.suspected) :
    l'.Pending n r ∨ l'.Active n r := by
  rcases h with h | h
  · refine .inl ⟨hrequests.trans h.queued, hwatched.trans h.unwatched, fun p hp hpr => ?_,
      fun hn => h.trusted (hsuspected.1 hn)⟩
    exact h.unreported p (hreports p hp hpr) hpr
  · refine .inr ⟨hrequests.trans h.taken, hwatched.trans h.watched,
      fun p hp hpr => h.named p (hreports p hp hpr) hpr, ?_⟩
    have hsuspicion : l'.oracle.suspected.contains n = l.oracle.suspected.contains n := by
      rw [Bool.eq_iff_iff, SortedSet.contains_iff_mem, SortedSet.contains_iff_mem, hsuspected]
    have hverdict : l'.detector.live.contains n = l.detector.live.contains n := by
      rw [Bool.eq_iff_iff, SortedSet.contains_iff_mem, SortedSet.contains_iff_mem,
        hlive h.watched]
    rw [htold, hsuspicion, hverdict, h.told]

/-! ## Requests of the oracle -/

namespace Tracked

/-- What an oracle changes beside its subscriptions and suspicions does not matter. -/
lemma congr (h : l.Tracked) {o : Oracle}
    (hsubscriptions : ∀ n, o.subscriptions.get? n = l.oracle.subscriptions.get? n)
    (hsuspected : ∀ n, n ∈ o.suspected ↔ n ∈ l.oracle.suspected) :
    Tracked { l with oracle := o } where
  suspected n hn := by
    show o.subscriptions.get? n ≠ none
    rw [hsubscriptions]
    exact h.suspected n ((hsuspected n).1 hn)
  watched := h.watched
  requested := h.requested
  reported := h.reported
  orderly := h.orderly
  settled r n hr := (hsubscriptions n).trans (h.settled r n hr)
  followed n r hr := followed_of_eq (h.followed n r ((hsubscriptions n).symm.trans hr)) rfl rfl
    (fun _ => Iff.rfl) (fun _ hp _ => hp) (fun _ => rfl) (hsuspected n)

/-- The oracle subscribes to a node that it has no subscription for, under a fresh number. -/
lemma subscribe (h : l.Tracked) (hn : l.oracle.subscriptions.get? n = none) (hr : r ∉ l.numbers)
    (ids : IdSource) :
    (l.relay ({ l.oracle with ids, subscriptions := l.oracle.subscriptions.insert n r },
      [.subscribe r n])).Tracked where
  suspected m hm := by
    show (l.oracle.subscriptions.insert n r).get? m ≠ none
    rw [SortedMap.get?_insert]
    split
    · simp
    · exact h.suspected m hm
  watched r' m hm := List.mem_append_left _ (h.watched r' m hm)
  requested q hq := by
    rcases List.mem_append.1 hq with hq | hq
    · exact List.mem_append_left _ (h.requested q hq)
    · rw [List.mem_singleton.1 hq]
      exact List.mem_append_right _ (List.mem_singleton_self r)
  reported p hp := List.mem_append_left _ (h.reported p hp)
  orderly := orderly_subscribe h.orderly fun r' hr' => by
    rw [h.settled r' n hr'] at hn
    cases hn
  settled r' m hr' := by
    show (l.oracle.subscriptions.insert n r).get? m = some r'
    have hsettled : (if r' = r then some n else
        settle l.detector.subscriptions.get? l.requests r') = some m :=
      (settle_subscribe r r' n).symm.trans hr'
    rw [SortedMap.get?_insert]
    by_cases hsame : r' = r
    · rw [if_pos hsame, Option.some.injEq] at hsettled
      rw [if_pos hsettled.symm, hsame]
    · rw [if_neg hsame] at hsettled
      have hm := h.settled r' m hsettled
      have hne : m ≠ n := by
        rintro rfl
        rw [hm] at hn
        cases hn
      rw [if_neg hne, hm]
  followed m r' hr' := by
    have hcurrent : (if m = n then some r else l.oracle.subscriptions.get? m) = some r' :=
      (SortedMap.get?_insert ..).symm.trans hr'
    by_cases hm : m = n
    · -- the new subscription
      rw [if_pos hm, Option.some.injEq] at hcurrent
      subst hm hcurrent
      refine .inl ⟨?_, ?_, fun p hp hpr => hr (hpr ▸ h.reported p hp), fun hsuspected =>
        h.suspected m hsuspected hn⟩
      · have hnone : l.requestsOn r = [] := by
          rw [List.eq_nil_iff_forall_not_mem]
          intro q hq
          obtain ⟨hin, hnumber⟩ := mem_requestsOn.1 hq
          exact hr (hnumber ▸ h.requested q hin)
        show (l.requests ++ [LivenessRequest.subscribe r m]).filter (·.number = r) = _
        unfold requestsOn at hnone
        rw [List.filter_append, hnone, List.nil_append]
        exact List.filter_cons_of_pos (by simp [LivenessRequest.number])
      · cases hwatched : l.detector.subscriptions.get? r with
        | none => exact hwatched
        | some m' => exact absurd (h.watched r m' hwatched) hr
    · rw [if_neg hm] at hcurrent
      have hne : r ≠ r' := fun heq => hr (heq ▸ h.number_mem hcurrent)
      exact followed_of_eq (h.followed m r' hcurrent) (requestsOn_relay_of_ne rfl hne) rfl
        (fun _ => Iff.rfl) (fun _ hp _ => hp) (fun _ => rfl) Iff.rfl

/-- The oracle ends a subscription, and suspects the node no longer. -/
lemma unsubscribe (h : l.Tracked) (hr : l.oracle.subscriptions.get? n = some r) :
    (l.relay ({ l.oracle with
        suspected := l.oracle.suspected.erase n
        subscriptions := l.oracle.subscriptions.erase n }, [.unsubscribe r])).Tracked where
  suspected m hm := by
    obtain ⟨hm, hne⟩ := SortedSet.mem_erase.1 hm
    show (l.oracle.subscriptions.erase n).get? m ≠ none
    rw [SortedMap.get?_erase, if_neg hne]
    exact h.suspected m hm
  watched r' m hm := List.mem_append_left _ (h.watched r' m hm)
  requested q hq := by
    rcases List.mem_append.1 hq with hq | hq
    · exact List.mem_append_left _ (h.requested q hq)
    · rw [List.mem_singleton.1 hq]
      exact List.mem_append_left _ (h.number_mem hr)
  reported p hp := List.mem_append_left _ (h.reported p hp)
  orderly := orderly_unsubscribe h.orderly r
  settled r' m hr' := by
    show (l.oracle.subscriptions.erase n).get? m = some r'
    have hsettled : (if r' = r then none else
        settle l.detector.subscriptions.get? l.requests r') = some m :=
      (settle_unsubscribe r r').symm.trans hr'
    by_cases hsame : r' = r
    · rw [if_pos hsame] at hsettled
      cases hsettled
    · rw [if_neg hsame] at hsettled
      have hm := h.settled r' m hsettled
      have hne : m ≠ n := by
        rintro rfl
        exact hsame (Option.some.inj (hm.symm.trans hr))
      rw [SortedMap.get?_erase, if_neg hne, hm]
  followed m r' hr' := by
    have hcurrent : (if m = n then none else l.oracle.subscriptions.get? m) = some r' :=
      (SortedMap.get?_erase ..).symm.trans hr'
    by_cases hm : m = n
    · rw [if_pos hm] at hcurrent
      cases hcurrent
    · rw [if_neg hm] at hcurrent
      have hne : r ≠ r' := by
        rintro rfl
        exact hm (h.number_inj hcurrent hr)
      exact followed_of_eq (h.followed m r' hcurrent) (requestsOn_relay_of_ne rfl hne) rfl
        (fun _ => Iff.rfl) (fun _ hp _ => hp) (fun _ => rfl)
        (SortedSet.mem_erase.trans (and_iff_left hm))

lemma subscribeAll (h : l.Tracked) {nodes : List NodeId} (hnodup : nodes.Nodup)
    (hnew : ∀ n ∈ nodes, l.oracle.subscriptions.get? n = none)
    (hfresh : (l.relay (l.oracle.subscribeAll nodes)).numbers.Nodup) :
    (l.relay (l.oracle.subscribeAll nodes)).Tracked := by
  induction nodes generalizing l with
  | nil =>
    have heq : l.relay (l.oracle.subscribeAll []) = l := relay_quiet rfl
    rw [heq]
    exact h
  | cons n rest ih =>
    obtain ⟨hn, hrest⟩ := List.nodup_cons.1 hnodup
    let r := l.oracle.ids.next.1
    let o : Oracle := { l.oracle with
      ids := l.oracle.ids.next.2
      subscriptions := l.oracle.subscriptions.insert n r }
    have hsplit : l.relay (l.oracle.subscribeAll (n :: rest)) =
        (l.relay (o, [.subscribe r n])).relay (o.subscribeAll rest) :=
      (relay_relay l o (o.subscribeAll rest).1 [.subscribe r n] _).symm
    rw [hsplit] at hfresh ⊢
    have hr : r ∉ l.numbers := by
      have hprefix : (l.numbers ++ [r]).Nodup := hfresh.sublist (List.prefix_append _ _).sublist
      exact fun hin => (List.nodup_append.1 hprefix).2.2 r hin r (List.mem_singleton_self r) rfl
    refine ih (h.subscribe (hnew n (by simp)) hr _) hrest (fun m hm => ?_) hfresh
    show (l.oracle.subscriptions.insert n r).get? m = none
    have hne : m ≠ n := by
      rintro rfl
      exact hn hm
    rw [SortedMap.get?_insert, if_neg hne]
    exact hnew m (by simp [hm])

lemma dropAll (h : l.Tracked) (nodes : List NodeId) :
    (l.relay (l.oracle.dropAll nodes)).Tracked := by
  induction nodes generalizing l with
  | nil =>
    have heq : l.relay (l.oracle.dropAll []) = l := relay_quiet rfl
    rw [heq]
    exact h
  | cons n rest ih =>
    have hsplit : l.relay (l.oracle.dropAll (n :: rest)) =
        (l.relay ({ l.oracle with
            suspected := l.oracle.suspected.erase n
            subscriptions := l.oracle.subscriptions.erase n },
          ((l.oracle.subscriptions.get? n).map Oracle.Output.unsubscribe).toList)).relay
            (Oracle.dropAll { l.oracle with
              suspected := l.oracle.suspected.erase n
              subscriptions := l.oracle.subscriptions.erase n } rest) :=
      (relay_relay ..).symm
    rw [hsplit]
    refine ih ?_
    cases hn : l.oracle.subscriptions.get? n with
    | some r => exact h.unsubscribe hn
    | none =>
      show (l.relay (_, [])).Tracked
      rw [relay_quiet rfl]
      refine h.congr (fun m => ?_) fun m => ?_
      · show (l.oracle.subscriptions.erase n).get? m = _
        rw [SortedMap.get?_erase]
        by_cases hm : m = n
        · rw [if_pos hm, hm, hn]
        · rw [if_neg hm]
      · refine SortedSet.mem_erase.trans (and_iff_left_of_imp fun hm => ?_)
        rintro rfl
        exact h.suspected m hm hn

/-- The oracle ends all its subscriptions. -/
lemma clear (h : l.Tracked) : (l.relay l.oracle.clear).Tracked := by
  have hrequests := l.oracle.requestsIn_clear
  have hnumbers : ∀ r ∈ l.numbers, r ∈ (l.relay l.oracle.clear).numbers :=
    fun r hr => List.mem_append_left _ hr
  refine ⟨fun n hn => absurd hn (SortedSet.not_mem_empty n),
    fun r n hr => hnumbers r (h.watched r n hr), fun q hq => ?_,
    fun p hp => hnumbers _ (h.reported p hp), ?_, fun r n hr => ?_, fun n r hr => by cases hr⟩
  · rcases List.mem_append.1 hq with hq | hq
    · exact hnumbers _ (h.requested q hq)
    · rw [hrequests] at hq
      obtain ⟨r, hr, rfl⟩ := List.mem_map.1 hq
      obtain ⟨n, hn⟩ := Oracle.mem_ended.1 hr
      exact hnumbers r (h.number_mem hn)
  · show Orderly _ (l.requests ++ Oracle.requestsIn l.oracle.clear.2)
    rw [hrequests]
    exact orderly_append.2 ⟨h.orderly, orderly_ends _⟩
  · -- what would be watched still is ended
    have hsettled : settle l.detector.subscriptions.get?
        (l.requests ++ Oracle.requestsIn l.oracle.clear.2) r = some n := hr
    rw [hrequests, settle_append, settle_ends] at hsettled
    split at hsettled
    · cases hsettled
    · rename_i hkept
      exact absurd (Oracle.mem_ended.2 ⟨n, h.settled r n hsettled⟩) hkept

lemma adopt (h : l.Tracked) (hsound : l.oracle.Sound) (view : View)
    (hfresh : (l.relay (l.oracle.adopt view)).numbers.Nodup) :
    (l.relay (l.oracle.adopt view)).Tracked := by
  obtain ⟨leader, rest, -, hquiet, heq⟩ := l.oracle.adopt_eq view
  rw [heq, ← relay_relay l (l.oracle.renewed view).1, relay_quiet hquiet] at hfresh ⊢
  refine Tracked.congr ?_ (fun _ => rfl) fun _ => Iff.rfl
  -- subscriptions are made, and then others are ended
  let made := l.oracle.subscribeAll (l.oracle.arrivals view)
  have hsplit : l.relay (l.oracle.renewed view) =
      (l.relay made).relay (made.1.dropAll (l.oracle.departures view)) :=
    (relay_relay l made.1 _ made.2 _).symm
  show (l.relay (l.oracle.renewed view)).Tracked
  rw [hsplit]
  refine dropAll (l := l.relay made)
    (h.subscribeAll (l.oracle.nodup_arrivals view) (fun n hn => ?_) ?_) _
  · by_contra hsome
    exact (Oracle.mem_arrivals.1 hn).2.1 ((hsound.subscribed n).1 hsome).2
  · have hnumbers : (l.relay (l.oracle.renewed view)).numbers.Nodup := hfresh
    rw [hsplit] at hnumbers
    exact hnumbers.sublist (List.prefix_append _ _).sublist

lemma install (h : l.Tracked) (hsound : l.oracle.Sound) (view : View)
    (hfresh : (l.relay (l.oracle.install view)).numbers.Nodup) :
    (l.relay (l.oracle.install view)).Tracked := by
  unfold Oracle.install at hfresh ⊢
  split
  · exact h.clear
  · rename_i hmembers
    rw [if_neg hmembers] at hfresh
    split
    · rw [relay_quiet rfl]
      exact h
    · rename_i hnewer
      rw [if_neg hnewer] at hfresh
      exact h.adopt hsound view hfresh

/-! ## Requests and reports taken -/

/-- The oldest request reaches the detector. -/
lemma request (h : l.Tracked) {q : LivenessRequest} {rest : List LivenessRequest}
    (hq : l.requests = q :: rest) (now : Duration) :
    ({ l with requests := rest }.detect now q.input).Tracked := by
  have horderly := h.orderly
  have hsettled := h.settled
  have hrequested := h.requested
  rw [hq] at horderly hsettled hrequested
  obtain ⟨hturn, horderly⟩ := horderly
  obtain ⟨hwatched, hquiet, hkept, hlive⟩ := Detector.handle_request hturn now
  have hstep : { l with requests := rest }.detect now q.input =
      { l with detector := (l.detector.handle now q.input).1, requests := rest } := by
    unfold detect
    rw [hquiet, List.append_nil]
  rw [hstep]
  generalize (l.detector.handle now q.input).1 = d at hwatched hkept hlive
  refine ⟨h.suspected, fun r n hr => ?_, fun q' hq' => hrequested q' (List.mem_cons_of_mem q hq'),
    h.reported, ?_, fun r n hr => hsettled r n ?_, fun n r hr => ?_⟩
  · by_cases hown : r = q.number
    · exact hown ▸ hrequested q (by simp)
    · have happly : q.apply l.detector.subscriptions.get? r = some n := hwatched ▸ hr
      rw [LivenessRequest.apply_of_ne _ hown] at happly
      exact h.watched r n happly
  · show Orderly d.subscriptions.get? rest
    rw [hwatched]
    exact horderly
  · have hr : settle d.subscriptions.get? rest r = some n := hr
    rw [hwatched] at hr
    exact hr
  · by_cases hown : r = q.number
    · -- the request for a subscription of the oracle: it is followed from now on
      have hqueue : l.requestsOn r = q :: rest.filter (·.number = r) := by
        unfold requestsOn
        rw [hq]
        exact List.filter_cons_of_pos (by simp [hown])
      rcases h.followed n r hr with hpending | hactive
      · obtain ⟨rfl, hrest⟩ := List.cons_eq_cons.1 (hqueue.symm.trans hpending.queued)
        refine .inr ⟨hrest, ?_, fun p hp hpr => absurd hpr (hpending.unreported p hp), ?_⟩
        · show d.subscriptions.get? r = some n
          rw [hwatched]
          exact Function.update_self ..
        · have htrusted : l.oracle.suspected.contains n = false := by
            rw [← Bool.not_eq_true, SortedSet.contains_iff_mem]
            exact hpending.trusted
          rw [told_of_ne hpending.unreported, SortedSet.contains_iff_mem.2 (hlive r n rfl)]
          exact htrusted
      · rw [hactive.taken] at hqueue
        cases hqueue
    · refine followed_of_eq (h.followed n r hr) ?_ ?_ (hkept r n hown)
        (fun _ hp _ => hp) (fun _ => rfl) Iff.rfl
      · unfold requestsOn
        rw [hq]
        exact (List.filter_cons_of_neg (by simp [Ne.symm hown])).symm
      · exact (congrFun hwatched r).trans (LivenessRequest.apply_of_ne _ hown)

/-- The oldest report reaches the oracle. -/
lemma report (h : l.Tracked) {p : LivenessReport} {rest : List LivenessReport}
    (hp : l.reports = p :: rest) :
    ({ l with reports := rest }.relay (l.oracle.liveness p)).Tracked := by
  have hreported := h.reported
  rw [hp] at hreported
  rw [relay_quiet (l.oracle.requestsIn_liveness p)]
  obtain ⟨htaken, hstale⟩ := l.oracle.liveness_eq p
  by_cases hcurrent : l.oracle.subscriptions.get? p.node = some p.request
  · obtain ⟨hsubscriptions, -, -, hsuspected, -⟩ := htaken hcurrent
    refine ⟨fun n hn => ?_, h.watched, h.requested, fun p' hp' => hreported p' (by simp [hp']),
      h.orderly, fun r n hr => ?_, fun n r hr => ?_⟩
    · show (l.oracle.liveness p).1.subscriptions.get? n ≠ none
      rw [hsubscriptions]
      by_cases hn' : n = p.node
      · rw [hn', hcurrent]
        simp
      · have hn := (hsuspected n).1 hn
        rw [if_neg hn'] at hn
        exact h.suspected n hn
    · show (l.oracle.liveness p).1.subscriptions.get? n = some r
      rw [hsubscriptions]
      exact h.settled r n hr
    · have hr : l.oracle.subscriptions.get? n = some r := hsubscriptions ▸ hr
      by_cases hown : p.request = r
      · obtain rfl : n = p.node := h.number_inj hr (hown ▸ hcurrent)
        rcases h.followed p.node r hr with hpending | hactive
        · exact absurd hown (hpending.unreported p (by simp [hp]))
        · refine .inr ⟨hactive.taken, hactive.watched,
            fun p' hp' => hactive.named p' (by simp [hp, hp']), ?_⟩
          have hsuspicion : (l.oracle.liveness p).1.suspected.contains p.node = p.suspects := by
            rw [Bool.eq_iff_iff, SortedSet.contains_iff_mem, hsuspected, if_pos rfl]
          have htold := hactive.told
          rw [hp, told_cons, if_pos hown] at htold
          exact hsuspicion ▸ htold
      · have hne : n ≠ p.node := by
          rintro rfl
          exact hown (Option.some.inj (hcurrent.symm.trans hr))
        exact followed_of_eq (h.followed n r hr) rfl rfl (fun _ => Iff.rfl)
          (fun p' hp' _ => by simp [hp, show p' ∈ rest from hp'])
          (fun before => by rw [hp, told_cons, if_neg hown])
          ((hsuspected n).trans (by rw [if_neg hne]))
  · rw [hstale hcurrent]
    refine ⟨h.suspected, h.watched, h.requested, fun p' hp' => hreported p' (by simp [hp']),
      h.orderly, h.settled, fun n r hr => ?_⟩
    -- the report is for no subscription of the oracle
    have hown : p.request ≠ r := by
      rintro rfl
      rcases h.followed n _ hr with hpending | hactive
      · exact hpending.unreported p (by simp [hp]) rfl
      · rw [hactive.named p (by simp [hp]) rfl] at hcurrent
        exact hcurrent hr
    exact followed_of_eq (h.followed n r hr) rfl rfl (fun _ => Iff.rfl)
      (fun p' hp' _ => by simp [hp, show p' ∈ rest from hp'])
      (fun before => by rw [hp, told_cons, if_neg hown]) Iff.rfl

/-! ## Messages and rounds -/

/-- The detector changes, but not its subscriptions. -/
lemma rewatch (h : l.Tracked) {d : Detector} {reports : List LivenessReport}
    (hsubscriptions : d.subscriptions = l.detector.subscriptions)
    (hreported : ∀ p ∈ reports, p.request ∈ l.numbers)
    (hfollowed : ∀ n r, l.oracle.subscriptions.get? n = some r →
      Pending { l with detector := d, reports } n r ∨
        Active { l with detector := d, reports } n r) :
    Tracked { l with detector := d, reports } where
  suspected := h.suspected
  watched r n hr := h.watched r n (hsubscriptions ▸ hr)
  requested := h.requested
  reported := hreported
  orderly := by
    show Orderly d.subscriptions.get? l.requests
    rw [hsubscriptions]
    exact h.orderly
  settled r n hr := by
    have hr : settle d.subscriptions.get? l.requests r = some n := hr
    rw [hsubscriptions] at hr
    exact h.settled r n hr
  followed := hfollowed

lemma inbound (h : l.Tracked) (now : Duration) (src : NodeId) (message : Message) :
    (l.detect now (.inbound src message)).Tracked := by
  obtain ⟨hsubscriptions, hlive, hquiet⟩ := l.detector.receive_eq now src message
  have hstep : l.detect now (.inbound src message) =
      { l with detector := (l.detector.receive now src message).1 } := by
    show { l with
      detector := (l.detector.receive now src message).1
      reports := l.reports ++ Detector.reportsIn (l.detector.receive now src message).2 } = _
    rw [hquiet, List.append_nil]
  rw [hstep]
  exact h.rewatch hsubscriptions h.reported fun n r hr =>
    followed_of_eq (h.followed n r hr) rfl (congrArg (SortedMap.get? · r) hsubscriptions)
      (fun _ => iff_of_eq (congrArg (n ∈ ·) hlive)) (fun _ hp _ => hp) (fun _ => rfl) Iff.rfl

lemma tick (h : l.Tracked) (now : Duration) : (l.detect now .tick).Tracked := by
  obtain ⟨hsubscriptions, -, hverdicts⟩ := l.detector.tick_eq now
  have htold := fun n r hr => l.detector.told_verdicts (n := n) (r := r) hr now
  have hstep : l.detect now .tick = { l with
      detector := (l.detector.tick now).1
      reports := l.reports ++ l.detector.verdicts } := by
    rw [← hverdicts]
    rfl
  rw [hstep]
  generalize (l.detector.tick now).1 = d at hsubscriptions htold
  -- a round reports only to the subscriptions there are
  have hreported : ∀ p ∈ l.detector.verdicts,
      l.detector.subscriptions.get? p.request = some p.node :=
    fun p hp => (Detector.mem_verdicts.1 hp).1
  refine h.rewatch hsubscriptions (fun p hp => ?_) fun n r hr => ?_
  · rcases List.mem_append.1 hp with hp | hp
    · exact h.reported p hp
    · exact h.watched _ _ (hreported p hp)
  · rcases h.followed n r hr with hpending | hactive
    · refine .inl ⟨hpending.queued, ?_, fun p hp hpr => ?_, hpending.trusted⟩
      · show d.subscriptions.get? r = none
        rw [hsubscriptions]
        exact hpending.unwatched
      · rcases List.mem_append.1 hp with hp | hp
        · exact hpending.unreported p hp hpr
        · have hwatched := hreported p hp
          rw [hpr, hpending.unwatched] at hwatched
          cases hwatched
    · refine .inr ⟨hactive.taken, ?_, fun p hp hpr => ?_, ?_⟩
      · show d.subscriptions.get? r = some n
        rw [hsubscriptions]
        exact hactive.watched
      · rcases List.mem_append.1 hp with hp | hp
        · exact hactive.named p hp hpr
        · have hwatched := hreported p hp
          rw [hpr, hactive.watched] at hwatched
          exact (Option.some.inj hwatched).symm
      · show told r (l.oracle.suspected.contains n)
          (l.reports ++ l.detector.verdicts) = !d.live.contains n
        rw [told_append, hactive.told]
        exact htold n r hactive.watched

end Tracked

/-! ## Runs -/

/-- What a step makes of the oracle. -/
lemma oracle_step (l : LivenessLink) (s : Step) :
    (∃ ids, (l.step s).oracle = { l.oracle with ids }) ∨
      (∃ view, (l.step s).oracle = (l.oracle.install view).1) ∨
      ∃ p, (l.step s).oracle = (l.oracle.liveness p).1 := by
  cases s with
  | install view => exact .inr (.inl ⟨view, rfl⟩)
  | draw ids => exact .inl ⟨ids, rfl⟩
  | inbound now src message => exact .inl ⟨l.oracle.ids, rfl⟩
  | tick now => exact .inl ⟨l.oracle.ids, rfl⟩
  | request now =>
    unfold step
    cases l.requests with
    | nil => exact .inl ⟨l.oracle.ids, rfl⟩
    | cons q rest => exact .inl ⟨l.oracle.ids, rfl⟩
  | report =>
    unfold step
    cases l.reports with
    | nil => exact .inl ⟨l.oracle.ids, rfl⟩
    | cons p rest => exact .inr (.inr ⟨p, rfl⟩)

lemma sound_step (h : l.oracle.Sound) (s : Step) :
    (l.step s).oracle.Sound ∧ (l.step s).oracle.self = l.oracle.self := by
  rcases l.oracle_step s with ⟨ids, hstep⟩ | ⟨view, hstep⟩ | ⟨p, hstep⟩
  · rw [hstep]
    exact ⟨⟨h.subscribed, h.candidates, h.leader⟩, rfl⟩
  · rw [hstep]
    exact ⟨h.install view, l.oracle.self_install view⟩
  · rw [hstep]
    exact ⟨h.liveness p, l.oracle.self_liveness p⟩

lemma tracked_step (h : l.Tracked) (hsound : l.oracle.Sound) (s : Step)
    (hfresh : (l.step s).numbers.Nodup) : (l.step s).Tracked := by
  cases s with
  | install view => exact h.install hsound view hfresh
  | draw ids => exact h.congr (fun _ => rfl) fun _ => Iff.rfl
  | inbound now src message => exact h.inbound now src message
  | tick now => exact h.tick now
  | request now =>
    unfold step
    cases hq : l.requests with
    | nil => exact h
    | cons q rest => exact h.request hq now
  | report =>
    unfold step
    cases hp : l.reports with
    | nil => exact h
    | cons p rest => exact h.report hp

lemma tracked_start (self : NodeId) (ids : IdSource) (config : DetectorConfig) :
    (start self ids config).Tracked where
  suspected n hn := absurd hn (SortedSet.not_mem_empty n)
  watched r n hr := by cases hr
  requested q hq := by cases hq
  reported p hp := by cases hp
  orderly := trivial
  settled r n hr := by cases hr
  followed n r hr := by cases hr

/-- What holds along every run. -/
lemma tracked_run (self : NodeId) (ids : IdSource) (config : DetectorConfig) (steps : List Step) :
    ((start self ids config).run steps).oracle.self = self ∧
      ((start self ids config).run steps).oracle.Sound ∧
      (((start self ids config).run steps).numbers.Nodup →
        ((start self ids config).run steps).Tracked) := by
  induction steps using List.reverseRecOn with
  | nil => exact ⟨rfl, Oracle.sound_start self ids, fun _ => tracked_start self ids config⟩
  | append_singleton steps s ih =>
    obtain ⟨hself, hsound, htracked⟩ := ih
    have hrun : (start self ids config).run (steps ++ [s]) =
        ((start self ids config).run steps).step s := List.foldl_append
    rw [hrun]
    obtain ⟨hsound', hsame⟩ := sound_step hsound s
    refine ⟨hsame.trans hself, hsound', fun hfresh => ?_⟩
    have hbefore := hfresh.sublist (numbers_step _ s).sublist
    exact tracked_step (htracked hbefore) hsound s hfresh

/-- With nothing on its way in either direction and a view installed, the candidates are the members
that are the node itself or live by the detector, and the leader is the lowest. -/
theorem leader_at_rest (self : NodeId) (ids : IdSource) (config : DetectorConfig)
    (steps : List Step) (view : View)
    (hfresh : ((start self ids config).run steps).numbers.Nodup)
    (hview : ((start self ids config).run steps).oracle.view = some view)
    (hrequests : ((start self ids config).run steps).requests = [])
    (hreports : ((start self ids config).run steps).reports = []) :
    let l := (start self ids config).run steps
    (∀ n, n ∈ l.oracle.candidates ↔ n ∈ view.members ∧ (n = self ∨ n ∈ l.detector.live)) ∧
      (∀ n, l.oracle.leader = some n ↔
        n ∈ l.oracle.candidates ∧ ∀ m ∈ l.oracle.candidates, compare m n ≠ .lt) ∧
      (l.oracle.leader = none ↔ ∀ n, n ∉ l.oracle.candidates) := by
  intro l
  obtain ⟨hself, hsound, htracked⟩ := tracked_run self ids config steps
  have htracked := htracked hfresh
  have hmembers : l.oracle.members = view.members := by
    unfold Oracle.members
    rw [hview]
    rfl
  refine ⟨fun n => ?_, fun n => ?_, ?_⟩
  · rw [hsound.candidates, hmembers, and_congr_right_iff]
    intro hn
    by_cases hown : n = self
    · -- the oracle does not watch its own node
      have hnone : l.oracle.subscriptions.get? n = none := by
        by_contra hsome
        exact ((hsound.subscribed n).1 hsome).1 (hown.trans hself.symm)
      exact iff_of_true (fun hsuspected => htracked.suspected n hsuspected hnone) (.inl hown)
    · rw [or_iff_right hown]
      have hsome : l.oracle.subscriptions.get? n ≠ none :=
        (hsound.subscribed n).2 ⟨fun h => hown (h.trans hself), hmembers ▸ hn⟩
      obtain ⟨r, hr⟩ := Option.ne_none_iff_exists'.1 hsome
      rcases htracked.followed n r hr with hpending | hactive
      · have hqueue := hpending.queued
        unfold requestsOn at hqueue
        rw [hrequests] at hqueue
        cases hqueue
      · have htold := hactive.told
        rw [hreports] at htold
        have hverdict : l.oracle.suspected.contains n = !l.detector.live.contains n := htold
        rw [← SortedSet.contains_iff_mem, ← SortedSet.contains_iff_mem, hverdict]
        simp
  · rw [hsound.leader, SortedSet.first?_eq_some_iff]
  · rw [hsound.leader, SortedSet.first?_eq_none_iff]

/-- A view of two nodes, and a newer one in which another node takes the first one's place. The
detector suspects the first node when it is no member any more and the request to end its
subscription is on its way, and later it suspects the new one. -/
def turnover : List Step :=
  [.install (.ofList 1 [⟨"a", 1, none⟩, ⟨"b", 1, none⟩]), .request 0, .tick 0,
    .install (.ofList 2 [⟨"b", 1, none⟩, ⟨"c", 1, none⟩]), .tick 0, .request 0, .request 0,
    .tick 0, .tick 0, .report, .report]

/-- The report on the node that left changes nothing, and the one on the new node is heard. -/
theorem leader_at_rest_turnover :
    let l := (start ⟨"b", 1, none⟩ (.ofSeed 0 0) {}).run turnover
    l.oracle.suspected = .ofList [⟨"c", 1, none⟩] ∧ l.oracle.leader = some ⟨"b", 1, none⟩ ∧
      ∀ n, n ∈ l.oracle.candidates ↔
        n ∈ (View.ofList 2 [⟨"b", 1, none⟩, ⟨"c", 1, none⟩]).members ∧
          (n = ⟨"b", 1, none⟩ ∨ n ∈ l.detector.live) := by
  have hrest := leader_at_rest ⟨"b", 1, none⟩ (.ofSeed 0 0) {} turnover
    (.ofList 2 [⟨"b", 1, none⟩, ⟨"c", 1, none⟩]) (by decide) (by decide) (by decide) (by decide)
  exact ⟨by decide, by decide, hrest.1⟩

end LivenessLink

end ReplicaRing
