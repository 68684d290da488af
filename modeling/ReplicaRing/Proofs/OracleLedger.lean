import ReplicaRing.Proofs.OracleSteps

/-!
What an oracle holds against what it asked of its failure detector, over a run of installed views
and reports. The requests are the ledger: each opens a subscription under a number of its own, or
ends one that is open, and the oracle holds those that are open, `Oracle.Ledger`. With that,
`Oracle.Sound` says all the rest of it, `Oracle.course_invariant`.

Reports may be on any node and under any number. Only those on a subscription that is held count,
so no ledger of reports is needed.
-/

namespace ReplicaRing

namespace LivenessRequest

/-- The numbers that some requests subscribe under. -/
def numbers (requests : List LivenessRequest) : List RequestId :=
  requests.filterMap subscribed?

/-- A node is subscribed to under a number, and that is not ended. -/
def Open (requests : List LivenessRequest) (r : RequestId) (n : NodeId) : Prop :=
  .subscribe r n ∈ requests ∧ .unsubscribe r ∉ requests

/-- A subscription is ended after it was made, and once. -/
def Paired (requests : List LivenessRequest) : Prop :=
  ∀ before r after, requests = before ++ .unsubscribe r :: after →
    (∃ n, .subscribe r n ∈ before) ∧ .unsubscribe r ∉ before

variable {requests : List LivenessRequest} {r r' : RequestId} {n m : NodeId}

lemma numbers_append (requests more : List LivenessRequest) :
    numbers (requests ++ more) = numbers requests ++ numbers more := List.filterMap_append

lemma mem_numbers : r ∈ numbers requests ↔ ∃ n, .subscribe r n ∈ requests := by
  unfold numbers
  rw [List.mem_filterMap]
  constructor
  · rintro ⟨q, hq, hr⟩
    cases q with
    | subscribe r' n =>
      obtain rfl := Option.some.inj hr
      exact ⟨n, hq⟩
    | unsubscribe r' => cases hr
  · exact fun ⟨n, hn⟩ => ⟨_, hn, rfl⟩

lemma open_subscribe :
    Open (requests ++ [.subscribe r n]) r' m ↔
      (.subscribe r' m ∈ requests ∨ r' = r ∧ m = n) ∧ .unsubscribe r' ∉ requests := by
  simp [Open]

lemma open_unsubscribe :
    Open (requests ++ [.unsubscribe r]) r' m ↔ Open requests r' m ∧ r' ≠ r := by
  simp [Open, and_assoc]

lemma Paired.made (h : Paired requests) (hr : .unsubscribe r ∈ requests) :
    ∃ n, .subscribe r n ∈ requests := by
  obtain ⟨before, after, heq⟩ := List.append_of_mem hr
  obtain ⟨n, hn⟩ := (h before r after heq).1
  exact ⟨n, heq ▸ List.mem_append_left _ hn⟩

lemma Paired.concat {q : LivenessRequest} (h : Paired requests)
    (hq : ∀ r, q = .unsubscribe r → ∃ n, Open requests r n) : Paired (requests ++ [q]) := by
  intro before r after heq
  rcases List.eq_nil_or_concat after with rfl | ⟨after, last, rfl⟩
  · obtain ⟨rfl, hlast⟩ := List.append_inj' heq rfl
    obtain ⟨n, hmade, hkept⟩ := hq r (List.singleton_inj.1 hlast)
    exact ⟨⟨n, hmade⟩, hkept⟩
  · have heq' : requests ++ [q] = (before ++ .unsubscribe r :: after) ++ [last] := by
      rw [heq]
      simp
    exact h before r after (List.append_inj' heq' rfl).1

lemma Paired.ends (h : Paired requests) {rs : List RequestId} (hnodup : rs.Nodup)
    (hrs : ∀ r ∈ rs, ∃ n, Open requests r n) : Paired (requests ++ rs.map .unsubscribe) := by
  induction rs generalizing requests with
  | nil => simpa using h
  | cons r rest ih =>
    obtain ⟨hr, hrest⟩ := List.nodup_cons.1 hnodup
    have hended : Paired (requests ++ [.unsubscribe r]) := h.concat fun r' heq => by
      obtain rfl := LivenessRequest.unsubscribe.inj heq
      exact hrs r List.mem_cons_self
    have hsplit : requests ++ (r :: rest).map .unsubscribe =
        (requests ++ [.unsubscribe r]) ++ rest.map .unsubscribe := by simp
    rw [hsplit]
    refine ih hended hrest fun r' hr' => ?_
    obtain ⟨n, hn⟩ := hrs r' (List.mem_cons_of_mem _ hr')
    exact ⟨n, open_unsubscribe.2 ⟨hn, fun heq => hr (heq ▸ hr')⟩⟩

end LivenessRequest

namespace Oracle

open LivenessRequest

/-- An oracle holds the subscriptions that its requests leave open, and suspects nobody else. -/
structure Ledger (o : Oracle) (requests : List LivenessRequest) : Prop where
  held : ∀ n r, o.subscriptions.get? n = some r ↔ Open requests r n
  distinct : ∀ n m r, o.subscriptions.get? n = some r → o.subscriptions.get? m = some r → n = m
  paired : Paired requests
  suspected : ∀ n ∈ o.suspected, o.subscriptions.get? n ≠ none

variable {o : Oracle} {requests : List LivenessRequest} {r : RequestId} {n : NodeId}

lemma ledger_start (self : NodeId) (ids : IdSource) : (start self ids).Ledger [] where
  held n r := ⟨fun h => (by cases h), fun h => absurd h.1 List.not_mem_nil⟩
  distinct n m r h := by cases h
  paired before r after heq := by simp at heq
  suspected n hn := absurd hn (SortedSet.not_mem_empty n)

namespace Ledger

/-- What an oracle changes beside its subscriptions and suspicions does not matter. -/
lemma congr (h : o.Ledger requests) {o' : Oracle}
    (hsubscriptions : ∀ n, o'.subscriptions.get? n = o.subscriptions.get? n)
    (hsuspected : ∀ n ∈ o'.suspected, o.subscriptions.get? n ≠ none) : o'.Ledger requests where
  held n r := by rw [hsubscriptions, h.held]
  distinct n m r hn hm := h.distinct n m r (hsubscriptions n ▸ hn) (hsubscriptions m ▸ hm)
  paired := h.paired
  suspected n hn := by
    rw [hsubscriptions]
    exact hsuspected n hn

/-! ## Single requests -/

lemma subscribe (h : o.Ledger requests) (hn : o.subscriptions.get? n = none)
    (hr : r ∉ numbers requests) (ids : IdSource) :
    Ledger { o with ids, subscriptions := o.subscriptions.insert n r }
      (requests ++ [.subscribe r n]) := by
  -- under a number that was never used nothing was made or ended, and nobody is held
  have hunmade : ∀ m, .subscribe r m ∉ requests := fun m hm => hr (mem_numbers.2 ⟨m, hm⟩)
  have hunended : .unsubscribe r ∉ requests := fun hended =>
    hr (mem_numbers.2 (h.paired.made hended))
  have hunheld : ∀ m, o.subscriptions.get? m ≠ some r := fun m hm =>
    hunmade m ((h.held m r).1 hm).1
  have hget : ∀ m, (o.subscriptions.insert n r).get? m =
      if m = n then some r else o.subscriptions.get? m :=
    fun m => SortedMap.get?_insert _ _ m _
  refine ⟨fun m r' => ?_, fun m m' r' hm hm' => ?_, h.paired.concat fun r' heq => (by cases heq),
    fun m hm => ?_⟩
  · show (o.subscriptions.insert n r).get? m = some r' ↔ _
    rw [hget, open_subscribe]
    by_cases hsame : m = n
    · subst hsame
      have hclosed : ¬ Open requests r' m := fun hopen => by
        rw [(h.held m r').2 hopen] at hn
        cases hn
      rw [if_pos rfl, Option.some.injEq]
      constructor
      · rintro rfl
        exact ⟨.inr ⟨rfl, rfl⟩, hunended⟩
      · rintro ⟨hmade | ⟨heq, -⟩, hkept⟩
        · exact absurd ⟨hmade, hkept⟩ hclosed
        · exact heq.symm
    · rw [if_neg hsame, h.held]
      simp only [Open, hsame, and_false, or_false]
  · have hm : (o.subscriptions.insert n r).get? m = some r' := hm
    have hm' : (o.subscriptions.insert n r).get? m' = some r' := hm'
    rw [hget] at hm hm'
    split at hm
    · rename_i hsame
      obtain rfl := Option.some.inj hm
      split at hm'
      · rename_i hsame'
        exact hsame.trans hsame'.symm
      · exact absurd hm' (hunheld m')
    · split at hm'
      · obtain rfl := Option.some.inj hm'
        exact absurd hm (hunheld m)
      · exact h.distinct m m' r' hm hm'
  · show (o.subscriptions.insert n r).get? m ≠ none
    rw [hget]
    split
    · simp
    · exact h.suspected m hm

lemma unsubscribe (h : o.Ledger requests) (hr : o.subscriptions.get? n = some r) :
    Ledger { o with
        suspected := o.suspected.erase n
        subscriptions := o.subscriptions.erase n }
      (requests ++ [.unsubscribe r]) := by
  have hget : ∀ m, (o.subscriptions.erase n).get? m =
      if m = n then none else o.subscriptions.get? m := SortedMap.get?_erase _ _
  have hkept : ∀ {m r'}, (o.subscriptions.erase n).get? m = some r' →
      m ≠ n ∧ o.subscriptions.get? m = some r' := by
    intro m r' hm
    rw [hget] at hm
    split at hm
    · cases hm
    · exact ⟨‹_›, hm⟩
  refine ⟨fun m r' => ?_, fun m m' r' hm hm' => h.distinct m m' r' (hkept hm).2 (hkept hm').2,
    h.paired.concat fun r' heq => ?_, fun m hm => ?_⟩
  · rw [open_unsubscribe, ← h.held]
    constructor
    · intro hm
      obtain ⟨hne, hm⟩ := hkept hm
      refine ⟨hm, ?_⟩
      rintro rfl
      exact hne (h.distinct m n r' hm hr)
    · rintro ⟨hm, hne⟩
      show (o.subscriptions.erase n).get? m = some r'
      have hother : m ≠ n := by
        rintro rfl
        exact hne (Option.some.inj (hm.symm.trans hr))
      rw [hget, if_neg hother, hm]
  · obtain rfl := LivenessRequest.unsubscribe.inj heq
    exact ⟨n, (h.held n r).1 hr⟩
  · obtain ⟨hm, hne⟩ := SortedSet.mem_erase.1 hm
    show (o.subscriptions.erase n).get? m ≠ none
    rw [hget, if_neg hne]
    exact h.suspected m hm

/-! ## Installed views -/

lemma subscribeAll (h : o.Ledger requests) {nodes : List NodeId} (hnodup : nodes.Nodup)
    (hnew : ∀ n ∈ nodes, o.subscriptions.get? n = none)
    (hfresh : (numbers (requests ++ requestsIn (o.subscribeAll nodes).2)).Nodup) :
    (o.subscribeAll nodes).1.Ledger (requests ++ requestsIn (o.subscribeAll nodes).2) := by
  induction nodes generalizing o requests with
  | nil => simpa [Oracle.subscribeAll, requestsIn] using h
  | cons n rest ih =>
    obtain ⟨hn, hrest⟩ := List.nodup_cons.1 hnodup
    let r := o.ids.next.1
    let made : Oracle := { o with
      ids := o.ids.next.2
      subscriptions := o.subscriptions.insert n r }
    have hsplit : requests ++ requestsIn (o.subscribeAll (n :: rest)).2 =
        (requests ++ [.subscribe r n]) ++ requestsIn (made.subscribeAll rest).2 := by
      rw [List.append_assoc]
      rfl
    rw [hsplit] at hfresh ⊢
    have hr : r ∉ numbers requests := by
      rw [numbers_append, numbers_append] at hfresh
      have hdisjoint := (List.nodup_append.1 (List.nodup_append.1 hfresh).1).2.2
      exact fun hin => hdisjoint r hin r List.mem_cons_self rfl
    refine ih (h.subscribe (hnew n List.mem_cons_self) hr _) hrest (fun m hm => ?_) hfresh
    show (o.subscriptions.insert n r).get? m = none
    have hne : m ≠ n := by
      rintro rfl
      exact hn hm
    rw [SortedMap.get?_insert, if_neg hne]
    exact hnew m (List.mem_cons_of_mem _ hm)

/-- A node is dropped, with its subscription if it has one. -/
lemma drop (h : o.Ledger requests) (n : NodeId) :
    Ledger { o with
        suspected := o.suspected.erase n
        subscriptions := o.subscriptions.erase n }
      (requests ++ requestsIn ((o.subscriptions.get? n).map Output.unsubscribe).toList) := by
  cases hn : o.subscriptions.get? n with
  | some r => exact h.unsubscribe hn
  | none =>
    show Ledger _ (requests ++ [])
    rw [List.append_nil]
    refine h.congr (fun m => ?_) fun m hm => h.suspected m (SortedSet.mem_erase.1 hm).1
    show (o.subscriptions.erase n).get? m = _
    rw [SortedMap.get?_erase]
    split
    · rename_i hm
      rw [hm, hn]
    · rfl

lemma dropAll (h : o.Ledger requests) (nodes : List NodeId) :
    (o.dropAll nodes).1.Ledger (requests ++ requestsIn (o.dropAll nodes).2) := by
  induction nodes generalizing o requests with
  | nil => simpa [Oracle.dropAll, requestsIn] using h
  | cons n rest ih =>
    unfold Oracle.dropAll
    simp only
    rw [requestsIn_append, ← List.append_assoc]
    exact ih (h.drop n)

/-- An empty view ends every subscription. -/
lemma clear (h : o.Ledger requests) : o.clear.1.Ledger (requests ++ requestsIn o.clear.2) := by
  rw [requestsIn_clear]
  refine ⟨fun n r => ⟨fun hn => (by cases hn), fun hopen => ?_⟩, fun n m r hn => (by cases hn),
    h.paired.ends o.nodup_ended fun r hr => ?_, fun n hn => absurd hn (SortedSet.not_mem_empty n)⟩
  · -- what was open is held, and all that is held is ended
    obtain ⟨hmade, hkept⟩ := hopen
    rw [List.mem_append, not_or] at hkept
    have hmade : .subscribe r n ∈ requests := by simpa using hmade
    have hended : r ∈ o.ended := mem_ended.2 ⟨n, (h.held n r).2 ⟨hmade, hkept.1⟩⟩
    exact absurd (List.mem_map_of_mem hended) hkept.2
  · obtain ⟨n, hn⟩ := mem_ended.1 hr
    exact ⟨n, (h.held n r).1 hn⟩

lemma adopt (h : o.Ledger requests) (hsound : o.Sound) (view : View)
    (hfresh : (numbers (requests ++ requestsIn (o.adopt view).2)).Nodup) :
    (o.adopt view).1.Ledger (requests ++ requestsIn (o.adopt view).2) := by
  obtain ⟨leader, rest, -, hquiet, heq⟩ := o.adopt_eq view
  rw [heq] at hfresh ⊢
  simp only [requestsIn_append, hquiet, List.append_nil] at hfresh ⊢
  -- subscriptions are made, and then others are ended
  have hrenewed : (o.renewed view).1.Ledger (requests ++ requestsIn (o.renewed view).2) := by
    unfold renewed at hfresh ⊢
    simp only at hfresh ⊢
    rw [requestsIn_append, ← List.append_assoc] at hfresh ⊢
    rw [numbers_append] at hfresh
    refine (h.subscribeAll (o.nodup_arrivals view) (fun n hn => ?_)
      (List.nodup_append.1 hfresh).1).dropAll _
    by_contra hsome
    exact (mem_arrivals.1 hn).2.1 ((hsound.subscribed n).1 hsome).2
  exact hrenewed.congr (fun _ => rfl) hrenewed.suspected

lemma install (h : o.Ledger requests) (hsound : o.Sound) (view : View)
    (hfresh : (numbers (requests ++ requestsIn (o.install view).2)).Nodup) :
    (o.install view).1.Ledger (requests ++ requestsIn (o.install view).2) := by
  unfold Oracle.install at hfresh ⊢
  split
  · exact h.clear
  · rename_i hmembers
    rw [if_neg hmembers] at hfresh
    split
    · exact (List.append_nil requests).symm ▸ h
    · rename_i hnewer
      rw [if_neg hnewer] at hfresh
      exact h.adopt hsound view hfresh

/-! ## Reports -/

lemma liveness (h : o.Ledger requests) (p : LivenessReport) :
    (o.liveness p).1.Ledger requests := by
  obtain ⟨htaken, hstale⟩ := o.liveness_eq p
  by_cases hcurrent : o.subscriptions.get? p.node = some p.request
  · obtain ⟨hsubscriptions, -, -, hsuspected, -, -⟩ := htaken hcurrent
    refine h.congr (fun n => by rw [hsubscriptions]) fun n hn => ?_
    rw [hsuspected] at hn
    split at hn
    · rename_i hreported
      rw [hreported, hcurrent]
      simp
    · exact h.suspected n hn
  · rw [hstale hcurrent]
    exact h

lemma receive (h : o.Ledger requests) (hsound : o.Sound) (input : Input)
    (hfresh : (numbers (requests ++ requestsIn (o.receive input).2)).Nodup) :
    (o.receive input).1.Ledger (requests ++ requestsIn (o.receive input).2) := by
  cases input with
  | install view => exact h.install hsound view hfresh
  | liveness p =>
    show (o.liveness p).1.Ledger (requests ++ requestsIn (o.liveness p).2)
    rw [requestsIn_liveness, List.append_nil]
    exact h.liveness p

end Ledger

/-! ## What others are told -/

lemma watched_reelect (h : o.watched = o.leader) : o.reelect.1.watched = o.reelect.1.leader := by
  unfold reelect
  simp only
  split
  · exact h
  · rfl

/-- Followers outside see the leader. -/
lemma watched_receive (h : o.watched = o.leader) (input : Input) :
    (o.receive input).1.watched = (o.receive input).1.leader := by
  cases input with
  | install view =>
    show (o.install view).1.watched = (o.install view).1.leader
    unfold install
    split
    · rfl
    · split
      · exact h
      · rfl
  | liveness p =>
    show (o.liveness p).1.watched = (o.liveness p).1.leader
    unfold liveness
    split
    · cases p with
      | suspect n r => exact watched_reelect h
      | restore n r => exact watched_reelect h
    · exact h

lemma Sound.view_ne_none (h : o.Sound) (hn : o.subscriptions.get? n ≠ none) : o.view ≠ none := by
  have hmember := ((h.subscribed n).1 hn).2
  unfold members at hmember
  intro hnone
  rw [hnone] at hmember
  exact absurd hmember (SortedSet.not_mem_empty n)

lemma trust_install {view : View} {viewId : UInt64}
    (htrust : .trust n viewId ∈ eventsIn (o.install view).2) :
    (o.install view).1.leader = some n ∧ (o.install view).1.view.map View.id = some viewId := by
  unfold install at htrust ⊢
  split
  · rename_i hempty
    rw [if_pos hempty] at htrust
    simp [clear, eventsIn, Output.event?] at htrust
  · rename_i hmembers
    rw [if_neg hmembers] at htrust
    split
    · rename_i hstale
      rw [if_pos hstale] at htrust
      cases htrust
    · rename_i hnewer
      rw [if_neg hnewer, (o.adopt_leader view).1, Option.mem_toList, Option.map_eq_some_iff] at htrust
      obtain ⟨m, hleader, heq⟩ := htrust
      obtain ⟨rfl, rfl⟩ := OracleEvent.trust.inj heq
      exact ⟨hleader, rfl⟩

lemma trust_reelect (hview : o.view ≠ none) {viewId : UInt64}
    (htrust : .trust n viewId ∈ eventsIn o.reelect.2) :
    o.reelect.1.leader = some n ∧ o.reelect.1.view.map View.id = some viewId := by
  obtain ⟨view, hview⟩ := Option.ne_none_iff_exists'.1 hview
  unfold reelect at htrust ⊢
  simp only at htrust ⊢
  split
  · rename_i hsame
    rw [if_pos hsame] at htrust
    simp [eventsIn, Output.event?] at htrust
  · rename_i hmoved
    rw [if_neg hmoved] at htrust
    unfold setLeader
    cases hfirst : o.candidates.first? with
    | none => simp [hfirst, eventsIn, Output.event?] at htrust
    | some m =>
      obtain ⟨rfl, rfl⟩ : m = n ∧ view.id = viewId := by
        simpa [hfirst, hview, eventsIn, Output.event?] using htrust
      exact ⟨rfl, by rw [hview]; rfl⟩

lemma trust_liveness (h : o.Sound) {p : LivenessReport} {viewId : UInt64}
    (htrust : .trust n viewId ∈ eventsIn (o.liveness p).2) :
    (o.liveness p).1.leader = some n ∧ (o.liveness p).1.view.map View.id = some viewId := by
  unfold liveness at htrust ⊢
  split
  · rename_i hcurrent
    rw [if_pos hcurrent] at htrust
    -- there is a view, since only its members are held
    have hview : o.view ≠ none := h.view_ne_none (n := p.node) (by simp [hcurrent])
    cases p with
    | suspect m r =>
      refine trust_reelect ?_ htrust
      exact hview
    | restore m r =>
      refine trust_reelect ?_ htrust
      exact hview
  · rename_i hstale
    rw [if_neg hstale] at htrust
    cases htrust

/-- Who is said to be trusted is the leader just chosen, in the view there is. -/
lemma trust_receive (h : o.Sound) {input : Input} {viewId : UInt64}
    (htrust : .event (.trust n viewId) ∈ (o.receive input).2) :
    (o.receive input).1.leader = some n ∧
      (o.receive input).1.view.map View.id = some viewId := by
  have htrust : .trust n viewId ∈ eventsIn (o.receive input).2 :=
    List.mem_filterMap.2 ⟨_, htrust, rfl⟩
  cases input with
  | install view => exact trust_install htrust
  | liveness p => exact trust_liveness h htrust

/-! ## Runs -/

/-- What happens to an oracle. Other parts of the node draw numbers from the source that it draws
from. -/
inductive Happening where
  | input (input : Input)
  | draw (ids : IdSource)

def meet (o : Oracle) : Happening → Oracle × List Output
  | .input input => o.receive input
  | .draw ids => ({ o with ids }, [])

/-- The oracle at the end of a run, and all that it put out. -/
def course (o : Oracle) : List Happening → Oracle × List Output
  | [] => (o, [])
  | h :: rest =>
    let (o, out) := o.meet h
    let (o, more) := o.course rest
    (o, out ++ more)

/-- What holds along a run of an oracle that made some requests. -/
structure Kept (o : Oracle) (node : NodeId) (requests : List LivenessRequest) : Prop where
  own : o.self = node
  sound : o.Sound
  ledger : o.Ledger requests
  watched : o.watched = o.leader

variable {node : NodeId}

lemma Kept.meet (h : o.Kept node requests) (x : Happening)
    (hfresh : (numbers (requests ++ requestsIn (o.meet x).2)).Nodup) :
    (o.meet x).1.Kept node (requests ++ requestsIn (o.meet x).2) := by
  cases x with
  | draw ids =>
    show Kept { o with ids } node (requests ++ [])
    rw [List.append_nil]
    exact ⟨h.own, ⟨h.sound.subscribed, h.sound.candidates, h.sound.leader⟩,
      h.ledger.congr (fun _ => rfl) h.ledger.suspected, h.watched⟩
  | input input =>
    refine ⟨?_, ?_, h.ledger.receive h.sound input hfresh, watched_receive h.watched input⟩
    · cases input with
      | install view => exact (o.self_install view).trans h.own
      | liveness p => exact (o.self_liveness p).trans h.own
    · cases input with
      | install view => exact h.sound.install view
      | liveness p => exact h.sound.liveness p

lemma Kept.course (h : o.Kept node requests) (happenings : List Happening)
    (hfresh : (numbers (requests ++ requestsIn (o.course happenings).2)).Nodup) :
    (o.course happenings).1.Kept node (requests ++ requestsIn (o.course happenings).2) := by
  induction happenings generalizing o requests with
  | nil => exact (List.append_nil requests).symm ▸ h
  | cons x rest ih =>
    have hsplit : requests ++ requestsIn (o.course (x :: rest)).2 =
        (requests ++ requestsIn (o.meet x).2) ++ requestsIn ((o.meet x).1.course rest).2 := by
      rw [List.append_assoc, ← requestsIn_append]
      rfl
    rw [hsplit] at hfresh ⊢
    rw [numbers_append] at hfresh
    have hmeet := h.meet x (List.nodup_append.1 hfresh).1
    rw [← numbers_append] at hfresh
    exact ih hmeet hfresh

/-- Whatever views are installed and whatever is reported, under fresh numbers. In a view the
oracle is subscribed to the other members, suspects only those, takes the members for candidates
that it does not suspect, and trusts the lowest. Without a view it has nothing of all that. It
holds the subscriptions that it made and did not end, followers see its leader, and who it says to
be trusted is the leader just chosen. -/
theorem course_invariant (self : NodeId) (ids : IdSource) (happenings : List Happening)
    {out : List Output} (hrun : (start self ids).course happenings = (o, out))
    (hfresh : (numbers (requestsIn out)).Nodup) :
    (∀ view, o.view = some view →
      (∀ n, (∃ r, o.subscriptions.get? n = some r) ↔ n ∈ view.members ∧ n ≠ self) ∧
      (∀ n ∈ o.suspected, n ∈ view.members ∧ n ≠ self) ∧
      (∀ n, n ∈ o.candidates ↔ n ∈ view.members ∧ n ∉ o.suspected) ∧
      (∀ n, o.leader = some n ↔
        n ∈ o.candidates ∧ ∀ m ∈ o.candidates, compare m n ≠ .lt) ∧
      (o.leader = none ↔ ∀ n, n ∉ o.candidates)) ∧
    (o.view = none →
      o.subscriptions = ∅ ∧ o.suspected = ∅ ∧ o.candidates = ∅ ∧ o.leader = none) ∧
    (∀ n r, o.subscriptions.get? n = some r ↔ Open (requestsIn out) r n) ∧
    (∀ n m r, o.subscriptions.get? n = some r → o.subscriptions.get? m = some r → n = m) ∧
    Paired (requestsIn out) ∧
    o.watched = o.leader ∧
    ∀ input n viewId, .event (.trust n viewId) ∈ (o.receive input).2 →
      (o.receive input).1.leader = some n ∧
        (o.receive input).1.view.map View.id = some viewId := by
  have hstart : (start self ids).Kept self [] :=
    ⟨rfl, sound_start self ids, ledger_start self ids, rfl⟩
  have hkept := hstart.course happenings
  rw [hrun] at hkept
  obtain ⟨hself, hsound, hledger, hwatched⟩ := hkept hfresh
  have hsubscribed : ∀ n, o.subscriptions.get? n ≠ none ↔ n ∈ o.members ∧ n ≠ self := by
    intro n
    rw [hsound.subscribed, hself, and_comm]
  refine ⟨fun view hview => ?_, fun hnone => ?_, hledger.held, hledger.distinct, hledger.paired,
    hwatched, fun input n viewId => trust_receive hsound⟩
  · have hmembers : o.members = view.members := by
      unfold members
      rw [hview]
      rfl
    rw [hmembers] at hsubscribed
    refine ⟨fun n => ?_, fun n hn => (hsubscribed n).1 (hledger.suspected n hn), fun n => ?_,
      fun n => ?_, ?_⟩
    · rw [← hsubscribed, Option.ne_none_iff_exists']
    · rw [hsound.candidates, hmembers]
    · rw [hsound.leader, SortedSet.first?_eq_some_iff]
    · rw [hsound.leader, SortedSet.first?_eq_none_iff]
  · have hmembers : ∀ n, n ∉ o.members := by
      unfold members
      rw [hnone]
      exact SortedSet.not_mem_empty
    have hheld : ∀ n, o.subscriptions.get? n = none := fun n => by
      by_contra hsome
      exact hmembers n ((hsubscribed n).1 hsome).1
    have hcandidates : ∀ n, n ∉ o.candidates := fun n hn =>
      hmembers n ((hsound.candidates n).1 hn).1
    refine ⟨SortedMap.eq_empty hheld,
      SortedSet.eq_empty fun n hn => hledger.suspected n hn (hheld n),
      SortedSet.eq_empty hcandidates, ?_⟩
    rw [hsound.leader, SortedSet.first?_eq_none_iff]
    exact hcandidates

/-- Two nodes, of which the second one is the oracle's own, and one more later. The first node is
suspected and stays so in the second view, where a report under a number that nobody holds changes
nothing. The last view is without it. -/
def retirement : List Happening :=
  [.input (.install (.ofList 1 [⟨"a", 1, none⟩, ⟨"b", 1, none⟩])),
    .input (.liveness (.suspect ⟨"a", 1, none⟩ (IdSource.ofSeed 0 0).next.1)),
    .input (.install (.ofList 2 [⟨"a", 1, none⟩, ⟨"b", 1, none⟩, ⟨"c", 1, none⟩])),
    .input (.liveness (.restore ⟨"a", 1, none⟩ 9)),
    .draw (.ofSeed 0 5),
    .input (.install (.ofList 3 [⟨"b", 1, none⟩, ⟨"c", 1, none⟩]))]

/-- Two of the subscriptions were made and one of them was ended, so the last one is held. -/
theorem course_invariant_retirement :
    let next := (start ⟨"b", 1, none⟩ (.ofSeed 0 0)).course retirement
    requestsIn next.2 = [.subscribe 1 ⟨"a", 1, none⟩, .subscribe 2 ⟨"c", 1, none⟩, .unsubscribe 1] ∧
      (∀ n, (∃ r, next.1.subscriptions.get? n = some r) ↔
        n ∈ (View.ofList 3 [⟨"b", 1, none⟩, ⟨"c", 1, none⟩]).members ∧ n ≠ ⟨"b", 1, none⟩) ∧
      (∀ n r, next.1.subscriptions.get? n = some r ↔ Open (requestsIn next.2) r n) ∧
      next.1.leader = some ⟨"b", 1, none⟩ := by
  obtain ⟨hmember, -, hheld, -⟩ := course_invariant ⟨"b", 1, none⟩ (.ofSeed 0 0) retirement
    (o := ((start ⟨"b", 1, none⟩ (.ofSeed 0 0)).course retirement).1) rfl (by decide)
  have hview := hmember (.ofList 3 [⟨"b", 1, none⟩, ⟨"c", 1, none⟩]) (by decide)
  exact ⟨by decide, hview.1, hheld, by decide⟩

end Oracle

end ReplicaRing
