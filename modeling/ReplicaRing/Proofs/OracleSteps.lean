import ReplicaRing.Proofs.LeaderFollowing
import ReplicaRing.Proofs.LivenessLink
import ReplicaRing.Proofs.RingNeighbours

/-!
What an oracle makes of its inputs. It is subscribed to the other members of its view, takes those
for candidates that it does not suspect, and trusts the lowest, `Oracle.Sound`, and both inputs keep
to that. A report is taken for the verdict on its node if it is for the current subscription of
the node, `Oracle.liveness_eq`.
-/

namespace ReplicaRing

/-- The lowest member of a set. -/
lemma SortedSet.first?_eq_some_iff {α : Type} [Ord α] [Std.TransOrd α] [Std.LawfulEqOrd α]
    {s : SortedSet α} {a : α} :
    s.first? = some a ↔ a ∈ s ∧ ∀ b ∈ s, compare b a ≠ .lt := by
  unfold SortedSet.first?
  constructor
  · exact fun ha => ⟨List.mem_of_head? ha, compare_ne_lt_head s.ascending ha⟩
  · rintro ⟨ha, hlowest⟩
    cases hhead : s.toList.head? with
    | none =>
      rw [← mem_toList, List.head?_eq_none_iff.1 hhead] at ha
      cases ha
    | some b =>
      by_contra hne
      have hne : a ≠ b := fun h => hne (congrArg some h.symm)
      rcases compare_lt_or_lt hne with hlt | hlt
      · exact compare_ne_lt_head s.ascending hhead a ha hlt
      · exact hlowest b (List.mem_of_head? hhead) hlt

lemma SortedSet.first?_eq_none_iff {α : Type} [Ord α] {s : SortedSet α} :
    s.first? = none ↔ ∀ a, a ∉ s := by
  unfold SortedSet.first?
  rw [List.head?_eq_none_iff, List.eq_nil_iff_forall_not_mem]
  rfl

namespace Oracle

/-- The members of the view that an oracle is in. -/
def members (o : Oracle) : SortedSet NodeId := (o.view.getD View.empty).members

/-- An oracle is subscribed to the other members, takes those for candidates that it does not
suspect, and trusts the lowest. -/
structure Sound (o : Oracle) : Prop where
  subscribed : ∀ n, o.subscriptions.get? n ≠ none ↔ n ≠ o.self ∧ n ∈ o.members
  candidates : ∀ n, n ∈ o.candidates ↔ n ∈ o.members ∧ n ∉ o.suspected
  leader : o.leader = o.candidates.first?

variable {o : Oracle}

lemma sound_start (self : NodeId) (ids : IdSource) : (start self ids).Sound where
  subscribed n := ⟨fun h => absurd rfl h, fun h => absurd h.2 (SortedSet.not_mem_empty n)⟩
  candidates n := ⟨fun h => absurd h (SortedSet.not_mem_empty n),
    fun h => absurd h.1 (SortedSet.not_mem_empty n)⟩
  leader := rfl

/-! ## Installed views -/

lemma subscriptions_subscribeAll (o : Oracle) (nodes : List NodeId) (n : NodeId) :
    (o.subscribeAll nodes).1.subscriptions.get? n ≠ none ↔
      o.subscriptions.get? n ≠ none ∨ n ∈ nodes := by
  induction nodes generalizing o with
  | nil => simp [subscribeAll]
  | cons m rest ih =>
    unfold subscribeAll
    simp only
    rw [ih]
    simp only [SortedMap.get?_insert, List.mem_cons]
    by_cases hm : n = m
    · simp [hm]
    · simp [hm]

lemma subscriptions_dropAll (o : Oracle) (nodes : List NodeId) (n : NodeId) :
    (o.dropAll nodes).1.subscriptions.get? n =
      if n ∈ nodes then none else o.subscriptions.get? n := by
  induction nodes generalizing o with
  | nil => simp [dropAll]
  | cons m rest ih =>
    unfold dropAll
    simp only
    rw [ih]
    simp only [SortedMap.get?_erase, List.mem_cons]
    by_cases hm : n = m
    · simp [hm]
    · simp [hm]

lemma self_subscribeAll (o : Oracle) (nodes : List NodeId) :
    (o.subscribeAll nodes).1.self = o.self := by
  induction nodes generalizing o with
  | nil => rfl
  | cons n rest ih => exact ih _

lemma self_dropAll (o : Oracle) (nodes : List NodeId) : (o.dropAll nodes).1.self = o.self := by
  induction nodes generalizing o with
  | nil => rfl
  | cons n rest ih => exact ih _

/-- Who is subscribed to when a view is adopted, in the order of the requests. -/
def arrivals (o : Oracle) (view : View) : List NodeId :=
  (view.added (o.view.getD View.empty)).toList.filter fun n => n != o.self

/-- Who is dropped when a view is adopted. -/
def departures (o : Oracle) (view : View) : List NodeId :=
  (view.removed (o.view.getD View.empty)).toList

lemma mem_arrivals {view : View} {n : NodeId} :
    n ∈ o.arrivals view ↔ n ∈ view.members ∧ n ∉ o.members ∧ n ≠ o.self := by
  unfold arrivals
  rw [List.mem_filter, SortedSet.mem_toList, View.added, SortedSet.mem_diff, bne_iff_ne, and_assoc]
  rfl

lemma nodup_arrivals (o : Oracle) (view : View) : (o.arrivals view).Nodup :=
  (view.added _).nodup_toList.sublist List.filter_sublist

lemma mem_departures {view : View} {n : NodeId} :
    n ∈ o.departures view ↔ n ∈ o.members ∧ n ∉ view.members := by
  unfold departures
  rw [SortedSet.mem_toList, View.removed, SortedSet.mem_diff]
  rfl

/-- The oracle after the subscriptions of a new view were made and ended. -/
def renewed (o : Oracle) (view : View) : Oracle × List Output :=
  let made := o.subscribeAll (o.arrivals view)
  let ended := made.1.dropAll (o.departures view)
  (ended.1, made.2 ++ ended.2)

lemma adopt_eq (o : Oracle) (view : View) :
    ∃ leader rest, leader = (view.members.diff (o.renewed view).1.suspected).first? ∧
      requestsIn rest = [] ∧
      o.adopt view =
        ({ (o.renewed view).1 with
            view := some view
            candidates := view.members.diff (o.renewed view).1.suspected
            leader
            watched := leader }, (o.renewed view).2 ++ rest) := by
  refine ⟨_, _, rfl, ?_, rfl⟩
  generalize (view.members.diff _).first? = leader
  cases leader with
  | none => rfl
  | some n => rfl

lemma Sound.adopt (h : o.Sound) (view : View) : (o.adopt view).1.Sound := by
  obtain ⟨leader, rest, hleader, -, heq⟩ := o.adopt_eq view
  have hsuspected : ∀ n, n ∈ (o.renewed view).1.suspected ↔
      n ∈ o.suspected ∧ n ∉ o.departures view := by
    intro n
    unfold renewed
    simp only
    rw [mem_suspected_dropAll, suspected_subscribeAll]
  rw [heq]
  refine ⟨fun n => ?_, fun n => ?_, hleader⟩
  · show (o.renewed view).1.subscriptions.get? n ≠ none ↔
      n ≠ (o.renewed view).1.self ∧ n ∈ view.members
    unfold renewed
    simp only
    rw [subscriptions_dropAll, self_dropAll, self_subscribeAll]
    by_cases hdrop : n ∈ o.departures view
    · rw [if_pos hdrop]
      exact ⟨fun hne => absurd rfl hne, fun hin => absurd hin.2 (mem_departures.1 hdrop).2⟩
    · rw [if_neg hdrop, subscriptions_subscribeAll, h.subscribed, mem_arrivals]
      rw [mem_departures] at hdrop
      tauto
  · show n ∈ view.members.diff _ ↔ n ∈ view.members ∧ _
    rw [SortedSet.mem_diff]

lemma self_install (o : Oracle) (view : View) : (o.install view).1.self = o.self := by
  have hadopt : (o.adopt view).1.self = o.self := by
    obtain ⟨leader, rest, -, -, heq⟩ := o.adopt_eq view
    rw [heq]
    exact (self_dropAll ..).trans (self_subscribeAll ..)
  unfold install
  split
  · rfl
  · split
    · rfl
    · exact hadopt

lemma view_install (o : Oracle) (view : View) :
    (o.install view).1.view =
      if view.isEmpty then none else if o.view.any (view.id ≤ ·.id) then o.view else some view := by
  unfold install
  split
  · rfl
  · split
    · rfl
    · obtain ⟨leader, rest, -, -, heq⟩ := o.adopt_eq view
      rw [heq]

/-- The subscriptions that an empty view ends, in the order of the requests. -/
def ended (o : Oracle) : List RequestId := (SortedSet.ofList o.subscriptions.values).toList

lemma mem_ended {r : RequestId} : r ∈ o.ended ↔ ∃ n, o.subscriptions.get? n = some r := by
  unfold ended
  rw [SortedSet.mem_toList, SortedSet.mem_ofList, SortedMap.mem_values_iff]

lemma nodup_ended (o : Oracle) : o.ended.Nodup :=
  (SortedSet.ofList o.subscriptions.values).nodup_toList

lemma requestsIn_clear (o : Oracle) : requestsIn o.clear.2 = o.ended.map .unsubscribe := by
  unfold clear requestsIn
  rw [List.filterMap_append, List.filterMap_map]
  exact (List.append_nil _).trans (congrFun List.filterMap_eq_map _)

lemma Sound.clear (o : Oracle) : o.clear.1.Sound where
  subscribed n := ⟨fun h => absurd rfl h, fun h => absurd h.2 (SortedSet.not_mem_empty n)⟩
  candidates n := ⟨fun h => absurd h (SortedSet.not_mem_empty n),
    fun h => absurd h.1 (SortedSet.not_mem_empty n)⟩
  leader := rfl

lemma Sound.install (h : o.Sound) (view : View) : (o.install view).1.Sound := by
  unfold Oracle.install
  split
  · exact .clear o
  · split
    · exact h
    · exact h.adopt view

/-! ## Reports -/

/-- A new election moves only the leader, to the lowest candidate. -/
lemma reelect_eq (o : Oracle) :
    ∃ watched, o.reelect.1 = { o with leader := o.candidates.first?, watched } := by
  unfold reelect
  simp only
  split
  · rename_i hsame
    exact ⟨o.watched, by rw [hsame]⟩
  · exact ⟨_, rfl⟩

/-- What a report does: it is taken for the verdict on its node if it is for the current
subscription, and does nothing if not. -/
lemma liveness_eq (o : Oracle) (p : LivenessReport) :
    (o.subscriptions.get? p.node = some p.request →
      (o.liveness p).1.subscriptions = o.subscriptions ∧
      (o.liveness p).1.self = o.self ∧ (o.liveness p).1.view = o.view ∧
      (∀ n, n ∈ (o.liveness p).1.suspected ↔
        if n = p.node then p.suspects = true else n ∈ o.suspected) ∧
      (∀ n, n ∈ (o.liveness p).1.candidates ↔
        if n = p.node then p.suspects = false else n ∈ o.candidates) ∧
      (o.liveness p).1.leader = (o.liveness p).1.candidates.first?) ∧
      (o.subscriptions.get? p.node ≠ some p.request → (o.liveness p).1 = o) := by
  unfold liveness
  refine ⟨fun hcurrent => ?_, fun hstale => by rw [if_neg hstale]⟩
  rw [if_pos hcurrent]
  cases p with
  | suspect m r =>
    obtain ⟨watched, heq⟩ := reelect_eq
      { o with suspected := o.suspected.insert m, candidates := o.candidates.erase m }
    simp only [heq, LivenessReport.node, LivenessReport.suspects]
    refine ⟨trivial, trivial, trivial, fun n => ?_, fun n => ?_, trivial⟩
    · rw [SortedSet.mem_insert]
      by_cases hn : n = m
      · simp [hn]
      · simp [hn]
    · rw [SortedSet.mem_erase]
      by_cases hn : n = m
      · simp [hn]
      · simp [hn]
  | restore m r =>
    obtain ⟨watched, heq⟩ := reelect_eq
      { o with suspected := o.suspected.erase m, candidates := o.candidates.insert m }
    simp only [heq, LivenessReport.node, LivenessReport.suspects]
    refine ⟨trivial, trivial, trivial, fun n => ?_, fun n => ?_, trivial⟩
    · rw [SortedSet.mem_erase]
      by_cases hn : n = m
      · simp [hn]
      · simp [hn]
    · rw [SortedSet.mem_insert]
      by_cases hn : n = m
      · simp [hn]
      · simp [hn]

lemma self_liveness (o : Oracle) (p : LivenessReport) : (o.liveness p).1.self = o.self := by
  by_cases hcurrent : o.subscriptions.get? p.node = some p.request
  · exact ((o.liveness_eq p).1 hcurrent).2.1
  · rw [(o.liveness_eq p).2 hcurrent]

lemma view_liveness (o : Oracle) (p : LivenessReport) : (o.liveness p).1.view = o.view := by
  by_cases hcurrent : o.subscriptions.get? p.node = some p.request
  · exact ((o.liveness_eq p).1 hcurrent).2.2.1
  · rw [(o.liveness_eq p).2 hcurrent]

lemma Sound.liveness (h : o.Sound) (p : LivenessReport) : (o.liveness p).1.Sound := by
  obtain ⟨htaken, hstale⟩ := o.liveness_eq p
  by_cases hcurrent : o.subscriptions.get? p.node = some p.request
  · obtain ⟨hsubscriptions, hself, hview, hsuspected, hcandidates, hleader⟩ := htaken hcurrent
    have hmembers : (o.liveness p).1.members = o.members := by
      unfold members
      rw [hview]
    refine ⟨fun n => ?_, fun n => ?_, hleader⟩
    · rw [hsubscriptions, hself, hmembers]
      exact h.subscribed n
    · rw [hcandidates, hsuspected, hmembers]
      by_cases hn : n = p.node
      · have hmember : n ∈ o.members := by
          refine ((h.subscribed n).1 ?_).2
          rw [hn, hcurrent]
          simp
        rw [if_pos hn, if_pos hn, and_iff_right hmember, Bool.not_eq_true]
      · rw [if_neg hn, if_neg hn]
        exact h.candidates n
  · rw [hstale hcurrent]
    exact h

end Oracle

end ReplicaRing
