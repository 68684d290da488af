import Mathlib.Algebra.Ring.Nat
import ReplicaRing.Proofs.DetectionWindow

/-!
What a failure detector keeps and sends for a node, against the subscriptions of the node. Each
input leaves a detector with exactly the watched nodes to send to, takes only those for live, and
holds round trips of those alone, which are published as they stand, `Detector.Tidy`. So nothing of
a node is left when its last subscription ends, and a round sends every watched node one heartbeat
and one probe, however many subscriptions it has. The probes of a run are numbered from one on.
`Detector.kept_while_watched` puts these together.
-/

namespace ReplicaRing

namespace Detector

/-- The message to a node that an output is. -/
def Output.messageTo? (n : NodeId) : Output → Option Message
  | .send e => if e.dst = n then some e.message else none
  | .report _ => none

/-- The messages to a node among some outputs. -/
def messagesTo (n : NodeId) (out : List Output) : List Message := out.filterMap (Output.messageTo? n)

/-- The number of the probe that an output is. -/
def Output.probe? : Output → Option UInt64
  | .send ⟨_, _, .ping id _⟩ => some id
  | .send _ | .report _ => none

/-- The numbers of the probes among some outputs. -/
def probesIn (out : List Output) : List UInt64 := out.filterMap Output.probe?

/-- All that a detector puts out in a run. -/
def outputs (d : Detector) : List (Duration × Input) → List Output
  | [] => []
  | turn :: rest => (d.handle turn.1 turn.2).2 ++ (d.react turn).outputs rest

/-- The nodes that a detector sends to are the watched ones, it takes only those for live, and it
holds and publishes the round trips of those alone. -/
structure Tidy (d : Detector) : Prop where
  broadcast : ∀ n, n ∈ d.broadcast ↔ d.watches n = true
  live : ∀ n ∈ d.live, d.watches n = true
  timed : ∀ n r, d.roundTrips.get? n = some r → d.watches n = true
  published : d.published = d.roundTrips.map fun _ r => r.timeout

variable {d : Detector} {r : RequestId} {n m : NodeId} {past : List (Duration × Input)}
  {turn : Duration × Input}

lemma outputs_concat (d : Detector) (past : List (Duration × Input)) (turn : Duration × Input) :
    d.outputs (past ++ [turn]) = d.outputs past ++ ((d.run past).handle turn.1 turn.2).2 := by
  induction past generalizing d with
  | nil => exact List.append_nil _
  | cons first past ih =>
    show _ ++ (d.react first).outputs (past ++ [turn]) =
      (_ ++ (d.react first).outputs past) ++ _
    rw [ih, List.append_assoc]
    rfl

/-! ## What inputs leave alone -/

/-- A new subscription touches neither round trips nor probes. -/
lemma subscribe_rest (d : Detector) (r : RequestId) (n : NodeId) :
    (d.subscribe r n).1.config = d.config ∧ (d.subscribe r n).1.lastPing = d.lastPing ∧
      (d.subscribe r n).1.roundTrips = d.roundTrips ∧
      (d.subscribe r n).1.published = d.published ∧ probesIn (d.subscribe r n).2 = [] := by
  unfold subscribe
  simp only
  split
  · split
    · exact ⟨rfl, rfl, rfl, rfl, rfl⟩
    · exact ⟨rfl, rfl, rfl, rfl, rfl⟩
  · exact ⟨rfl, rfl, rfl, rfl, rfl⟩

lemma unsubscribe_rest (d : Detector) (r : RequestId) :
    (d.unsubscribe r).config = d.config ∧ (d.unsubscribe r).lastPing = d.lastPing := by
  unfold unsubscribe
  split
  · exact ⟨rfl, rfl⟩
  · simp only
    split
    · exact ⟨rfl, rfl⟩
    · exact ⟨rfl, rfl⟩

lemma receive_rest (d : Detector) (now : Duration) (src : NodeId) (message : Message) :
    (d.receive now src message).1.config = d.config ∧
      (d.receive now src message).1.lastPing = d.lastPing ∧
      probesIn (d.receive now src message).2 = [] := by
  unfold receive
  split
  · split
    · exact ⟨rfl, rfl, rfl⟩
    · exact ⟨rfl, rfl, rfl⟩
  · exact ⟨rfl, rfl, rfl⟩
  · split
    · exact ⟨rfl, rfl, rfl⟩
    · exact ⟨rfl, rfl, rfl⟩
  · exact ⟨rfl, rfl, rfl⟩

/-- Only the end of a round sends probes. -/
lemma react_rest (d : Detector) (turn : Duration × Input) :
    (d.react turn).config = d.config ∧
      (turn.2.isTick = false →
        (d.react turn).lastPing = d.lastPing ∧ probesIn (d.handle turn.1 turn.2).2 = []) := by
  obtain ⟨now, input⟩ := turn
  cases input with
  | subscribe r n =>
    obtain ⟨hconfig, hlast, -, -, hprobes⟩ := d.subscribe_rest r n
    exact ⟨hconfig, fun _ => ⟨hlast, hprobes⟩⟩
  | unsubscribe r =>
    obtain ⟨hconfig, hlast⟩ := d.unsubscribe_rest r
    exact ⟨hconfig, fun _ => ⟨hlast, rfl⟩⟩
  | inbound src message =>
    obtain ⟨hconfig, hlast, hprobes⟩ := d.receive_rest now src message
    exact ⟨hconfig, fun _ => ⟨hlast, hprobes⟩⟩
  | tick => exact ⟨rfl, fun h => by cases h⟩

lemma config_run (d : Detector) (turns : List (Duration × Input)) :
    (d.run turns).config = d.config := by
  induction turns using List.reverseRecOn with
  | nil => rfl
  | append_singleton past turn ih => rw [run_concat, (react_rest _ turn).1, ih]

/-! ## What is kept -/

lemma tidy_start (self : NodeId) (config : DetectorConfig) : (start self config).Tidy where
  broadcast n := ⟨fun h => absurd h (SortedSet.not_mem_empty n), fun h => by cases h⟩
  live n h := absurd h (SortedSet.not_mem_empty n)
  timed n r h := by cases h
  published := rfl

/-- A subscription under a number that is free ends no other one. -/
lemma watches_subscribe (hfree : d.subscriptions.get? r = none) :
    (d.subscribe r n).1.watches m = true ↔ m = n ∨ d.watches m = true := by
  rw [watches_iff, watches_iff, subscribe_subscriptions]
  simp only [SortedMap.get?_insert]
  constructor
  · rintro ⟨r', hr'⟩
    split at hr'
    · exact .inl (Option.some.inj hr').symm
    · exact .inr ⟨r', hr'⟩
  · rintro (rfl | ⟨r', hr'⟩)
    · exact ⟨r, if_pos rfl⟩
    · refine ⟨r', ?_⟩
      rw [if_neg ?_]
      · exact hr'
      · rintro rfl
        rw [hfree] at hr'
        cases hr'

/-- Who is still watched without a subscription has another one. -/
lemma watches_erase (hr : d.subscriptions.get? r = some n) :
    Detector.watches { d with subscriptions := d.subscriptions.erase r } m = true ↔
      d.watches m = true ∧
        (m = n → Detector.watches { d with subscriptions := d.subscriptions.erase r } n = true) := by
  have hkept : m ≠ n → d.watches m = true →
      Detector.watches { d with subscriptions := d.subscriptions.erase r } m = true := by
    intro hne hwatched
    obtain ⟨r', hr'⟩ := watches_iff.1 hwatched
    refine watches_iff.2 ⟨r', ?_⟩
    show (d.subscriptions.erase r).get? r' = some m
    rw [SortedMap.get?_erase, if_neg]
    · exact hr'
    · rintro rfl
      exact hne (Option.some.inj (hr'.symm.trans hr))
  constructor
  · intro hwatched
    refine ⟨?_, fun heq => heq ▸ hwatched⟩
    obtain ⟨r', hr'⟩ := watches_iff.1 hwatched
    refine watches_iff.2 ⟨r', ?_⟩
    have hr' : (d.subscriptions.erase r).get? r' = some m := hr'
    rw [SortedMap.get?_erase] at hr'
    split at hr'
    · cases hr'
    · exact hr'
  · rintro ⟨hwatched, hlast⟩
    by_cases hm : m = n
    · rw [hm]
      exact hlast hm
    · exact hkept hm hwatched

namespace Tidy

lemma subscribe (h : d.Tidy) (hfree : d.subscriptions.get? r = none) :
    (d.subscribe r n).1.Tidy := by
  have hwatches : ∀ m, (d.subscribe r n).1.watches m = true ↔ m = n ∨ d.watches m = true :=
    fun _ => watches_subscribe hfree
  obtain ⟨-, -, htrips, hpublished, -⟩ := d.subscribe_rest r n
  refine ⟨fun m => ?_, fun m hm => ?_, fun m t hm => ?_, ?_⟩
  · rw [hwatches]
    unfold Detector.subscribe
    simp only
    split
    · rename_i hwatched
      show m ∈ d.broadcast ↔ _
      rw [h.broadcast]
      refine ⟨.inr, ?_⟩
      rintro (rfl | hm)
      · exact hwatched
      · exact hm
    · show m ∈ d.broadcast.insert n ↔ _
      rw [SortedSet.mem_insert, h.broadcast]
  · rw [hwatches]
    rw [← SortedSet.contains_iff_mem, live_subscribe, Bool.or_eq_true, SortedSet.contains_iff_mem,
      Bool.and_eq_true, beq_iff_eq] at hm
    exact hm.elim (fun hm => .inr (h.live m hm)) fun hm => .inl hm.2
  · rw [hwatches]
    rw [htrips] at hm
    exact .inr (h.timed m t hm)
  · rw [htrips, hpublished]
    exact h.published

lemma unsubscribe (h : d.Tidy) (r : RequestId) : (d.unsubscribe r).Tidy := by
  unfold Detector.unsubscribe
  cases hr : d.subscriptions.get? r with
  | none => exact h
  | some n =>
    have hwatches : ∀ m, _ := fun m => watches_erase (m := m) hr
    simp only
    split
    · -- the node has another subscription, so everybody is watched who was
      rename_i hstill
      have hsame : ∀ m, Detector.watches { d with subscriptions := d.subscriptions.erase r } m =
          true ↔ d.watches m = true :=
        fun m => (hwatches m).trans (and_iff_left fun _ => hstill)
      exact ⟨fun m => (h.broadcast m).trans (hsame m).symm,
        fun m hm => (hsame m).2 (h.live m hm), fun m t hm => (hsame m).2 (h.timed m t hm),
        h.published⟩
    · rename_i hlast
      have hothers : ∀ m, Detector.watches { d with subscriptions := d.subscriptions.erase r } m =
          true ↔ d.watches m = true ∧ m ≠ n := by
        intro m
        rw [hwatches]
        exact and_congr_right fun _ => ⟨fun himp heq => hlast (himp heq), fun hne heq => absurd heq hne⟩
      refine ⟨fun m => ?_, fun m hm => ?_, fun m t hm => ?_, rfl⟩
      · show m ∈ d.broadcast.erase n ↔ _
        rw [SortedSet.mem_erase, h.broadcast]
        exact (hothers m).symm
      · obtain ⟨hm, hne⟩ := SortedSet.mem_erase.1 hm
        exact (hothers m).2 ⟨h.live m hm, hne⟩
      · have hm : (d.roundTrips.erase n).get? m = some t := hm
        rw [SortedMap.get?_erase] at hm
        split at hm
        · cases hm
        · rename_i hne
          exact (hothers m).2 ⟨h.timed m t hm, hne⟩

/-- A round trip is taken only of a node that is sent to. -/
lemma receive (h : d.Tidy) (now : Duration) (src : NodeId) (message : Message) :
    (d.receive now src message).1.Tidy := by
  unfold Detector.receive
  split
  · split
    · exact h
    · exact ⟨h.broadcast, h.live, h.timed, h.published⟩
  · exact h
  · split
    · rename_i hknown
      refine ⟨h.broadcast, h.live, fun m t hm => ?_, rfl⟩
      have hm : (d.roundTrips.insert src _).get? m = some t := hm
      rw [SortedMap.get?_insert] at hm
      split at hm
      · rename_i heq
        rw [heq]
        exact (h.broadcast src).1 (SortedSet.contains_iff_mem.1 hknown)
      · exact h.timed m t hm
    · exact h
  · exact h

lemma tick (h : d.Tidy) (now : Duration) : (d.tick now).1.Tidy := by
  refine ⟨h.broadcast, fun m hm => ?_, h.timed, h.published⟩
  rw [(d.tick_eq now).2.1] at hm
  exact watches_iff.2 (mem_subscribed.1 (SortedSet.mem_inter.1 hm).2)

lemma react (h : d.Tidy)
    (hfree : ∀ r, turn.2.starts? = some r → d.subscriptions.get? r = none) :
    (d.react turn).Tidy := by
  obtain ⟨now, input⟩ := turn
  cases input with
  | subscribe r n => exact h.subscribe (hfree r rfl)
  | unsubscribe r => exact h.unsubscribe r
  | inbound src message => exact h.receive now src message
  | tick => exact h.tick now

end Tidy

/-- As long as no number is used for two subscriptions, a detector keeps what is for the watched
nodes and nothing else. -/
theorem tidy_run (self : NodeId) (config : DetectorConfig) (turns : List (Duration × Input))
    (hfresh : (startedBy turns).Nodup) : ((start self config).run turns).Tidy := by
  -- along the run, the numbers that are taken are among those that were started
  induction turns using List.reverseRecOn with
  | nil => exact tidy_start self config
  | append_singleton past turn ih =>
    rw [startedBy_concat, List.nodup_append] at hfresh
    obtain ⟨hpast, -, hnew⟩ := hfresh
    rw [run_concat]
    apply (ih hpast).react
    intro r hr
    -- a subscription that is there was started under its number
    by_contra hheld
    obtain ⟨n, hn⟩ := Option.ne_none_iff_exists'.1 hheld
    exact hnew r ((informed_run self config past hpast).started r n hn) r
      (by rw [hr]; exact List.mem_singleton_self r) rfl

/-! ## What a round sends -/

lemma messagesTo_append (n : NodeId) (out more : List Output) :
    messagesTo n (out ++ more) = messagesTo n out ++ messagesTo n more := List.filterMap_append

lemma messagesTo_reports (n : NodeId) (reports : List LivenessReport) :
    messagesTo n (reports.map .report) = [] := by
  unfold messagesTo
  rw [List.filterMap_map, List.filterMap_eq_nil_iff]
  exact fun _ _ => rfl

lemma messagesTo_sendTo_cons (d : Detector) (n m : NodeId) (message : Message)
    (out : List Output) : messagesTo n (d.sendTo m message :: out) =
      if m = n then message :: messagesTo n out else messagesTo n out := by
  unfold messagesTo
  rw [List.filterMap_cons]
  unfold sendTo Output.messageTo?
  by_cases hm : m = n
  · simp [hm]
  · simp [hm]

lemma messagesTo_heartbeats (d : Detector) {nodes : List NodeId} (hnodup : nodes.Nodup)
    (n : NodeId) :
    messagesTo n (nodes.map (d.sendTo · .heartbeat)) = if n ∈ nodes then [.heartbeat] else [] := by
  induction nodes with
  | nil => rfl
  | cons m rest ih =>
    obtain ⟨hm, hrest⟩ := List.nodup_cons.1 hnodup
    rw [List.map_cons, messagesTo_sendTo_cons, ih hrest]
    by_cases hn : m = n
    · subst hn
      simp [hm]
    · simp [hn, Ne.symm hn]

lemma messagesTo_pings (d : Detector) (timestamp last : UInt64) {nodes : List NodeId}
    (hnodup : nodes.Nodup) (n : NodeId) :
    (n ∈ nodes → ∃ id, messagesTo n (d.pings timestamp last nodes) = [.ping id timestamp]) ∧
      (n ∉ nodes → messagesTo n (d.pings timestamp last nodes) = []) := by
  -- each probe has the next number, so the induction is for every last one
  induction nodes generalizing last with
  | nil => exact ⟨fun h => absurd h List.not_mem_nil, fun _ => rfl⟩
  | cons m rest ih =>
    obtain ⟨hm, hrest⟩ := List.nodup_cons.1 hnodup
    obtain ⟨hin, hout⟩ := ih (last + 1) hrest
    unfold pings
    rw [messagesTo_sendTo_cons]
    by_cases hn : m = n
    · subst hn
      rw [if_pos rfl, hout hm]
      exact ⟨fun _ => ⟨last + 1, rfl⟩, fun h => absurd List.mem_cons_self h⟩
    · rw [if_neg hn]
      constructor
      · intro h
        exact hin ((List.mem_cons.1 h).resolve_left (Ne.symm hn))
      · intro h
        exact hout fun hmem => h (List.mem_cons_of_mem m hmem)

/-- A round sends each watched node one heartbeat, and one probe if nodes are probed; it sends
nothing to others. -/
lemma Tidy.messagesTo_tick (h : d.Tidy) (now : Duration) (n : NodeId) :
    (d.watches n = true → ∃ id, messagesTo n (d.tick now).2 =
        .heartbeat :: if d.config.probe then [.ping id (UInt64.ofNat now.toMicros)] else []) ∧
      (d.watches n = false → messagesTo n (d.tick now).2 = []) := by
  have hsubscribed : n ∈ d.subscribed.toList ↔ d.watches n = true := by
    rw [SortedSet.mem_toList, mem_subscribed, watches_iff]
  have hbroadcast : n ∈ d.broadcast.toList ↔ d.watches n = true := h.broadcast n
  obtain ⟨hin, hout⟩ := d.messagesTo_pings (UInt64.ofNat now.toMicros) d.lastPing
    d.subscribed.nodup_toList n
  unfold Detector.tick
  simp only
  rw [messagesTo_append, messagesTo_append, messagesTo_reports,
    d.messagesTo_heartbeats d.broadcast.nodup_toList]
  constructor
  · intro hwatched
    rw [if_pos (hbroadcast.2 hwatched)]
    cases d.config.probe with
    | true =>
      obtain ⟨id, hid⟩ := hin (hsubscribed.2 hwatched)
      exact ⟨id, by rw [if_pos rfl, if_pos rfl, hid]; rfl⟩
    | false => exact ⟨0, rfl⟩
  · intro hunwatched
    have hnot : n ∉ d.subscribed.toList := by
      rw [hsubscribed, hunwatched]
      simp
    rw [if_neg (by simp [hbroadcast, hunwatched])]
    cases d.config.probe with
    | true => rw [if_pos rfl, hout hnot]; rfl
    | false => rfl

/-! ## Numbers of probes -/

lemma probesIn_append (out more : List Output) :
    probesIn (out ++ more) = probesIn out ++ probesIn more := List.filterMap_append

/-- Probes are numbered on from the last one. -/
lemma probesIn_pings (d : Detector) (timestamp : UInt64) (k : Nat) (nodes : List NodeId) :
    probesIn (d.pings timestamp (UInt64.ofNat k) nodes) =
      (List.range' (k + 1) nodes.length).map UInt64.ofNat := by
  induction nodes generalizing k with
  | nil => rfl
  | cons n rest ih =>
    have hnext : UInt64.ofNat k + 1 = UInt64.ofNat (k + 1) := (UInt64.ofNat_add k 1).symm
    have hfirst : probesIn (d.pings timestamp (UInt64.ofNat k) (n :: rest)) =
        (UInt64.ofNat k + 1) :: probesIn (d.pings timestamp (UInt64.ofNat k + 1) rest) := rfl
    rw [hfirst, hnext, ih, List.length_cons, List.range'_succ, List.map_cons]

/-- The number of the last probe is how many there were. -/
structure Numbered (d : Detector) (probes : List UInt64) : Prop where
  ids : probes = (List.range' 1 probes.length).map UInt64.ofNat
  last : d.lastPing = UInt64.ofNat probes.length

lemma Numbered.tick {probes : List UInt64} (h : d.Numbered probes) (now : Duration) :
    (d.tick now).1.Numbered (probes ++ probesIn (d.tick now).2) := by
  obtain ⟨targets, htargets⟩ : ∃ targets : List NodeId,
      targets = if d.config.probe then d.subscribed.toList else [] := ⟨_, rfl⟩
  have hprobes : probesIn (d.tick now).2 =
      (List.range' (probes.length + 1) targets.length).map UInt64.ofNat := by
    have hreports : probesIn (d.verdicts.map .report) = [] := by
      unfold probesIn
      rw [List.filterMap_map, List.filterMap_eq_nil_iff]
      exact fun _ _ => rfl
    have hheartbeats : probesIn (d.broadcast.toList.map (d.sendTo · .heartbeat)) = [] := by
      unfold probesIn
      rw [List.filterMap_map, List.filterMap_eq_nil_iff]
      exact fun _ _ => rfl
    unfold Detector.tick
    simp only
    rw [probesIn_append, probesIn_append, hreports, hheartbeats, ← htargets, h.last,
      probesIn_pings]
    rfl
  have hlast : (d.tick now).1.lastPing = d.lastPing + UInt64.ofNat targets.length := by
    rw [htargets]
    rfl
  have hlength : (probes ++ probesIn (d.tick now).2).length = probes.length + targets.length := by
    rw [hprobes, List.length_append, List.length_map, List.length_range']
  refine ⟨?_, ?_⟩
  · rw [hlength, ← List.range'_append_1, List.map_append, ← h.ids, hprobes, Nat.add_comm 1]
  · rw [hlast, hlength, h.last, UInt64.ofNat_add]

lemma Numbered.react {probes : List UInt64} (h : d.Numbered probes) (turn : Duration × Input) :
    (d.react turn).Numbered (probes ++ probesIn (d.handle turn.1 turn.2).2) := by
  by_cases htick : turn.2.isTick = true
  · obtain ⟨now, input⟩ := turn
    obtain rfl := Input.eq_tick htick
    exact h.tick now
  · obtain ⟨hlast, hnone⟩ := (d.react_rest turn).2 (by simpa using htick)
    rw [hnone, List.append_nil]
    exact ⟨h.ids, hlast.trans h.last⟩

/-- The probes of a run are numbered from one on. -/
theorem numbered_run (self : NodeId) (config : DetectorConfig) (turns : List (Duration × Input)) :
    ((start self config).run turns).Numbered (probesIn ((start self config).outputs turns)) := by
  induction turns using List.reverseRecOn with
  | nil => exact ⟨rfl, rfl⟩
  | append_singleton past turn ih =>
    rw [run_concat, outputs_concat, probesIn_append]
    exact ih.react turn

/-- So a number comes again only after all others. -/
lemma Numbered.far {probes : List UInt64} (h : d.Numbered probes) {i j : Nat} {id : UInt64}
    (hij : i < j) (hi : probes[i]? = some id) (hj : probes[j]? = some id) : i + 2 ^ 64 ≤ j := by
  have hid : ∀ k, probes[k]? = some id → id.toNat = (k + 1) % 2 ^ 64 := by
    intro k hk
    rw [h.ids, List.getElem?_map, Option.map_eq_some_iff] at hk
    obtain ⟨x, hx, rfl⟩ := hk
    obtain ⟨hk, rfl⟩ := List.getElem?_eq_some_iff.1 hx
    rw [List.getElem_range', UInt64.toNat_ofNat', Nat.one_mul, Nat.add_comm]
  have hmod := (hid i hi).symm.trans (hid j hj)
  omega

/-! ## Runs -/

/-- As long as no number is used for two subscriptions, after any inputs: a detector sends to the
nodes that have a subscription, takes only those for live and publishes timeouts for those alone,
namely those of the round trips that it holds. The end of a round sends each of these nodes one
heartbeat and, if nodes are probed, one probe, and nothing to others. And of all probes that were
sent, two have the same number only if there were 2 ^ 64 from the one to the other. -/
theorem kept_while_watched (self : NodeId) (config : DetectorConfig)
    {turns : List (Duration × Input)} (hfresh : (startedBy turns).Nodup) :
    let d := (start self config).run turns
    let probes := probesIn ((start self config).outputs turns)
    (∀ n, n ∈ d.broadcast ↔ Watched n turns) ∧
      (∀ n ∈ d.live, Watched n turns) ∧
      (∀ n timeout, d.published.get? n = some timeout → Watched n turns) ∧
      d.published = (d.roundTrips.map fun _ r => r.timeout) ∧
      (∀ now n, (Watched n turns → ∃ id, messagesTo n (d.handle now .tick).2 =
          .heartbeat :: if config.probe then [.ping id (UInt64.ofNat now.toMicros)] else []) ∧
        (¬ Watched n turns → messagesTo n (d.handle now .tick).2 = [])) ∧
      ∀ i j id, i < j → probes[i]? = some id → probes[j]? = some id → i + 2 ^ 64 ≤ j := by
  intro d probes
  have htidy : d.Tidy := tidy_run self config turns hfresh
  have hwatched : ∀ n, d.watches n = true ↔ Watched n turns := fun _ => watches_run self config turns
  have hconfig : d.config = config := config_run (start self config) turns
  refine ⟨fun n => ?_, fun n hn => ?_, fun n timeout hn => ?_, htidy.published, fun now n => ?_, ?_⟩
  · rw [htidy.broadcast, hwatched]
  · exact (hwatched n).1 (htidy.live n hn)
  · rw [htidy.published, SortedMap.get?_map, Option.map_eq_some_iff] at hn
    obtain ⟨r, hr, -⟩ := hn
    exact (hwatched n).1 (htidy.timed n r hr)
  · obtain ⟨hin, hout⟩ := htidy.messagesTo_tick now n
    rw [hconfig] at hin
    refine ⟨fun h => hin ((hwatched n).2 h), fun h => hout ?_⟩
    rwa [← hwatched, Bool.not_eq_true] at h
  · intro i j id hij hi hj
    exact (numbered_run self config turns).far hij hi hj

namespace TwiceWatched

def b : NodeId := ⟨"b", 1, none⟩

def initial : Detector := start ⟨"a", 1, none⟩ {}

/-- A node with two subscriptions is probed and answers. Then both end, and a second answer comes
late. -/
def happened : List (Duration × Input) :=
  [(0, .subscribe 1 b), (0, .subscribe 2 b), (1, .tick), (2, .inbound b (.pong 1 1)),
    (3, .unsubscribe 1), (4, .unsubscribe 2), (5, .inbound b (.pong 1 1))]

end TwiceWatched

open TwiceWatched in
/-- With the second subscription alone the node is sent one heartbeat and one probe, and after its
end nothing of the node is left. -/
theorem kept_while_watched_twice :
    (startedBy happened).Nodup ∧ Watched b (happened.take 5) ∧ ¬ Watched b happened ∧
      b ∈ (initial.run (happened.take 5)).broadcast ∧
      (∃ id, messagesTo b ((initial.run (happened.take 5)).handle 4 .tick).2 =
        [.heartbeat, .ping id (UInt64.ofNat (4 : Duration).toMicros)]) ∧
      b ∉ (initial.run happened).broadcast ∧ b ∉ (initial.run happened).live ∧
      (∀ timeout, (initial.run happened).published.get? b ≠ some timeout) ∧
      messagesTo b ((initial.run happened).handle 6 .tick).2 = [] := by
  have hwatched : Watched b (happened.take 5) :=
    (watches_run ⟨"a", 1, none⟩ {} (happened.take 5)).1 (by decide)
  have hended : ¬ Watched b happened := by
    rw [← watches_run ⟨"a", 1, none⟩ {} happened]
    decide
  obtain ⟨hsent, -, -, -, hround, -⟩ :=
    @kept_while_watched ⟨"a", 1, none⟩ {} (happened.take 5) (by decide)
  obtain ⟨hsent', hlive, htimed, -, hround', -⟩ :=
    @kept_while_watched ⟨"a", 1, none⟩ {} happened (by decide)
  exact ⟨by decide, hwatched, hended, (hsent b).2 hwatched, (hround 4 b).1 hwatched,
    fun h => hended ((hsent' b).1 h), fun h => hended (hlive b h),
    fun timeout h => hended (htimed b timeout h), (hround' 6 b).2 hended⟩

end Detector

end ReplicaRing
