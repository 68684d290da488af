import ReplicaRing.Proofs.DetectorRuns

/-!
The two rounds that a failure detector looks back on. Of all that has happened, a detector keeps who
was heard in the round that is under way, and who was heard in the one before or came to be watched
in this one, `Detector.window_run`. So at the end of a round it takes for live who was heard in one
of the last two rounds and who came to be watched in the last one, as far as they are watched. A
node that is heard in one of every two rounds is never suspected, and one that is silent for two is
not taken for live after them, `Detector.live_window`.
-/

namespace ReplicaRing

namespace Detector

def Input.isTick : Input → Bool
  | tick => true
  | subscribe _ _ | unsubscribe _ | inbound _ _ => false

lemma Input.eq_tick {input : Input} (h : input.isTick = true) : input = tick := by
  cases input with
  | tick => rfl
  | _ => cases h

/-- How many rounds some inputs end. -/
def ticksIn (turns : List (Duration × Input)) : Nat := turns.countP (·.2.isTick)

/-- Some rounds before the one that is under way an input came that meets a condition, on what came
before it and on itself. -/
def Ago (rounds : Nat) (P : List (Duration × Input) → Duration × Input → Prop)
    (turns : List (Duration × Input)) : Prop :=
  ∃ past turn rest, turns = past ++ turn :: rest ∧ ticksIn rest = rounds ∧ P past turn

/-- A node has a subscription. -/
def Watched (n : NodeId) (turns : List (Duration × Input)) : Prop := ∃ r, Watching r n turns

/-- A heartbeat of a node came, some rounds before the one that is under way. -/
def Heard (rounds : Nat) (n : NodeId) (turns : List (Duration × Input)) : Prop :=
  Ago rounds (fun _ turn => turn.2 = .inbound n .heartbeat) turns

/-- A node went from no subscription to one in the round that is under way. -/
def Joined (n : NodeId) (turns : List (Duration × Input)) : Prop :=
  Ago 0 (fun past turn => ¬ Watched n past ∧ Watched n (past ++ [turn])) turns

variable {d : Detector} {n : NodeId} {past turns : List (Duration × Input)}
  {turn : Duration × Input} {rounds : Nat}
  {P : List (Duration × Input) → Duration × Input → Prop}

/-! ## History -/

lemma ticksIn_concat (past : List (Duration × Input)) (turn : Duration × Input) :
    ticksIn (past ++ [turn]) = ticksIn past + if turn.2.isTick then 1 else 0 := by
  unfold ticksIn
  rw [List.countP_append, List.countP_singleton]

/-- The last input meets the condition, or an earlier one did, which is one round further back if
the last input ends a round. -/
lemma ago_concat : Ago rounds P (past ++ [turn]) ↔
    rounds = 0 ∧ P past turn ∨
      ∃ k, rounds = k + (if turn.2.isTick then 1 else 0) ∧ Ago k P past := by
  constructor
  · rintro ⟨front, first, rest, hsplit, hrounds, hP⟩
    cases rest using List.reverseRecOn with
    | nil =>
      left
      obtain ⟨rfl, hlast⟩ := List.append_inj' hsplit rfl
      obtain rfl : turn = first := by simpa using hlast
      exact ⟨hrounds.symm, hP⟩
    | append_singleton rest last =>
      right
      rw [← List.cons_append, ← List.append_assoc] at hsplit
      obtain ⟨hpast, hlast⟩ := List.append_inj' hsplit rfl
      obtain rfl : turn = last := by simpa using hlast
      rw [ticksIn_concat] at hrounds
      exact ⟨ticksIn rest, hrounds.symm, front, first, rest, hpast, rfl, hP⟩
  · rintro (⟨rfl, hP⟩ | ⟨k, hrounds, front, first, rest, rfl, rfl, hP⟩)
    · exact ⟨past, turn, [], rfl, rfl, hP⟩
    · refine ⟨front, first, rest ++ [turn], by simp, ?_, hP⟩
      rw [ticksIn_concat, hrounds]

lemma ago_of_not_tick (h : turn.2.isTick = false) :
    Ago rounds P (past ++ [turn]) ↔ rounds = 0 ∧ P past turn ∨ Ago rounds P past := by
  rw [ago_concat, h]
  simp

lemma ago_tick (now : Duration) (h : ¬ P past (now, .tick)) :
    Ago rounds P (past ++ [(now, .tick)]) ↔ ∃ k, rounds = k + 1 ∧ Ago k P past := by
  rw [ago_concat]
  simp [h, Input.isTick]

/-- A node comes to be watched by being subscribed to. -/
lemma joins_iff : (¬ Watched n past ∧ Watched n (past ++ [turn])) ↔
    ¬ Watched n past ∧ ∃ r, turn.2 = .subscribe r n := by
  apply and_congr_right
  intro hnot
  unfold Watched at *
  simp only [watching_concat]
  constructor
  · rintro ⟨r, hturn | ⟨-, hwatching⟩⟩
    · exact ⟨r, hturn⟩
    · exact absurd ⟨r, hwatching⟩ hnot
  · rintro ⟨r, hturn⟩
    exact ⟨r, .inl hturn⟩

lemma not_watched_nil : ¬ Watched n [] := by
  rintro ⟨r, past, now, rest, hsplit, -⟩
  simp at hsplit

/-- The end of a round leaves the subscriptions as they are. -/
lemma watched_tick (now : Duration) : Watched n (past ++ [(now, .tick)]) ↔ Watched n past := by
  unfold Watched
  simp [watching_concat, Input.request?]

/-- A node that is watched before the first round ends came to be watched in it. -/
lemma joined_of_first (h : Watched n turns) (hfirst : ticksIn turns = 0) : Joined n turns := by
  induction turns using List.reverseRecOn with
  | nil => exact absurd h not_watched_nil
  | append_singleton past turn ih =>
    have hturn : turn.2.isTick = false := by
      by_contra htick
      rw [ticksIn_concat, if_pos (by simpa using htick)] at hfirst
      omega
    rw [ticksIn_concat, hturn] at hfirst
    unfold Joined
    rw [ago_of_not_tick hturn]
    by_cases hbefore : Watched n past
    · right
      exact ih hbefore hfirst
    · left
      exact ⟨rfl, hbefore, h⟩

/-! ## What a detector keeps -/

lemma watches_run (self : NodeId) (config : DetectorConfig) (turns : List (Duration × Input)) :
    ((start self config).run turns).watches n = true ↔ Watched n turns := by
  unfold Watched
  simp only [watches_iff, get?_run]

/-- Ending a subscription forgets nobody who was heard. -/
lemma unsubscribe_window (d : Detector) (r : RequestId) :
    (d.unsubscribe r).active = d.active ∧ (d.unsubscribe r).lastActive = d.lastActive := by
  unfold unsubscribe
  split
  · exact ⟨rfl, rfl⟩
  · simp only
    split
    · exact ⟨rfl, rfl⟩
    · exact ⟨rfl, rfl⟩

lemma mem_active_react (d : Detector) (turn : Duration × Input) (n : NodeId) :
    n ∈ (d.react turn).active ↔
      turn.2 = .inbound n .heartbeat ∨ turn.2.isTick = false ∧ n ∈ d.active := by
  obtain ⟨now, input⟩ := turn
  cases input with
  | subscribe r n' =>
    have hactive : (d.subscribe r n').1.active = d.active := by
      unfold subscribe
      simp only
      split
      · rfl
      · rfl
    show n ∈ (d.subscribe r n').1.active ↔ _
    rw [hactive]
    simp [Input.isTick]
  | unsubscribe r =>
    show n ∈ (d.unsubscribe r).active ↔ _
    rw [(d.unsubscribe_window r).1]
    simp [Input.isTick]
  | inbound src message =>
    show n ∈ (d.receive now src message).1.active ↔ _
    cases message with
    | heartbeat =>
      unfold receive
      by_cases hknown : d.active.contains src = true
      · -- the source of another heartbeat is there already
        simp only [hknown, if_true]
        have hmem := SortedSet.contains_iff_mem.1 hknown
        constructor
        · intro hn
          exact .inr ⟨rfl, hn⟩
        · rintro (heq | ⟨-, hn⟩)
          · cases heq
            exact hmem
          · exact hn
      · simp only [hknown]
        show n ∈ d.active.insert src ↔ _
        rw [SortedSet.mem_insert]
        simp [Input.isTick, eq_comm]
    | pong id timestamp =>
      have hactive : (d.receive now src (.pong id timestamp)).1.active = d.active := by
        unfold receive
        simp only
        split
        · rfl
        · rfl
      rw [hactive]
      simp [Input.isTick]
    | _ => simp [receive, Input.isTick]
  | tick =>
    constructor
    · intro hn
      exact absurd hn (SortedSet.not_mem_empty n)
    · rintro (heq | ⟨hnot, -⟩)
      · cases heq
      · cases hnot

lemma mem_lastActive_react (d : Detector) (turn : Duration × Input) (n : NodeId) :
    n ∈ (d.react turn).lastActive ↔
      if turn.2.isTick then n ∈ d.active
      else (¬ d.watches n = true ∧ ∃ r, turn.2 = .subscribe r n) ∨ n ∈ d.lastActive := by
  obtain ⟨now, input⟩ := turn
  cases input with
  | subscribe r n' =>
    show n ∈ (d.subscribe r n').1.lastActive ↔ _
    unfold subscribe
    simp only
    by_cases hwatched : d.watches n' = true
    · rw [if_pos hwatched]
      have hnot : ¬ (¬ d.watches n = true ∧ ∃ r', Input.subscribe r n' = .subscribe r' n) := by
        rintro ⟨hnew, r', heq⟩
        cases heq
        exact hnew hwatched
      rw [or_iff_right hnot]
      exact Iff.rfl
    · rw [if_neg hwatched]
      show n ∈ d.lastActive.insert n' ↔ _
      rw [SortedSet.mem_insert]
      have hnew : n = n' ↔ ¬ d.watches n = true ∧ n' = n := by
        constructor
        · rintro rfl
          exact ⟨hwatched, rfl⟩
        · rintro ⟨-, rfl⟩
          rfl
      rw [hnew]
      simp [Input.isTick]
  | unsubscribe r =>
    show n ∈ (d.unsubscribe r).lastActive ↔ _
    rw [(d.unsubscribe_window r).2]
    simp [Input.isTick]
  | inbound src message =>
    have hlast : (d.receive now src message).1.lastActive = d.lastActive := by
      unfold receive
      split
      · split
        · rfl
        · rfl
      · rfl
      · split
        · rfl
        · rfl
      · rfl
    show n ∈ (d.receive now src message).1.lastActive ↔ _
    rw [hlast]
    simp [Input.isTick]
  | tick => exact Iff.rfl

/-- A detector keeps who was heard in the round that is under way, and who was heard in the one
before or came to be watched in this one. -/
theorem window_run (self : NodeId) (config : DetectorConfig) (turns : List (Duration × Input))
    (n : NodeId) :
    (n ∈ ((start self config).run turns).active ↔ Heard 0 n turns) ∧
      (n ∈ ((start self config).run turns).lastActive ↔ Heard 1 n turns ∨ Joined n turns) := by
  induction turns using List.reverseRecOn with
  | nil =>
    have hnothing : ∀ {rounds P}, ¬ Ago rounds P [] := by
      rintro rounds P ⟨past, turn, rest, hsplit, -⟩
      simp at hsplit
    constructor
    · exact iff_of_false (SortedSet.not_mem_empty n) hnothing
    · exact iff_of_false (SortedSet.not_mem_empty n) (not_or.2 ⟨hnothing, hnothing⟩)
  | append_singleton past turn ih =>
    obtain ⟨hactive, hlast⟩ := ih
    rw [run_concat, mem_active_react, mem_lastActive_react, hactive, hlast, watches_run]
    unfold Heard Joined at *
    by_cases htick : turn.2.isTick = true
    · -- what was the round under way is the round before
      obtain ⟨now, input⟩ := turn
      obtain rfl := Input.eq_tick htick
      rw [ago_tick now (by simp), ago_tick now (by simp), ago_tick now (by simp [watched_tick])]
      simp [Input.isTick]
    · rw [Bool.not_eq_true] at htick
      rw [ago_of_not_tick htick, ago_of_not_tick htick, ago_of_not_tick htick, joins_iff, htick]
      simp only [Bool.false_eq_true, if_false, true_and, Nat.one_ne_zero, false_and, false_or]
      exact or_left_comm

/-! ## Who is taken for live -/

/-- At the end of a round, those nodes are live that are watched and were heard in one of the last
two rounds, or came to be watched in the last one. -/
lemma mem_live_tick (self : NodeId) (config : DetectorConfig) (past : List (Duration × Input))
    (now : Duration) (n : NodeId) :
    n ∈ ((start self config).run (past ++ [(now, .tick)])).live ↔
      Watched n past ∧ ((∃ k < 2, Heard k n past) ∨ Joined n past) := by
  obtain ⟨hactive, hlast⟩ := window_run self config past n
  have hwatched : n ∈ ((start self config).run past).subscribed ↔ Watched n past := by
    rw [← watches_run self config, mem_subscribed, watches_iff]
  have hrounds : (∃ k < 2, Heard k n past) ↔ Heard 0 n past ∨ Heard 1 n past := by
    constructor
    · rintro ⟨k, hk, hheard⟩
      obtain rfl | rfl : k = 0 ∨ k = 1 := by omega
      · exact .inl hheard
      · exact .inr hheard
    · rintro (hheard | hheard)
      · exact ⟨0, by omega, hheard⟩
      · exact ⟨1, by omega, hheard⟩
  have hlive : (((start self config).run past).react (now, .tick)).live =
      ((start self config).run past).heard.inter ((start self config).run past).subscribed :=
    (tick_eq _ now).2.1
  rw [run_concat, hlive, SortedSet.mem_inter, heard, SortedSet.mem_union, hwatched, hactive, hlast,
    hrounds, and_comm, or_assoc]

/-- Between the ends of rounds a node that is watched stays live or not, and a node that comes to be
watched is live. -/
lemma mem_live_react (hturn : turn.2.isTick = false) (hwatched : (d.react turn).watches n = true) :
    n ∈ (d.react turn).live ↔ n ∈ d.live ∨ ¬ d.watches n = true := by
  obtain ⟨r, hr⟩ := watches_iff.1 hwatched
  have hbefore := (get?_react ..).1 hr
  -- a node whose subscription is not the new one was watched before
  have hstill : turn.2 ≠ .subscribe r n → (n ∈ d.live ↔ n ∈ d.live ∨ ¬ d.watches n = true) := by
    intro hother
    have hwatches : d.watches n = true := watches_iff.2 ⟨r, (hbefore.resolve_left hother).2⟩
    rw [or_iff_left (not_not.2 hwatches)]
  obtain ⟨now, input⟩ := turn
  cases input with
  | subscribe r' n' =>
    show n ∈ (d.subscribe r' n').1.live ↔ _
    rw [← SortedSet.contains_iff_mem, live_subscribe, Bool.or_eq_true, SortedSet.contains_iff_mem]
    by_cases hn : n = n'
    · rw [hn]
      simp
    · rw [← hstill (by rintro heq; cases heq; exact hn rfl)]
      simp [hn]
  | unsubscribe r' =>
    rw [← hstill (by simp)]
    exact (d.unsubscribe_eq r').2 r n hr
  | inbound src message =>
    rw [← hstill (by simp)]
    show n ∈ (d.receive now src message).1.live ↔ _
    rw [(d.receive_eq now src message).2.1]
  | tick => cases hturn

/-- A node that is suspected is not live any more. -/
lemma not_mem_live_of_suspect {r : RequestId} (h : .suspect n r ∈ d.reportsOn turn) :
    n ∉ (d.react turn).live := by
  obtain ⟨now, input⟩ := turn
  cases input with
  | subscribe r' n' =>
    rw [reportsOn_subscribe] at h
    split at h
    · rename_i hdead
      cases List.mem_singleton.1 h
      show n ∉ (d.subscribe r n).1.live
      rw [← SortedSet.contains_iff_mem, live_subscribe]
      rw [Bool.and_eq_true, Bool.not_eq_true'] at hdead
      simp [hdead.1, hdead.2]
    · cases h
  | unsubscribe r' => cases h
  | inbound src message =>
    rw [reportsOn_inbound] at h
    cases h
  | tick =>
    rw [reportsOn_tick] at h
    obtain ⟨-, -, hheard⟩ := mem_verdicts.1 h
    show n ∉ (d.tick now).1.live
    rw [(d.tick_eq now).2.1, SortedSet.mem_inter, ← SortedSet.contains_iff_mem]
    rintro ⟨hin, -⟩
    rw [show d.heard.contains n = false from hheard] at hin
    cases hin

/-- A node was heard in one of every two rounds. -/
def HeardThroughout (n : NodeId) (turns : List (Duration × Input)) : Prop :=
  ∀ past now, past ++ [(now, .tick)] <+: turns → 0 < ticksIn past → ∃ k < 2, Heard k n past

lemma HeardThroughout.before (h : HeardThroughout n turns) (hfront : past <+: turns) :
    HeardThroughout n past :=
  fun _ now hpast => h _ now (hpast.trans hfront)

/-- A node that is heard in one of every two rounds is live whenever it is watched. -/
lemma HeardThroughout.mem_live (h : HeardThroughout n turns) (self : NodeId)
    (config : DetectorConfig) (hwatched : Watched n turns) :
    n ∈ ((start self config).run turns).live := by
  induction turns using List.reverseRecOn with
  | nil => exact absurd hwatched not_watched_nil
  | append_singleton past turn ih =>
    by_cases htick : turn.2.isTick = true
    · obtain ⟨now, input⟩ := turn
      obtain rfl := Input.eq_tick htick
      rw [watched_tick] at hwatched
      apply (mem_live_tick self config past now n).2
      refine ⟨hwatched, ?_⟩
      -- the first round has no round before it, but the node came to be watched in it
      rcases Nat.eq_zero_or_pos (ticksIn past) with hfirst | hlater
      · right
        exact joined_of_first hwatched hfirst
      · left
        exact h past now (List.prefix_refl _) hlater
    · rw [Bool.not_eq_true] at htick
      have hafter := (watches_run self config _).2 hwatched
      rw [run_concat] at hafter ⊢
      rw [mem_live_react htick hafter, watches_run]
      by_cases hbefore : Watched n past
      · left
        exact ih (h.before (List.prefix_append past [turn])) hbefore
      · right
        exact hbefore

/-- Nor is it suspected. -/
lemma HeardThroughout.not_suspected (h : HeardThroughout n turns) (self : NodeId)
    (config : DetectorConfig) (r : RequestId) :
    .suspect n r ∉ (start self config).reports turns := by
  induction turns using List.reverseRecOn with
  | nil => exact List.not_mem_nil
  | append_singleton past turn ih =>
    rw [reports_concat, List.mem_append, not_or]
    refine ⟨ih (h.before (List.prefix_append past [turn])), ?_⟩
    intro hsuspect
    -- who is told of a node watches it, and a node that is watched is live
    have hget := get?_of_mem_reportsOn hsuspect
    rw [← run_concat, get?_run] at hget
    have hlive := h.mem_live self config ⟨r, hget⟩
    rw [run_concat] at hlive
    exact not_mem_live_of_suspect hsuspect hlive

/-- At the end of each round, the live nodes are those that are watched and were heard in one of the
last two rounds, or came to be watched in the last one. So a node that is heard in one of every two
rounds is live whenever it is watched and is never suspected, and a node that is silent for two
rounds, and watched all through the second, is not live at its end. -/
theorem live_window (self : NodeId) (config : DetectorConfig) (turns : List (Duration × Input))
    (n : NodeId) :
    let d := start self config
    (∀ past now, past ++ [(now, .tick)] <+: turns →
        (n ∈ (d.run (past ++ [(now, .tick)])).live ↔
          Watched n past ∧ ((∃ k < 2, Heard k n past) ∨ Joined n past))) ∧
      (HeardThroughout n turns →
        (∀ past, past <+: turns → Watched n past → n ∈ (d.run past).live) ∧
          ∀ r, .suspect n r ∉ d.reports turns) ∧
      ∀ past now, past ++ [(now, .tick)] <+: turns →
        (∀ front rest, past = front ++ rest → ticksIn rest = 0 → Watched n front) →
        (∀ k < 2, ¬ Heard k n past) → n ∉ (d.run (past ++ [(now, .tick)])).live := by
  intro d
  refine ⟨?_, ?_, ?_⟩
  · intro past now _
    exact mem_live_tick self config past now n
  · intro hheard
    constructor
    · intro past hfront hwatched
      exact (hheard.before hfront).mem_live self config hwatched
    · intro r
      exact hheard.not_suspected self config r
  · intro past now _ hwatched hsilent hlive
    obtain ⟨-, ⟨k, hk, hheard⟩ | ⟨front, turn, rest, hpast, hrest, hnew, hjoins⟩⟩ :=
      (mem_live_tick self config past now n).1 hlive
    · exact hsilent k hk hheard
    · -- the input that it came to be watched with would be in the second round
      obtain ⟨-, r, hturn⟩ := joins_iff.1 ⟨hnew, hjoins⟩
      apply hnew
      apply hwatched front (turn :: rest) hpast
      unfold ticksIn at *
      rw [List.countP_cons_of_neg (by rw [hturn]; simp [Input.isTick]), hrest]

namespace SilentNode

def b : NodeId := ⟨"b", 1, none⟩

def c : NodeId := ⟨"c", 1, none⟩

def initial : Detector := start ⟨"a", 1, none⟩ {}

/-- Of two nodes that are watched through three rounds one is heard, in the second. -/
def happened : List (Duration × Input) :=
  [(0, .subscribe 1 b), (0, .subscribe 2 c), (1, .tick), (1, .inbound b .heartbeat), (2, .tick),
    (3, .tick)]

end SilentNode

open SilentNode in
/-- The node that is heard is live after the third round and is not suspected, and the one that is
silent is not live after the second. -/
theorem live_window_silent :
    HeardThroughout b happened ∧ b ∈ (initial.run happened).live ∧
      .suspect b 1 ∉ initial.reports happened ∧
      (∀ k < 2, ¬ Heard k c (happened.take 4)) ∧ c ∉ (initial.run (happened.take 5)).live := by
  have hb : HeardThroughout b happened := by
    rintro past now ⟨rest, hsplit⟩ hlater
    -- the first of the three ticks has no round before its own
    simp only [List.append_assoc, List.cons_append, List.nil_append, happened,
      List.append_eq_cons_iff, List.cons.injEq, Prod.mk.injEq, reduceCtorEq, and_false, false_and,
      List.cons_eq_append_iff, and_true, List.nil_eq, List.append_eq_nil_iff, exists_const,
      or_false, ↓existsAndEq, true_and, false_or] at hsplit
    obtain ⟨_, rfl, ⟨rfl, -, -⟩ | ⟨_, rfl, ⟨rfl, -, -⟩ | ⟨rfl, -, -⟩⟩⟩ := hsplit
    · exact absurd hlater (by decide)
    · exact ⟨0, by omega, happened.take 3, (1, .inbound b .heartbeat), [], rfl, rfl, rfl⟩
    · exact ⟨1, by omega, happened.take 3, (1, .inbound b .heartbeat), [(2, .tick)], rfl, rfl, rfl⟩
  have hwatched : ∀ front rest, happened.take 4 = front ++ rest → ticksIn rest = 0 →
      Watched c front := by
    intro front rest hsplit hrest
    simp only [happened, List.take_succ_cons, List.take_zero, List.cons_eq_append_iff, List.nil_eq,
      List.append_eq_nil_iff, ↓existsAndEq, true_and] at hsplit
    obtain ⟨rfl, rfl⟩ | ⟨_, rfl, ⟨rfl, rfl⟩ | ⟨_, rfl, ⟨rfl, rfl⟩ | ⟨_, rfl, ⟨rfl, rfl⟩ |
      ⟨rfl, rfl⟩⟩⟩⟩ := hsplit
    · exact absurd hrest (by decide)
    · exact absurd hrest (by decide)
    · exact absurd hrest (by decide)
    · exact (watches_run ⟨"a", 1, none⟩ {} _).1 (by decide)
    · exact (watches_run ⟨"a", 1, none⟩ {} _).1 (by decide)
  have hsilent : ∀ k < 2, ¬ Heard k c (happened.take 4) := by
    rintro k - ⟨past, turn, rest, hsplit, -, hturn⟩
    have hmem : turn ∈ happened.take 4 := by
      rw [hsplit]
      simp
    have hnone : ∀ turn ∈ happened.take 4, turn.2 ≠ .inbound c .heartbeat := by
      simp [happened, b, c]
    exact hnone turn hmem hturn
  obtain ⟨-, hlive, -⟩ := live_window ⟨"a", 1, none⟩ {} happened b
  obtain ⟨-, -, hdead⟩ := live_window ⟨"a", 1, none⟩ {} happened c
  refine ⟨hb, (hlive hb).1 happened (List.prefix_refl _) ?_, (hlive hb).2 1, hsilent, ?_⟩
  · exact (watches_run ⟨"a", 1, none⟩ {} happened).1 (by decide)
  · exact hdead (happened.take 4) 2 ⟨[(3, .tick)], rfl⟩ hwatched hsilent

end Detector

end ReplicaRing
