import Mathlib.Data.List.Chain
import ReplicaRing.Proofs.AcceptedConfigs
import ReplicaRing.Proofs.AwaitedAnswers
import ReplicaRing.Proofs.ScaledSpans

/-!
How long a session waits for an answer. The first wait is the larger of the configured interval and
the timeout of the destination, and every next one has grown by the factor and is cut to the
configured limit, `TimedMover.backoff_of_run`. The limit is not compared with the first wait: where
it is lower, all waits but the first fall below that. They do not exactly if the limit is not lower
and the first wait does not shrink when it grows, `TimedMover.waits_at_least_base_iff`.
-/

namespace ReplicaRing

/-! ## Growing waits -/

/-- A span that does not shrink when it grows by a factor. -/
def Duration.GrowsBy (factor : Float) (d : Duration) : Prop :=
  ∀ grown, scale? d factor = some grown → d ≤ grown

namespace TransferConfig

variable {c : TransferConfig} {base wait first : Duration} {rest : List Duration}

/-- No wait falls below the first, if the second does not. -/
lemma base_le_of_chain (hfactor : ¬ c.backoffMultiplier < 1.0)
    (hfirst : Duration.scale? base c.backoffMultiplier = some first) (hgrows : base ≤ first)
    (hlimit : base ≤ c.maxRetryInterval) (hwait : base ≤ wait)
    (h : (wait :: rest).IsChain c.NextWait) : ∀ w ∈ wait :: rest, base ≤ w := by
  induction rest generalizing wait with
  | nil => exact List.forall_mem_singleton.2 hwait
  | cons next rest ih =>
    obtain ⟨⟨grown, hgrown, rfl⟩, hrest⟩ := List.isChain_cons_cons.1 h
    -- a wait of at least the base grows to at least what the base grows to
    have hgrown : base ≤ grown := hgrows.trans (Duration.scale?_mono hfactor hwait hfirst hgrown)
    exact List.forall_mem_cons.2 ⟨hwait, ih (le_min hgrown hlimit) hrest⟩

/-- Of waits that another one follows, the second is the first that may fall below the first. -/
theorem base_le_iff (hfactor : ¬ c.backoffMultiplier < 1.0)
    (h : (base :: rest).IsChain c.NextWait) :
    (∀ w ∈ (base :: rest).dropLast, base ≤ w) ↔ (base :: rest).length ≤ 2 ∨
      base ≤ c.maxRetryInterval ∧ Duration.GrowsBy c.backoffMultiplier base := by
  cases rest with
  | nil => simp
  | cons second rest =>
    cases rest with
    | nil => simp
    | cons third rest =>
      obtain ⟨grown, hgrown, hsecond⟩ := (List.isChain_cons_cons.1 h).1
      constructor
      · -- the second wait is the smaller one of the base's growth and the limit
        intro hall
        have hle : base ≤ second := hall second (by simp)
        rw [hsecond] at hle
        refine .inr ⟨hle.trans (min_le_right _ _), fun grown' hgrown' => ?_⟩
        obtain rfl := Option.some_inj.1 (hgrown.symm.trans hgrown')
        exact hle.trans (min_le_left _ _)
      · rintro (hfew | ⟨hlimit, hgrows⟩) w hw
        · simp at hfew
        · exact base_le_of_chain hfactor hgrown (hgrows _ hgrown) hlimit le_rfl h w
            (List.mem_of_mem_dropLast hw)

end TransferConfig

/-! ## Waits of a session -/

namespace Mover

namespace SessionTurn

variable {c : BlockCompression.Compressor} {store : Store} {self : NodeId} {id : SessionId}
  {opening : Option (NodeId × TransferMetadata)} {granted : Option UInt64}
  {o : Option SenderSession} {told : List MoverEvent} {s' : SenderSession}

/-- A session that sends nothing and goes on keeps its wait. -/
lemma of_silent (h : SessionTurn c store self id opening granted o [] told (some s')) :
    ∃ s, o = some s ∧ s'.destination = s.destination ∧ s'.attempts = s.attempts ∧
      s'.retryInterval = s.retryInterval := by
  cases h with
  | same => exact ⟨s', rfl, rfl, rfl, rfl⟩
  | late => exact ⟨s', rfl, rfl, rfl, rfl⟩
  | queue s => exact ⟨s, rfl, rfl, rfl, rfl⟩

end SessionTurn

/-- The wait that a session's timer is armed for in a moment when the session sends something. -/
def Moment.wait? (x : Moment) (id : SessionId) : Option Duration :=
  if (framesOf id x.out).isEmpty then none
  else (x.after.timers.armed.get? id).map fun t => t.deadline - x.after.timers.now

def waits (id : SessionId) (moments : List Moment) : List Duration :=
  moments.filterMap (Moment.wait? · id)

/-- The waits for the answer to the frame that a session sent in the first of some moments: one for
each time that it was sent, from the first wait for the destination to the session's own. -/
structure Backoff (c : TransferConfig) (id : SessionId) (moments : List Moment)
    (s : SenderSession) : Prop where
  first : ∃ x later, moments = x :: later ∧
    (waits id moments).head? = some (x.before.baseInterval s.destination)
  grown : (waits id moments).IsChain c.NextWait
  last : (waits id moments).getLast? = some s.retryInterval
  counted : (waits id moments).length = s.attempts

section

variable {m : Mover} {h : Happening} {x : Moment} {id : SessionId} {s s' : SenderSession}
  {c : TransferConfig} {moments past : List Moment} {wait : Duration}

lemma wait?_of_armed (hframes : framesOf id x.out ≠ [])
    (harmed : x.after.timers.armed.get? id = some ⟨x.after.timers.now + wait, none, id⟩) :
    x.wait? id = some wait := by
  unfold Moment.wait?
  rw [if_neg (by simpa using hframes), harmed]
  exact congrArg some (Nat.add_sub_cancel_left _ _)

lemma wait?_of_silent (hframes : framesOf id x.out = []) : x.wait? id = none := by
  unfold Moment.wait?
  rw [hframes]
  rfl

lemma waits_concat (id : SessionId) (moments : List Moment) (x : Moment) :
    waits id (moments ++ [x]) = waits id moments ++ (x.wait? id).toList := by
  unfold waits
  exact List.filterMap_append

/-- A frame that is sent for the first time. -/
lemma Backoff.start (hwait : x.wait? id = some s.retryInterval)
    (hbase : s.retryInterval = x.before.baseInterval s.destination) (honce : s.attempts = 1) :
    Backoff c id [x] s := by
  have hwaits : waits id [x] = [s.retryInterval] := by
    rw [← List.nil_append [x], waits_concat, hwait]
    rfl
  refine ⟨⟨x, [], rfl, ?_⟩, ?_, ?_, ?_⟩
  · rw [hwaits, ← hbase]
    rfl
  · rw [hwaits]
    exact List.isChain_singleton _
  · rw [hwaits]
    rfl
  · rw [hwaits, honce]
    rfl

/-- The frame is sent again. -/
lemma Backoff.again (h : Backoff c id moments s) (hwait : x.wait? id = some wait)
    (hnext : c.NextWait s.retryInterval wait) : Backoff c id (moments ++ [x])
      { s with attempts := s.attempts + 1, retryInterval := wait } := by
  obtain ⟨y, later, rfl, hfirst⟩ := h.first
  have hwaits : waits id (y :: later ++ [x]) = waits id (y :: later) ++ [wait] := by
    rw [waits_concat, hwait]
    rfl
  refine ⟨⟨y, later ++ [x], rfl, ?_⟩, ?_, ?_, ?_⟩
  · rw [hwaits, List.head?_append, hfirst]
    rfl
  · rw [hwaits, List.isChain_append]
    refine ⟨h.grown, List.isChain_singleton _, fun a ha b hb => ?_⟩
    rw [h.last] at ha
    obtain rfl := Option.some_inj.1 ha
    obtain rfl := Option.some_inj.1 hb
    exact hnext
  · rw [hwaits, List.getLast?_concat]
  · rw [hwaits, List.length_append, h.counted]
    rfl

/-- Nothing is sent. -/
lemma Backoff.silent (h : Backoff c id moments s) (hwait : x.wait? id = none)
    (hdestination : s'.destination = s.destination) (hattempts : s'.attempts = s.attempts)
    (hinterval : s'.retryInterval = s.retryInterval) : Backoff c id (moments ++ [x]) s' := by
  obtain ⟨y, later, rfl, hfirst⟩ := h.first
  have hwaits : waits id (y :: later ++ [x]) = waits id (y :: later) := by
    rw [waits_concat, hwait]
    exact List.append_nil _
  refine ⟨⟨y, later ++ [x], rfl, ?_⟩, ?_, ?_, ?_⟩
  · rw [hwaits, hdestination]
    exact hfirst
  · rw [hwaits]
    exact h.grown
  · rw [hwaits, hinterval]
    exact h.last
  · rw [hwaits, hattempts]
    exact h.counted

/-- In every moment an open session waits for the first time, longer, or as it did. -/
lemma backoff_of_meet {due : SessionId → Prop} (hm : m.Tidy)
    (halive : ∀ id s, m.outbound.get? id = some s →
      Alive m id (due id) (framesIn id (sinceAwaited id past)) s)
    (hbackoff : ∀ s, m.outbound.get? id = some s → Backoff m.config id (sinceAwaited id past) s)
    (hx : m.meet h = .ok x) (hs : x.after.outbound.get? id = some s) :
    Backoff m.config id (sinceAwaited id (past ++ [x])) s := by
  rw [sinceAwaited_concat]
  by_cases hretry : h.retry? = some id
  · -- the timer fired, and the session is still open: it sent the same frame again
    obtain ⟨hhandle, hown, hopen⟩ := retry_of_meet hm hx hretry
    obtain ⟨s₀, hget⟩ := hopen hs
    obtain ⟨message, ⟨hflight, -⟩, -⟩ := (halive id s₀ hget).outstanding
    rw [hown]
    rcases handle_retry_cases hm hget hflight (halive id s₀ hget).active hhandle with
      ⟨-, hgone⟩ | ⟨-, hframes, interval, hnext, harmed, hget'⟩
    · cases hgone.symm.trans hs
    · obtain rfl := Option.some_inj.1 (hget'.symm.trans hs)
      refine (hbackoff s₀ hget).again (wait?_of_armed ?_ harmed) hnext
      rw [hframes]
      exact List.cons_ne_nil _ _
  · have hturn := sessionTurn_of_meet hm hx id
    obtain ⟨hbefore, -⟩ := meet_cases hx
    rcases timely_of_meet hm (fun id s hget => (halive id s hget).active) hx hretry s hs with
      ⟨hadvances, hframes, hsent⟩ | ⟨hquiet, hframes, -⟩
    · rw [if_pos hadvances]
      exact .start (wait?_of_armed hframes hsent.armed) (hbefore ▸ hsent.wait) hsent.once
    · rw [hframes, hs] at hturn
      obtain ⟨s₀, hget, hdestination, hattempts, hinterval⟩ := hturn.of_silent
      rw [hquiet]
      exact (hbackoff s₀ hget).silent (wait?_of_silent hframes) hdestination hattempts hinterval

end

end Mover

namespace TimedMover

variable {w w' : TimedMover} {node : NodeId} {tuning : TransferConfig} {id : SessionId}
  {s : SenderSession} {events : List Event}

/-- The open sessions of a mover wait longer and longer. -/
def Patient (w : TimedMover) (tuning : TransferConfig) : Prop :=
  ∀ id s, w.mover.outbound.get? id = some s →
    Mover.Backoff tuning id (Mover.sinceAwaited id w.past) s

lemma Patient.step (h : w.Patient tuning) (hsteady : w.Steady (· ∈ w.fired) node tuning)
    {event : Event} (hstep : w.step event = .ok w') : w'.Patient tuning := by
  intro id s hs
  cases event with
  | happens happening =>
    obtain ⟨x, hx, rfl⟩ := happens_eq_ok hstep
    have hbackoff := Mover.backoff_of_meet hsteady.tidy hsteady.alive
      (fun s hget => hsteady.tuned.symm ▸ h id s hget) hx hs
    exact hsteady.tuned ▸ hbackoff
  | expires id' =>
    unfold TimedMover.step at hstep
    simp only at hstep
    split at hstep
    · cases hstep
      exact h id s hs
    · cases hstep
      exact h id s hs

/-- The waits of an open session since it sent a frame for the first time. -/
theorem backoff_of_run (node : NodeId) (tuning : TransferConfig) (store : Store) (ids : IdSource)
    (compressor : BlockCompression.Compressor)
    (hrun : (start (.start node tuning store ids compressor)).run events = .ok w)
    (hs : w.mover.outbound.get? id = some s) :
    Mover.Backoff tuning id (Mover.sinceAwaited id w.past) s := by
  have hstart : (start (.start node tuning store ids compressor)).Patient tuning := by
    intro id s hs
    cases (Mover.start_outbound node tuning store ids compressor id).symm.trans hs
  have hpatient := foldlM_invariant
    (motive := fun w => w.Steady (· ∈ w.fired) node tuning ∧ w.Patient tuning)
    (fun _ _ _ hw hstep => ⟨hw.1.step hstep, hw.2.step hw.1 hstep⟩)
    ⟨steady_start node tuning store ids compressor, hstart⟩ hrun
  exact hpatient.2 id s hs

/-- With an accepted configuration, no wait that ended with the frame being sent again was shorter
than the first, exactly if the frame was not sent more than twice, or the limit for waits is not
below the first wait and this does not shrink when it grows. Below 2^23 seconds it does not. -/
theorem waits_at_least_base_iff (c : Config) (haccepted : c.validate = .ok ()) (node : NodeId)
    (store : Store) (ids : IdSource) (compressor : BlockCompression.Compressor)
    (events : List Event)
    (hrun : (start (.start node c.transfer store ids compressor)).run events = .ok w)
    (hs : w.mover.outbound.get? id = some s) :
    ∃ x later base, Mover.sinceAwaited id w.past = x :: later ∧
      base = x.before.baseInterval s.destination ∧
      (Mover.waits id (x :: later)).length = (Mover.framesIn id (x :: later)).length ∧
      ((∀ wait ∈ (Mover.waits id (x :: later)).dropLast, base ≤ wait) ↔
        (Mover.framesIn id (x :: later)).length ≤ 2 ∨
          base ≤ c.transfer.maxRetryInterval ∧
            Duration.GrowsBy c.transfer.backoffMultiplier base) ∧
      (base < 2 ^ 23 * Duration.nanosPerSecond →
        Duration.GrowsBy c.transfer.backoffMultiplier base) := by
  have hgrowth := (Config.validate_eq_ok_iff.1 haccepted).growth
  have hsteady : w.Steady (· ∈ w.fired) node c.transfer :=
    (steady_start node c.transfer store ids compressor).run hrun
  obtain ⟨message, -, hsent⟩ := (hsteady.alive id s hs).outstanding
  have hbackoff := backoff_of_run node c.transfer store ids compressor hrun hs
  obtain ⟨x, later, hmoments, hfirst⟩ := hbackoff.first
  rw [hmoments] at hbackoff hfirst hsent
  obtain ⟨rest, hwaits⟩ := List.head?_eq_some_iff.1 hfirst
  have hcount : (Mover.waits id (x :: later)).length =
      (Mover.framesIn id (x :: later)).length := by
    rw [hbackoff.counted, hsent, List.length_replicate]
  refine ⟨x, later, _, hmoments, rfl, hcount, ?_, fun hshort grown hgrown =>
    Duration.le_scale? hgrowth hshort hgrown⟩
  rw [← hcount, hwaits]
  exact TransferConfig.base_le_iff hgrowth (hwaits ▸ hbackoff.grown)

namespace SlowAnswers

def a : NodeId := ⟨"a", 1, none⟩

def b : NodeId := ⟨"b", 1, none⟩

/-- Every setting is at its default. -/
def config : Config := .withPeers "a:1" ["b:1"]

lemma validate_config : config.validate = .ok () := by
  have hpeers : ["b:1"].mapM NodeId.read = .ok [⟨"b", 1, none⟩] := by
    rw [List.mapM_cons, Config.read_second]
    rfl
  exact Config.validate_withPeers (by decide) Config.read_first hpeers

/-- The handshake to a destination with some timeout is never acknowledged, and sent three times. -/
def happened (timeout : Duration) : List Event :=
  [.happens (.amid ⟨.ofList [], ⟨0, 0⟩, .ofList [(b, timeout)], 0⟩),
    .happens (.input (.command (.startSend b .full 1))),
    .expires 1, .happens (.input (.retry 1)), .expires 1, .happens (.input (.retry 1))]

def outcome (timeout : Duration) : Except Mover.Crash TimedMover :=
  (start (.start a config.transfer (.ofList []) ⟨0, 0⟩)).run (happened timeout)

/-- The destination of the session, its first waits in the moments since the handshake, and how long
it waited. -/
def seen (w : TimedMover) : Option NodeId × List Duration × List Duration :=
  ((w.mover.outbound.get? 1).map (·.destination),
    (Mover.sinceAwaited 1 w.past).map (·.before.baseInterval b),
    Mover.waits 1 (Mover.sinceAwaited 1 w.past))

lemma of_seen (timeout : Duration) (bases waits : List Duration)
    (h : (outcome timeout).map seen = .ok (some b, bases, waits)) :
    ∃ w s, outcome timeout = .ok w ∧ w.mover.outbound.get? 1 = some s ∧ s.destination = b ∧
      (Mover.sinceAwaited 1 w.past).map (·.before.baseInterval b) = bases ∧
      Mover.waits 1 (Mover.sinceAwaited 1 w.past) = waits := by
  cases hrun : outcome timeout with
  | error crash =>
    rw [hrun] at h
    cases h
  | ok w =>
    rw [hrun] at h
    have hseen : seen w = (some b, bases, waits) := Except.ok.inj h
    simp only [seen, Prod.mk.injEq, Option.map_eq_some_iff] at hseen
    obtain ⟨⟨s, hs, hdestination⟩, hbases, hwaits⟩ := hseen
    exact ⟨w, s, rfl, hs, hdestination, hbases, hwaits⟩

end SlowAnswers

open SlowAnswers in
/-- Two seconds are below the limit. -/
theorem waits_at_least_base_two_seconds :
    ∃ w s, (start (.start a config.transfer (.ofList []) ⟨0, 0⟩)).run
        (happened (Duration.ofMillis 2000)) = .ok w ∧ w.mover.outbound.get? 1 = some s ∧
      Mover.waits 1 (Mover.sinceAwaited 1 w.past) = [2000, 4000, 8000].map Duration.ofMillis ∧
      ∀ wait ∈ (Mover.waits 1 (Mover.sinceAwaited 1 w.past)).dropLast,
        Duration.ofMillis 2000 ≤ wait := by
  obtain ⟨w, s, hrun, hs, hdestination, hbases, hwaits⟩ := of_seen
    (Duration.ofMillis 2000) ([2000, 2000, 2000].map Duration.ofMillis)
    ([2000, 4000, 8000].map Duration.ofMillis) (by decide +kernel)
  obtain ⟨x, later, base, hmoments, hbase, -, hiff, hgrows⟩ :=
    waits_at_least_base_iff config validate_config a (.ofList []) ⟨0, 0⟩ .literal
      (happened (Duration.ofMillis 2000)) hrun hs
  obtain rfl : base = Duration.ofMillis 2000 := by
    rw [hmoments] at hbases
    rw [hbase, hdestination]
    exact (List.cons_eq_cons.1 hbases).1
  refine ⟨w, s, hrun, hs, hwaits, ?_⟩
  rw [hmoments]
  exact hiff.2 (.inr ⟨by decide, hgrows (by decide)⟩)

open SlowAnswers in
/-- Twenty seconds are not, so the second wait is only the limit. -/
theorem waits_below_base_twenty_seconds :
    config.validate = .ok () ∧ ∃ w s x later,
      (start (.start a config.transfer (.ofList []) ⟨0, 0⟩)).run
        (happened (Duration.ofMillis 20000)) = .ok w ∧ w.mover.outbound.get? 1 = some s ∧
      Mover.sinceAwaited 1 w.past = x :: later ∧
      x.before.baseInterval s.destination = Duration.ofMillis 20000 ∧
      Mover.waits 1 (x :: later) = [20000, 10000, 10000].map Duration.ofMillis ∧
      ¬ ∀ wait ∈ (Mover.waits 1 (x :: later)).dropLast,
        x.before.baseInterval s.destination ≤ wait := by
  obtain ⟨w, s, hrun, hs, hdestination, hbases, hwaits⟩ := of_seen
    (Duration.ofMillis 20000) ([20000, 20000, 20000].map Duration.ofMillis)
    ([20000, 10000, 10000].map Duration.ofMillis) (by decide +kernel)
  obtain ⟨x, later, hmoments, hbase, -⟩ := List.map_eq_cons_iff.1 hbases
  rw [← hdestination] at hbase
  refine ⟨validate_config, w, s, x, later, hrun, hs, hmoments, hbase, hmoments ▸ hwaits, ?_⟩
  rw [← hmoments, hwaits, hbase]
  decide

end TimedMover

end ReplicaRing
