import ReplicaRing.Proofs.BackoffLimits
import ReplicaRing.Proofs.MonitoredNodes
import ReplicaRing.Proofs.SharedStore

/-!
Runs of a replica, which handles signals in any order while alarms go off. A chore that was armed at
the start is armed for ever, `Replica.Armed.run`. No timeout that the detector publishes is longer
than 2^64 microseconds or the least timeout, so a replica keeps its mover if the waits for such
timeouts endure, `Replica.mover_kept`.
-/

namespace ReplicaRing

/-! ## Timeouts of a detector -/

/-- A timeout is a number of microseconds of 64 bits, or the floor. -/
lemma RoundTrip.timeout_le {r : RoundTrip} {bound : Duration}
    (hmicros : Duration.ofMicros (2 ^ 64) ≤ bound) (hfloor : r.floor ≤ bound) :
    r.timeout ≤ bound := by
  unfold timeout
  split
  · exact hfloor
  · refine max_le ((Nat.mul_le_mul_right 1000 ?_).trans hmicros) hfloor
    exact (UInt64.toNat_lt _).le

lemma RoundTrip.sample_floor (r : RoundTrip) (rtt : Duration) : (r.sample rtt).floor = r.floor := by
  unfold sample
  simp only
  split
  · rfl
  · rfl

namespace Detector

/-- A detector publishes no timeout that is greater than a bound, and will not. -/
structure Bounded (d : Detector) (bound : Duration) : Prop where
  least : d.config.minTimeout ≤ bound
  floors : ∀ n r, d.roundTrips.get? n = some r → r.floor ≤ bound
  published : ∀ n timeout, d.published.get? n = some timeout → timeout ≤ bound

section

variable {d : Detector} {bound : Duration}

lemma bounded_start (self : NodeId) {config : DetectorConfig} (h : config.minTimeout ≤ bound) :
    (start self config).Bounded bound := by
  refine ⟨h, fun n r hr => ?_, fun n timeout htimeout => ?_⟩
  · cases (SortedMap.get?_empty n).symm.trans hr
  · cases (SortedMap.get?_empty n).symm.trans htimeout

lemma bounded_publish (hmicros : Duration.ofMicros (2 ^ 64) ≤ bound)
    (hleast : d.config.minTimeout ≤ bound)
    (hfloors : ∀ n r, d.roundTrips.get? n = some r → r.floor ≤ bound) :
    d.publish.Bounded bound := by
  refine ⟨hleast, hfloors, fun n timeout htimeout => ?_⟩
  have hget : d.publish.published.get? n = (d.roundTrips.get? n).map RoundTrip.timeout :=
    SortedMap.get?_map ..
  rw [hget, Option.map_eq_some_iff] at htimeout
  obtain ⟨r, hr, rfl⟩ := htimeout
  exact RoundTrip.timeout_le hmicros (hfloors n r hr)

lemma Bounded.unsubscribe (h : d.Bounded bound) (hmicros : Duration.ofMicros (2 ^ 64) ≤ bound)
    (request : RequestId) : (d.unsubscribe request).Bounded bound := by
  unfold Detector.unsubscribe
  split
  · exact h
  · rename_i n hn
    simp only
    split
    · exact ⟨h.least, h.floors, h.published⟩
    · refine bounded_publish hmicros h.least fun n' r hr => ?_
      replace hr : (d.roundTrips.erase n).get? n' = some r := hr
      rw [SortedMap.get?_erase] at hr
      split at hr
      · cases hr
      · exact h.floors n' r hr

lemma Bounded.receive (h : d.Bounded bound) (hmicros : Duration.ofMicros (2 ^ 64) ≤ bound)
    (now : Duration) (src : NodeId) (message : Message) :
    (d.receive now src message).1.Bounded bound := by
  unfold Detector.receive
  split
  · split
    · exact h
    · exact ⟨h.least, h.floors, h.published⟩
  · exact h
  · split
    · refine bounded_publish hmicros h.least fun n' r hr => ?_
      replace hr : (d.roundTrips.insert src _).get? n' = some r := hr
      rw [SortedMap.get?_insert] at hr
      split at hr
      · obtain rfl := Option.some_inj.1 hr
        rw [RoundTrip.sample_floor]
        cases hsrc : d.roundTrips.get? src with
        | none => exact h.least
        | some r => exact h.floors src r hsrc
      · exact h.floors n' r hr
    · exact h
  · exact h

theorem Bounded.handle (h : d.Bounded bound) (hmicros : Duration.ofMicros (2 ^ 64) ≤ bound)
    (now : Duration) (input : Input) : (d.handle now input).1.Bounded bound := by
  cases input with
  | subscribe request n =>
    obtain ⟨hconfig, -, htrips, hpublished, -⟩ := d.subscribe_rest request n
    exact ⟨hconfig ▸ h.least, htrips ▸ h.floors, hpublished ▸ h.published⟩
  | unsubscribe request => exact h.unsubscribe hmicros request
  | inbound src message => exact h.receive hmicros now src message
  | tick => exact ⟨h.least, h.floors, h.published⟩

end

end Detector

/-! ## Timers of chores -/

namespace Timers

variable {κ ε : Type} [Ord κ] [Std.TransOrd κ] [Std.LawfulEqOrd κ] [DecidableEq κ]

/-- A timer that repeats is armed if its period is not zero. -/
lemma periodic_get? (t : Timers κ ε) (key key' : κ) (period : Duration) (event : ε) :
    (t.periodic key period event).armed.get? key' =
      if key' = key then
        if period = 0 then none else some ⟨t.now + period, some period, event⟩
      else t.armed.get? key' := by
  unfold periodic
  split
  · exact SortedMap.get?_erase ..
  · exact SortedMap.get?_insert ..

end Timers

namespace Replica

open BlockCompression (Compressor)

/-- What comes to a replica. -/
inductive Turn where
  | handles (now : Duration) (signal : Signal)
  /-- An alarm goes off. Its signal comes in a turn of its own. -/
  | rings (alarm : Alarm)

def take (r : Replica) : Turn → Replica
  | .handles now signal => (r.handle now signal).1
  | .rings alarm => r.clearAlarm alarm

def run (r : Replica) (turns : List Turn) : Replica := turns.foldl take r

/-- A replica at its start, with a first view or without. -/
def started (self : NodeId) (config : Config) (placement : Placement) (store : Store)
    (compressor : Compressor) (draws : Nat → Nat) (first : Option Reconfigure) : Replica :=
  ((assemble self config placement store compressor draws).bootstrap first).1

/-- The first view is a matter of the engine alone. -/
lemma started_rest (self : NodeId) (config : Config) (placement : Placement) (store : Store)
    (compressor : Compressor) (draws : Nat → Nat) (first : Option Reconfigure) :
    let r := assemble self config placement store compressor draws
    let r₀ := started self config placement store compressor draws first
    r₀.detector = r.detector ∧ r₀.mover = r.mover ∧ r₀.chores = r.chores := by
  cases first with
  | none => exact ⟨rfl, rfl, rfl⟩
  | some reconfigure => exact ⟨rfl, rfl, rfl⟩

section

variable {r : Replica} {c : Chore} {period : Duration}

/-- A chore is armed to come again and again. -/
def Armed (r : Replica) (c : Chore) (period : Duration) : Prop :=
  ∃ deadline, r.chores.armed.get? c = some ⟨deadline, some period, c⟩

lemma withMover_chores (r : Replica) (now : Duration) (input : Mover.Input) :
    (r.withMover now input).1.chores = r.chores := by
  unfold withMover
  split
  · rfl
  · simp only
    split
    · rfl
    · rfl

/-- No signal touches the chores. -/
lemma handle_chores (r : Replica) (now : Duration) (signal : Signal) :
    (r.handle now signal).1.chores = r.chores := by
  cases signal with
  | inbound e =>
    show (r.dispatch now e).1.chores = r.chores
    unfold dispatch
    split
    · rfl
    · split
      · rfl
      · rfl
      · split
        · exact r.withMover_chores now _
        · rfl
  | command command => exact r.withMover_chores now _
  | alarm alarm =>
    cases alarm with
    | retry session => exact r.withMover_chores now _
    | forwardTimeout id => rfl
    | chore chore =>
      cases chore with
      | round => rfl
      | report => rfl
  | _ => rfl

/-- An alarm leaves every chore armed that was. -/
lemma Armed.clearAlarm (h : r.Armed c period) (alarm : Alarm) :
    (r.clearAlarm alarm).Armed c period := by
  obtain ⟨deadline, hget⟩ := h
  cases alarm with
  | retry session => exact ⟨deadline, hget⟩
  | forwardTimeout id => exact ⟨deadline, hget⟩
  | chore c' =>
    unfold Replica.clearAlarm
    simp only
    split
    · rename_i t ht
      have hfire := r.chores.fire_get? c' c t
      by_cases hc : c = c'
      · subst hc
        obtain rfl := Option.some_inj.1 (hget.symm.trans ht)
        exact ⟨_, hfire.trans (if_pos rfl)⟩
      · exact ⟨deadline, hfire.trans ((if_neg hc).trans hget)⟩
    · exact ⟨deadline, hget⟩

lemma Armed.take (h : r.Armed c period) (turn : Turn) : (r.take turn).Armed c period := by
  cases turn with
  | rings alarm => exact h.clearAlarm alarm
  | handles now signal =>
    unfold Replica.take Armed
    rw [r.handle_chores now signal]
    exact h

theorem Armed.run (h : r.Armed c period) (turns : List Turn) : (r.run turns).Armed c period :=
  List.foldlRecOn (motive := fun r => r.Armed c period) turns Replica.take h
    fun _ hr turn _ => hr.take turn

end

section

variable (self : NodeId) {config : Config} (placement : Placement) (store : Store)
  (compressor : Compressor) (draws : Nat → Nat) (first : Option Reconfigure)

lemma armed_round (h : config.detector.period ≠ 0) :
    (started self config placement store compressor draws first).Armed .round
      config.detector.period := by
  have hround : (Timers.empty.periodic Chore.round config.detector.period Chore.round).armed.get?
      .round = some ⟨0 + config.detector.period, some config.detector.period, .round⟩ :=
    (Timers.periodic_get? ..).trans ((if_pos rfl).trans (if_neg h))
  unfold Armed
  rw [(started_rest self config placement store compressor draws first).2.2]
  exact ⟨_, (Timers.periodic_get? ..).trans ((if_neg (by decide)).trans hround)⟩

lemma armed_report_iff (period : Duration) :
    (started self config placement store compressor draws first).Armed .report period ↔
      config.router.statsInterval ≠ 0 ∧ period = config.router.statsInterval := by
  have hreport : (assemble self config placement store compressor draws).chores.armed.get?
      .report = _ := (Timers.periodic_get? ..).trans (if_pos rfl)
  unfold Armed
  rw [(started_rest self config placement store compressor draws first).2.2, hreport]
  split
  · rename_i hzero
    simp [hzero]
  · rename_i hpos
    simp [hpos, eq_comm]

end

/-! ## The mover of a replica -/

/-- A replica that has its mover, with timeouts within a bound. -/
structure Secure (r : Replica) (tuning : TransferConfig) (bound : Duration) : Prop where
  detector : r.detector.Bounded bound
  mover : ∃ m, r.mover = some m ∧ m.Paced tuning bound

section

variable {r : Replica} {tuning : TransferConfig} {bound : Duration}

lemma Secure.of_eq (h : r.Secure tuning bound) {r' : Replica} (hdetector : r'.detector = r.detector)
    (hmover : r'.mover = r.mover) : r'.Secure tuning bound :=
  ⟨hdetector ▸ h.detector, hmover ▸ h.mover⟩

lemma Secure.withDetector (h : r.Secure tuning bound)
    (hmicros : Duration.ofMicros (2 ^ 64) ≤ bound) (now : Duration) (input : Detector.Input) :
    (r.withDetector now input).1.Secure tuning bound :=
  ⟨h.detector.handle hmicros now input, h.mover⟩

variable (hfactor : ¬ tuning.backoffMultiplier < 1.0)
  (hendures : tuning.Endures (max tuning.retryInterval bound))

include hfactor hendures

lemma Secure.withMover (h : r.Secure tuning bound) (now : Duration) (input : Mover.Input) :
    (r.withMover now input).1.Secure tuning bound := by
  obtain ⟨m, hm, hpaced⟩ := h.mover
  have hlent : (m.amid (r.surroundings now)).Paced tuning bound := hpaced.amid h.detector.published
  obtain ⟨⟨m', out⟩, hhandle⟩ := hlent.exists_handle hfactor hendures input
  rw [withMover_of_ok hm hhandle]
  exact ⟨h.detector, m', rfl, hlent.handle hhandle⟩

lemma Secure.dispatch (h : r.Secure tuning bound) (hmicros : Duration.ofMicros (2 ^ 64) ≤ bound)
    (now : Duration) (e : Envelope) : (r.dispatch now e).1.Secure tuning bound := by
  unfold Replica.dispatch
  split
  · exact h
  · split
    · exact h.withDetector hmicros now _
    · exact h.of_eq rfl rfl
    · split
      · exact h.withMover hfactor hendures now _
      · exact h.of_eq rfl rfl

lemma Secure.handle (h : r.Secure tuning bound) (hmicros : Duration.ofMicros (2 ^ 64) ≤ bound)
    (now : Duration) (signal : Signal) : (r.handle now signal).1.Secure tuning bound := by
  cases signal with
  | inbound e => exact h.dispatch hfactor hendures hmicros now e
  | subscribe request n => exact h.withDetector hmicros now _
  | unsubscribe request => exact h.withDetector hmicros now _
  | command command => exact h.withMover hfactor hendures now _
  | alarm alarm =>
    cases alarm with
    | retry session => exact h.withMover hfactor hendures now _
    | forwardTimeout id => exact h.of_eq rfl rfl
    | chore chore =>
      cases chore with
      | round => exact h.withDetector hmicros now _
      | report => exact h.of_eq rfl rfl
  | _ => exact h.of_eq rfl rfl

omit hfactor hendures in
lemma Secure.clearAlarm (h : r.Secure tuning bound) (alarm : Alarm) :
    (r.clearAlarm alarm).Secure tuning bound := by
  obtain ⟨m, hm, hpaced⟩ := h.mover
  cases alarm with
  | forwardTimeout id => exact h.of_eq rfl rfl
  | retry session =>
    exact ⟨h.detector, _, congrArg (Option.map _) hm, hpaced.with_timers _⟩
  | chore chore =>
    unfold Replica.clearAlarm
    simp only
    split
    · exact h.of_eq rfl rfl
    · exact h

theorem Secure.run (h : r.Secure tuning bound) (hmicros : Duration.ofMicros (2 ^ 64) ≤ bound)
    (turns : List Turn) : (r.run turns).Secure tuning bound :=
  List.foldlRecOn (motive := fun r => r.Secure tuning bound) turns Replica.take h
    fun _ hr turn _ => match turn with
      | .handles now signal => hr.handle hfactor hendures hmicros now signal
      | .rings alarm => hr.clearAlarm alarm

end

/-- A replica keeps its mover if the waits for any timeout of its detector endure. -/
theorem mover_kept (self : NodeId) (config : Config) (placement : Placement) (store : Store)
    (compressor : Compressor) (draws : Nat → Nat) (first : Option Reconfigure) {bound : Duration}
    (hmicros : Duration.ofMicros (2 ^ 64) ≤ bound) (hleast : config.detector.minTimeout ≤ bound)
    (hfactor : ¬ config.transfer.backoffMultiplier < 1.0)
    (hendures : config.transfer.Endures (max config.transfer.retryInterval bound))
    (turns : List Turn) :
    ((started self config placement store compressor draws first).run turns).mover ≠ none := by
  obtain ⟨hdetector, hmover, -⟩ :=
    started_rest self config placement store compressor draws first
  have hassembled : (assemble self config placement store compressor draws).Secure
      config.transfer bound :=
    ⟨Detector.bounded_start self hleast, _, rfl, Mover.paced_start ..⟩
  obtain ⟨m, hm, -⟩ :=
    ((hassembled.of_eq hdetector hmover).run hfactor hendures hmicros turns).mover
  rw [hm]
  exact Option.some_ne_none m

end Replica

end ReplicaRing
