import ReplicaRing.Config.Read
import ReplicaRing.Proofs.LogPruning
import ReplicaRing.Proofs.RangePages
import ReplicaRing.Proofs.ReplicaRuns

/-!
What the components of a running replica need of its configuration, `Config.Safe`, and how much of
it validation sees to: rounds of the detector, pages, prunings and grants come of every accepted
configuration, reports need an interval, and retries need waits that can go on growing,
`Config.accepted_safe_iff`. Validation checks neither, so there are accepted configurations with
which reports never come, or the first retry stops the mover, `Config.accepted_unsafe`.
-/

namespace ReplicaRing

namespace Config

/-! ## Numbers that are read -/

/-- The numbers of a configuration have 64 bits. -/
structure Fits (c : Config) : Prop where
  quota : c.transfer.quotaBytes < 2 ^ 64
  interval : c.transfer.retryIntervalMs < 2 ^ 64
  limit : c.transfer.maxRetryIntervalMs < 2 ^ 64
  timeout : c.detector.minTimeoutMs < 2 ^ 64

namespace Setting

variable {α β : Type} {s : Settings} {name : String} {default a : α}
  {read : Setting → Except Fault α}

lemma readNat_lt {bits n : Nat} {t : Setting} (h : readNat bits t = .ok n) : n < 2 ^ bits := by
  unfold readNat at h
  split at h
  · rename_i k
    split at h
    · rename_i hk
      cases h
      rw [Nat.one_shiftLeft] at hk
      omega
    · cases h
  · cases h

/-- A setting that may be missing was read, or is at its default. -/
lemma of_optional {motive : α → Prop} (hdefault : motive default)
    (hread : ∀ t a, read t = .ok a → motive a) (h : optional s name default read = .ok a) :
    motive a := by
  unfold optional at h
  split at h
  · exact hread _ a h
  · cases h
    exact hdefault

lemma lt_of_optional {bits least n : Nat} (hleast : least < 2 ^ bits)
    (h : optional s name least (readNat bits) = .ok n) : n < 2 ^ bits :=
  of_optional (motive := (· < 2 ^ bits)) hleast (fun _ _ => readNat_lt) h

lemma bind_eq_ok {x : Except Fault α} {f : α → Except Fault β} {b : β} :
    x >>= f = .ok b ↔ ∃ a, x = .ok a ∧ f a = .ok b := by
  cases x with
  | error e => simp [bind, Except.bind]
  | ok a => simp [bind, Except.bind]

end Setting

open Setting

lemma fits_of_readTransfer {m : Manner} {t : Setting} {c : TransferConfig}
    (h : readTransfer m t = .ok c) :
    c.quotaBytes < 2 ^ 64 ∧ c.retryIntervalMs < 2 ^ 64 ∧ c.maxRetryIntervalMs < 2 ^ 64 := by
  unfold readTransfer at h
  simp only [bind_eq_ok] at h
  obtain ⟨s, -, quota, hquota, interval, hinterval, factor, -, limit, hlimit, attempts, -,
    compression, -, h⟩ := h
  cases h
  exact ⟨lt_of_optional (by decide) hquota, lt_of_optional (by decide) hinterval,
    lt_of_optional (by decide) hlimit⟩

lemma fits_of_readDetector {m : Manner} {t : Setting} {c : DetectorConfig}
    (h : readDetector m t = .ok c) : c.minTimeoutMs < 2 ^ 64 := by
  unfold readDetector at h
  simp only [bind_eq_ok] at h
  obtain ⟨s, -, timeout, -, probe, -, least, hleast, spread, -, h⟩ := h
  cases h
  exact lt_of_optional (by decide) hleast

/-- What is read has 64 bits. -/
theorem fits_of_ofSetting {m : Manner} {t : Setting} {c : Config} (h : ofSetting m t = .ok c) :
    c.Fits := by
  unfold ofSetting at h
  simp only [bind_eq_ok] at h
  obtain ⟨s, -, node, -, cluster, -, detector, hdetector, replication, -, transfer, htransfer,
    router, -, logging, -, h⟩ := h
  cases h
  obtain ⟨hquota, hinterval, hlimit⟩ := of_optional
    (motive := fun c : TransferConfig =>
      c.quotaBytes < 2 ^ 64 ∧ c.retryIntervalMs < 2 ^ 64 ∧ c.maxRetryIntervalMs < 2 ^ 64)
    (by decide) (fun _ _ => fits_of_readTransfer) htransfer
  have htimeout := of_optional (motive := fun c : DetectorConfig => c.minTimeoutMs < 2 ^ 64)
    (by decide) (fun _ _ => fits_of_readDetector) hdetector
  exact ⟨hquota, hinterval, hlimit, htimeout⟩

end Config

/-! ## Grants -/

namespace Mover

section

variable {m m' : Mover} {input : Input} {out : List Output} {src dst : NodeId} {id : SessionId}
  {quota : UInt64}

/-- The frames of a sender belong to a session of its own. -/
lemma frames_of_isOutbound (hm : m.Tidy) (h : m.handle input = .ok (m', out))
    (hinput : input.IsOutbound) : ∀ e ∈ envelopes out, e.message.outboundSession? ≠ none := by
  have hacts : ∀ {m₀ : Mover} {id : SessionId} {r : Mover × List Output}, ActsOn m₀ id r →
      ∀ e ∈ envelopes r.2, e.message.outboundSession? ≠ none := fun hacts e he hnone => by
    cases (hacts.frames e he).2.symm.trans hnone
  have hsilent : ∀ e ∈ envelopes [], e.message.outboundSession? ≠ none := fun e he => nomatch he
  cases input with
  | command c =>
    cases h
    cases c with
    | startSend destination range viewId => exact hacts (ActsOn.transmit _ rfl)
    | stopSend destination =>
      simp only
      split
      · exact hsilent
      · exact hsilent
    | stopAll => exact hsilent
  | retry id =>
    obtain ⟨r, hretry, rfl, rfl⟩ := handle_retry h
    exact hacts (ActsOn.onRetry (hm.inFlight id) hretry)
  | inbound src message =>
    cases h
    have hmessage := hinput src message rfl
    cases message with
    | initiateTransfer id metadata => cases hmessage
    | requestToSend id => cases hmessage
    | data id payload isFinal => cases hmessage
    | ack id => exact hacts (ActsOn.onAck m src id)
    | clearToSend id quota => exact hacts (ActsOn.onClearToSend m src id quota)
    | allReceived id => exact hacts (ActsOn.onAllReceived m src id)
    | _ => exact hsilent

lemma granted_of_request {from' : NodeId} {id' : SessionId}
    (h : .send ⟨src, dst, .clearToSend id quota⟩ ∈ (m.onRequestToSend from' id').2) :
    quota = UInt64.ofNat m.config.quotaBytes := by
  unfold onRequestToSend at h
  split at h
  · cases List.mem_singleton.1 h
    rfl
  · cases h

lemma not_granted_of_data {from' : NodeId} {id' : SessionId} (payload : Bytes) (isFinal : Bool) :
    .send ⟨src, dst, .clearToSend id quota⟩ ∉ (m.onData from' id' payload isFinal).2 := by
  unfold onData
  simp only
  split
  · simp [sendTo]
  · split
    · simp
    · split
      · simp
      · split
        · simp
        · split
          · simp [sendTo]
          · simp [sendTo]

/-- Every grant is of the configured size. -/
theorem granted_of_handle (hm : m.Tidy) (h : m.handle input = .ok (m', out))
    (hgrant : .send ⟨src, dst, .clearToSend id quota⟩ ∈ out) :
    quota = UInt64.ofNat m.config.quotaBytes := by
  have hframe : ⟨src, dst, .clearToSend id quota⟩ ∈ envelopes out :=
    List.mem_filterMap.2 ⟨_, hgrant, rfl⟩
  rcases handle_cases hm h with ⟨-, -, hinput, -⟩ | ⟨from', message, _, rfl, hid, -, rfl, -⟩
  · exact absurd rfl (frames_of_isOutbound hm h hinput _ hframe)
  · cases message with
    | initiateTransfer id' metadata => simp [onMessage, onInitiate, sendTo] at hgrant
    | requestToSend id' => exact granted_of_request hgrant
    | data id' payload isFinal => exact absurd hgrant (not_granted_of_data payload isFinal)
    | _ => cases hid

end

end Mover

/-! ## Safe settings -/

namespace TimedMover

open BlockCompression (Compressor)

/-- Every grant of a run is of the configured size. -/
lemma granted_of_run {w : TimedMover} {events : List Event} (node : NodeId)
    (tuning : TransferConfig) (store : Store) (ids : IdSource) (compressor : Compressor)
    (hrun : (start (.start node tuning store ids compressor)).run events = .ok w)
    {x : Mover.Moment}
    (hx : x ∈ w.past) {src dst : NodeId} {id : SessionId} {quota : UInt64}
    (hgrant : .send ⟨src, dst, .clearToSend id quota⟩ ∈ x.out) :
    quota = UInt64.ofNat tuning.quotaBytes := by
  have hgranted := foldlM_invariant
    (motive := fun w => w.Steady (· ∈ w.fired) node tuning ∧ ∀ x ∈ w.past, ∀ src dst id quota,
      .send ⟨src, dst, .clearToSend id quota⟩ ∈ x.out → quota = UInt64.ofNat tuning.quotaBytes)
    (fun w event w' hw hstep => ⟨hw.1.step hstep, fun x hx src dst id quota hgrant => ?_⟩)
    ⟨steady_start node tuning store ids compressor, fun x hx => by cases hx⟩ hrun
  · exact hgranted.2 x hx src dst id quota hgrant
  · cases event with
    | expires id' =>
      refine hw.2 x ?_ src dst id quota hgrant
      unfold TimedMover.step at hstep
      simp only at hstep
      split at hstep
      · cases hstep
        exact hx
      · cases hstep
        exact hx
    | happens happening =>
      obtain ⟨y, hy, rfl⟩ := happens_eq_ok hstep
      rcases List.mem_append.1 hx with hx | hx
      · exact hw.2 x hx src dst id quota hgrant
      · obtain rfl := List.mem_singleton.1 hx
        obtain ⟨-, -, ⟨input, -, hhandle⟩ | ⟨_, -, -, hout⟩⟩ := Mover.meet_cases hy
        · exact hw.1.tuned ▸ Mover.granted_of_handle hw.1.tidy hhandle hgrant
        · rw [hout] at hgrant
          cases hgrant

end TimedMover

namespace Config

/-- What the components of a replica need of its configuration, while no timeout is greater than a
bound. -/
structure Safe (c : Config) (bound : Duration) : Prop where
  /-- The detector goes from round to round, and the router reports again and again. -/
  chores : ∀ self placement store compressor draws first turns chore, ∃ period, period ≠ 0 ∧
    ((Replica.started self c placement store compressor draws first).run turns).Armed chore period
  /-- No retry stops a mover. -/
  retries : ∀ node store ids compressor events,
    (∀ e ∈ events, TimedMover.Event.Within bound e) →
      ∃ w, (TimedMover.start (.start node c.transfer store ids compressor)).run events = .ok w
  /-- Every grant has room. -/
  grants : ∀ node store ids compressor events w,
    (TimedMover.start (.start node c.transfer store ids compressor)).run events = .ok w →
      ∀ x ∈ w.past, ∀ src dst id quota,
        .send ⟨src, dst, .clearToSend id quota⟩ ∈ x.out → quota ≠ 0
  /-- A query is answered with a page that holds something, unless nothing is left. -/
  pages : 0 < c.replication.pageItems ∧ 0 < c.replication.pageBytes ∧
    ∀ (e : Engine) (range : KeyRange), e.config = c.replication →
      e.store.refused.contains .scan = false →
        ∃ items remaining, e.rangeQuery range none = .ok (.range items remaining) ∧
          e.store.PageOf range items remaining
  /-- An engine asks for a pruning at every full interval. -/
  prunes : 0 < c.replication.pruneInterval ∧ ∀ self store subscribers seat steps,
    let s := (Attachment.start (Engine.start self c.replication store) subscribers seat).run steps
    s.log.next < 2 ^ 64 → s.prunes.map UInt64.toNat =
      (List.range ((s.engine.next - 1) / c.replication.pruneInterval)).map
        fun k => c.replication.pruneInterval * (k + 1) + 1

section

variable {c : Config}

lemma ofMillis_ne_zero {ms : Nat} (h : ms ≠ 0) : Duration.ofMillis ms ≠ 0 :=
  Nat.mul_ne_zero h (by decide)

/-- Half of two milliseconds is left for a round. -/
lemma Accepted.period_ne_zero (h : c.Accepted) : c.detector.period ≠ 0 := by
  have hround : Duration.ofMillis 2 / 2 ≤ c.detector.period :=
    Nat.div_le_div_right (Nat.mul_le_mul_right _ h.detection)
  exact (Nat.lt_of_lt_of_le (by decide : 0 < Duration.ofMillis 2 / 2) hround).ne'

/-- Only with an interval do reports come. -/
lemma Safe.reports {bound : Duration} (h : c.Safe bound) : c.router.statsIntervalMs ≠ 0 := by
  intro hzero
  obtain ⟨period, -, harmed⟩ :=
    h.chores ⟨"a", 1, none⟩ (.ofList []) (.ofList []) .literal (fun _ => 0) none [] .report
  obtain ⟨hinterval, -⟩ :=
    (Replica.armed_report_iff _ (.ofList []) (.ofList []) .literal _ none period).1 harmed
  refine hinterval ?_
  unfold RouterConfig.statsInterval
  rw [hzero]
  rfl

/-- What an accepted configuration is safe in anyway. -/
lemma Accepted.safe (h : c.Accepted) (hfits : c.Fits) {bound : Duration}
    (hreports : c.router.statsIntervalMs ≠ 0)
    (hendures : c.transfer.Endures (max c.transfer.retryInterval bound)) : c.Safe bound where
  chores := fun self placement store compressor draws first turns chore => by
    cases chore with
    | round => exact ⟨_, h.period_ne_zero, (Replica.armed_round self placement store compressor
        draws first h.period_ne_zero).run turns⟩
    | report => exact ⟨_, ofMillis_ne_zero hreports, ((Replica.armed_report_iff self placement store
        compressor draws first _).2 ⟨ofMillis_ne_zero hreports, rfl⟩).run turns⟩
  retries := (TimedMover.exists_run_iff c.transfer bound h.growth).2 hendures
  grants := fun node store ids compressor events w hrun x hx src dst id quota hgrant hzero => by
    have hquota := TimedMover.granted_of_run node c.transfer store ids compressor hrun hx hgrant
    rw [hzero] at hquota
    have hnumber := congrArg UInt64.toNat hquota
    rw [UInt64.toNat_ofNat_of_lt' hfits.quota] at hnumber
    exact h.quota hnumber.symm
  pages := ⟨Nat.pos_of_ne_zero h.pageItems, Nat.pos_of_ne_zero h.pageBytes,
    fun e range hconfig hscan => e.rangeQuery_page hscan
      (hconfig ▸ Nat.pos_of_ne_zero h.pageItems) range⟩
  prunes := ⟨Nat.pos_of_ne_zero h.prune, fun self store subscribers seat steps hnext => by
    have hinterval := Nat.pos_of_ne_zero h.prune
    have hregular := (Attachment.regular_start self c.replication store hinterval subscribers
      seat).run hinterval steps hnext
    exact hregular.counted.asked_points hregular.told hnext⟩

end

/-- An accepted configuration is safe while no timeout is greater than a bound, exactly if reports
have an interval and the waits for such a timeout can grow as often as a frame may be sent again. If
this is any number of times, they can exactly if the longest wait can. A factor of up to 128 is
never too great, and with it no replica loses its mover. -/
theorem accepted_safe_iff (c : Config) (haccepted : c.validate = .ok ()) (hfits : c.Fits)
    (bound : Duration) :
    (c.Safe bound ↔ c.router.statsIntervalMs ≠ 0 ∧
        c.transfer.Endures (max c.transfer.retryInterval bound)) ∧
      (c.transfer.maxAttempts = 0 →
        (c.transfer.Endures (max c.transfer.retryInterval bound) ↔
          (Duration.scale? (c.transfer.longestWait (max c.transfer.retryInterval bound))
            c.transfer.backoffMultiplier).isSome = true)) ∧
      (c.transfer.backoffMultiplier ≤ 128.0 →
        (bound ≤ Duration.ofMillis (2 ^ 64) →
          c.transfer.Endures (max c.transfer.retryInterval bound)) ∧
        ∀ self placement store compressor draws first turns,
          ((Replica.started self c placement store compressor draws first).run turns).mover ≠
            none) := by
  have h := validate_eq_ok_iff.1 haccepted
  have hmillis : ∀ {ms : Nat}, ms < 2 ^ 64 → Duration.ofMillis ms ≤ Duration.ofMillis (2 ^ 64) :=
    fun hms => Nat.mul_le_mul_right _ hms.le
  refine ⟨⟨fun hsafe => ⟨hsafe.reports, ?_⟩, fun ⟨hreports, hendures⟩ =>
    h.safe hfits hreports hendures⟩, fun hunlimited => ?_, fun hfew => ⟨fun hbound => ?_,
    fun self placement store compressor draws first turns => ?_⟩⟩
  · exact (TimedMover.exists_run_iff c.transfer bound h.growth).1 hsafe.retries
  · exact TransferConfig.endures_iff h.growth (hmillis hfits.limit) hunlimited
  · exact TransferConfig.endures_of_le h.growth hfew (hmillis hfits.limit)
      (max_le (hmillis hfits.interval) hbound)
  · have hendures := TransferConfig.endures_of_le h.growth hfew (hmillis hfits.limit)
      (max_le (hmillis hfits.interval) le_rfl)
    exact Replica.mover_kept self c placement store compressor draws first (by decide)
      (hmillis hfits.timeout) h.growth hendures turns

namespace Settings

open TimedMover.SlowAnswers (a b config validate_config)

/-- Waits grow by some factor, and every other setting is at its default. -/
def withFactor (factor : Float) : Config :=
  { config with transfer := { backoffMultiplier := factor } }

def withoutReports : Config := { config with router := { statsIntervalMs := 0 } }

lemma accepted_withFactor {factor : Float} (h : ¬ factor < 1.0) :
    (withFactor factor).validate = .ok () :=
  validate_eq_ok_iff.2 { validate_eq_ok_iff.1 validate_config with growth := h }

lemma accepted_withoutReports : withoutReports.validate = .ok () :=
  validate_eq_ok_iff.2 { validate_eq_ok_iff.1 validate_config with }

lemma fits_withFactor (factor : Float) : (withFactor factor).Fits :=
  ⟨show ({} : TransferConfig).quotaBytes < 2 ^ 64 by decide,
    show ({} : TransferConfig).retryIntervalMs < 2 ^ 64 by decide,
    show ({} : TransferConfig).maxRetryIntervalMs < 2 ^ 64 by decide,
    show ({} : DetectorConfig).minTimeoutMs < 2 ^ 64 by decide⟩

/-- The handshake of a session is not acknowledged, and sent again. -/
def unanswered : List TimedMover.Event :=
  [.happens (.input (.command (.startSend b .full 1))), .expires 1, .happens (.input (.retry 1))]

lemma unanswered_within (bound : Duration) :
    ∀ e ∈ unanswered, TimedMover.Event.Within bound e := by
  simp [unanswered, TimedMover.Event.Within]

def retried (c : Config) : Except Mover.Crash TimedMover :=
  (TimedMover.start (.start a c.transfer (.ofList []) ⟨0, 0⟩)).run unanswered

lemma not_safe_of_retried {c : Config} {crash : Mover.Crash} (h : retried c = .error crash)
    (bound : Duration) : ¬ c.Safe bound := fun hsafe => by
  obtain ⟨w, hrun⟩ :=
    hsafe.retries a (.ofList []) ⟨0, 0⟩ .literal unanswered (unanswered_within bound)
  cases h.symm.trans hrun

/-- There is one way in which a run can fail. -/
lemma retried_of_isOk {c : Config} (h : (retried c).isOk = false) :
    retried c = .error .backoffOverflow := by
  cases hrun : retried c with
  | error crash => cases crash with
    | backoffOverflow => rfl
  | ok _ => rw [hrun] at h; cases h

end Settings

open Settings in
/-- A wait of twenty seconds can grow even by a factor of a billion. -/
theorem accepted_safe_steep :
    (withFactor 1e9).validate = .ok () ∧ (withFactor 1e9).Fits ∧
      (withFactor 1e9).Safe (Duration.ofMillis 20000) := by
  have haccepted := accepted_withFactor (by decide +kernel : ¬ (1e9 : Float) < 1.0)
  obtain ⟨hiff, hunlimited, -⟩ := accepted_safe_iff (withFactor 1e9) haccepted
    (fits_withFactor 1e9) (Duration.ofMillis 20000)
  refine ⟨haccepted, fits_withFactor 1e9, hiff.2 ⟨by decide, (hunlimited rfl).2 ?_⟩⟩
  decide +kernel

open Settings in
/-- Without an interval for reports, and with a factor that is too great or no number, an accepted
configuration is not safe. -/
theorem accepted_unsafe :
    (withoutReports.validate = .ok () ∧ ¬ withoutReports.Safe 0) ∧
      ∀ factor ∈ [(1e300 : Float), 0.0 / 0.0], (withFactor factor).validate = .ok () ∧
        retried (withFactor factor) = .error .backoffOverflow ∧ ¬ (withFactor factor).Safe 0 := by
  refine ⟨⟨accepted_withoutReports, fun hsafe => hsafe.reports rfl⟩, fun factor hfactor => ?_⟩
  obtain ⟨haccepted, hfails⟩ :
      ¬ factor < 1.0 ∧ (retried (withFactor factor)).isOk = false := by
    rcases List.mem_pair.1 hfactor with rfl | rfl
    · exact ⟨by decide +kernel, by decide +kernel⟩
    · exact ⟨by decide +kernel, by decide +kernel⟩
  have hcrash := retried_of_isOk hfails
  exact ⟨accepted_withFactor haccepted, hcrash, not_safe_of_retried hcrash 0⟩

end Config

end ReplicaRing
