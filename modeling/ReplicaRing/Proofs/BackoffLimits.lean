import ReplicaRing.Proofs.RetryWaits

/-!
How far the waits of a session can grow. A wait grows as long as the product with the factor is one
that a span can hold, and otherwise the mover stops for good. Waits grow and are cut to the limit,
so they go on growing for ever exactly if the longest wait that they can come to can grow,
`TransferConfig.isSome_longestWait_iff`; if the number of attempts is limited, fewer steps are
enough. A factor of up to 128 is always small enough, `TransferConfig.endures_of_le`. In a run
nothing else stops a mover, `TimedMover.exists_run_iff`.
-/

namespace ReplicaRing

/-! ## Waits that grow for ever -/

namespace TransferConfig

/-- The wait after so many retries, if every wait before it can grow. -/
def waitAfter (c : TransferConfig) : Nat → Duration → Option Duration
  | 0, wait => some wait
  | n + 1, wait => (Duration.scale? wait c.backoffMultiplier).bind fun grown =>
    c.waitAfter n (min grown c.maxRetryInterval)

/-- As often as a frame may be sent again, its wait can grow. -/
def Endures (c : TransferConfig) (wait : Duration) : Prop :=
  ∀ n, c.maxAttempts = 0 ∨ n < c.maxAttempts → (c.waitAfter n wait).isSome = true

/-- The longest wait that a first wait can come to. -/
def longestWait (c : TransferConfig) (wait : Duration) : Duration :=
  if wait = 0 then 0 else max wait c.maxRetryInterval

section

variable {c : TransferConfig} {wait wait' longest : Duration} {n : Nat}

lemma isSome_waitAfter_succ : (c.waitAfter (n + 1) wait).isSome = true ↔
    ∃ grown, Duration.scale? wait c.backoffMultiplier = some grown ∧
      (c.waitAfter n (min grown c.maxRetryInterval)).isSome = true := by
  show ((Duration.scale? wait c.backoffMultiplier).bind _).isSome = true ↔ _
  cases Duration.scale? wait c.backoffMultiplier with
  | none => simp
  | some grown => simp

/-- The wait after one more retry. -/
lemma waitAfter_succ {next : Duration} (h : c.waitAfter n wait = some wait')
    (hnext : c.NextWait wait' next) : c.waitAfter (n + 1) wait = some next := by
  induction n generalizing wait with
  | zero =>
    obtain rfl := Option.some_inj.1 h
    obtain ⟨grown, hgrown, rfl⟩ := hnext
    show (Duration.scale? wait c.backoffMultiplier).bind _ = _
    rw [hgrown]
    rfl
  | succ n ih =>
    replace h : (Duration.scale? wait c.backoffMultiplier).bind _ = _ := h
    show (Duration.scale? wait c.backoffMultiplier).bind _ = _
    cases hgrown : Duration.scale? wait c.backoffMultiplier with
    | none =>
      rw [hgrown] at h
      cases h
    | some grown =>
      rw [hgrown] at h
      exact ih h

/-- A wait that one more retry can follow can grow. -/
lemma isSome_scale?_of_waitAfter (h : c.waitAfter n wait = some wait')
    (hnext : (c.waitAfter (n + 1) wait).isSome = true) :
    (Duration.scale? wait' c.backoffMultiplier).isSome = true := by
  induction n generalizing wait with
  | zero =>
    obtain rfl := Option.some_inj.1 h
    obtain ⟨grown, hgrown, -⟩ := isSome_waitAfter_succ.1 hnext
    rw [hgrown]
    rfl
  | succ n ih =>
    obtain ⟨grown, hgrown, hrest⟩ := isSome_waitAfter_succ.1 hnext
    replace h : (Duration.scale? wait c.backoffMultiplier).bind _ = _ := h
    rw [hgrown] at h
    exact ih h hrest

/-- If a wait can grow for some retries, so can a shorter one. -/
lemma isSome_waitAfter_mono (hfactor : ¬ c.backoffMultiplier < 1.0) (hle : wait ≤ wait')
    (h : (c.waitAfter n wait').isSome = true) : (c.waitAfter n wait).isSome = true := by
  induction n generalizing wait wait' with
  | zero => rfl
  | succ n ih =>
    obtain ⟨grown', hgrown', hrest⟩ := isSome_waitAfter_succ.1 h
    obtain ⟨grown, hgrown⟩ := Option.isSome_iff_exists.1
      (Duration.isSome_scale?_mono hfactor hle (hgrown' ▸ rfl))
    have hnext := Duration.scale?_mono hfactor hle hgrown hgrown'
    exact isSome_waitAfter_succ.2 ⟨grown, hgrown, ih (min_le_min_right _ hnext) hrest⟩

lemma Endures.mono (hfactor : ¬ c.backoffMultiplier < 1.0) (h : c.Endures wait')
    (hle : wait ≤ wait') : c.Endures wait :=
  fun n hn => isSome_waitAfter_mono hfactor hle (h n hn)

/-- Waits go on growing below one that can grow, if the limit is below that, or they are nothing. -/
lemma isSome_waitAfter_of_le (hfactor : ¬ c.backoffMultiplier < 1.0)
    (hlongest : (Duration.scale? longest c.backoffMultiplier).isSome = true)
    (hle : wait ≤ longest) (hlimit : wait = 0 ∨ c.maxRetryInterval ≤ longest) :
    (c.waitAfter n wait).isSome = true := by
  induction n generalizing wait with
  | zero => rfl
  | succ n ih =>
    obtain ⟨grown, hgrown⟩ := Option.isSome_iff_exists.1
      (Duration.isSome_scale?_mono hfactor hle hlongest)
    refine isSome_waitAfter_succ.2 ⟨grown, hgrown, ?_⟩
    rcases hlimit with rfl | hlimit
    · obtain rfl := Duration.scale?_zero hfactor hgrown
      exact ih ((min_le_left _ _).trans hle) (.inl (Nat.zero_min _))
    · exact ih ((min_le_right _ _).trans hlimit) (.inr hlimit)

/-- A wait that doubles comes closer to a limit that it has not reached. -/
lemma closer_of_doubled {wait grown limit n : ℕ} (hdouble : 2 * wait ≤ grown) (hpos : 0 < wait)
    (hbelow : wait < limit) (hreach : limit ≤ wait + (n + 1)) :
    0 < min grown limit ∧ limit ≤ min grown limit + n := by
  omega

/-- If waits that at least double come up to the limit, this can grow. -/
lemma isSome_scale?_limit (hfactor : ¬ c.backoffMultiplier < 1.0)
    (hdoubles : ∀ d n, Duration.scale? d c.backoffMultiplier = some n → 2 * d ≤ n)
    (hpos : 0 < wait) (hreach : c.maxRetryInterval ≤ wait + n)
    (h : (c.waitAfter (n + 1) wait).isSome = true) :
    (Duration.scale? c.maxRetryInterval c.backoffMultiplier).isSome = true := by
  induction n generalizing wait with
  | zero =>
    obtain ⟨grown, hgrown, -⟩ := isSome_waitAfter_succ.1 h
    exact Duration.isSome_scale?_mono hfactor hreach (hgrown ▸ rfl)
  | succ n ih =>
    obtain ⟨grown, hgrown, hrest⟩ := isSome_waitAfter_succ.1 h
    by_cases hbelow : c.maxRetryInterval ≤ wait
    · exact Duration.isSome_scale?_mono hfactor hbelow (hgrown ▸ rfl)
    · obtain ⟨hpos', hreach'⟩ :=
        closer_of_doubled (hdoubles wait grown hgrown) hpos (not_le.1 hbelow) hreach
      exact ih hpos' hreach' hrest

/-- A wait can grow for ever exactly if the longest one that it can come to can grow. -/
theorem isSome_longestWait_iff (hfactor : ¬ c.backoffMultiplier < 1.0)
    (hlimit : c.maxRetryInterval ≤ Duration.ofMillis (2 ^ 64)) :
    (Duration.scale? (c.longestWait wait) c.backoffMultiplier).isSome = true ↔
      ∀ n, (c.waitAfter n wait).isSome = true := by
  unfold longestWait
  constructor
  · intro hlongest n
    split at hlongest
    · rename_i hzero
      exact isSome_waitAfter_of_le hfactor hlongest hzero.le (.inl hzero)
    · exact isSome_waitAfter_of_le hfactor hlongest (le_max_left _ _) (.inr (le_max_right _ _))
  · intro h
    obtain ⟨first, hfirst, -⟩ := isSome_waitAfter_succ.1 (h 1)
    split
    · rename_i hzero
      rw [← hzero, hfirst]
      rfl
    · rename_i hpos
      rcases max_choice wait c.maxRetryInterval with hmax | hmax
      · rw [hmax, hfirst]
        rfl
      · rw [hmax]
        obtain ⟨-, -, -, factor, -, -, hread, hone, -⟩ := Duration.scale?_cases hfactor hfirst
        -- a factor is so small that the limit cannot be too great for it, or waits come up to it
        rcases le_total factor (2 ^ 7) with hsmall | hsteep
        · exact Duration.isSome_scale?_of_le hread hone hsmall hlimit
        · have hdoubles := fun d n (hn : Duration.scale? d c.backoffMultiplier = some n) =>
            Duration.two_mul_le_scale? hread ((by norm_num : (2 : ℚ) ^ 4 ≤ 2 ^ 7).trans hsteep)
              hfactor hn
          exact isSome_scale?_limit hfactor hdoubles (Nat.pos_of_ne_zero hpos)
            (Nat.le_add_left _ _) (h _)

/-- If a frame may be sent any number of times, its wait has to grow for ever. -/
theorem endures_iff (hfactor : ¬ c.backoffMultiplier < 1.0)
    (hlimit : c.maxRetryInterval ≤ Duration.ofMillis (2 ^ 64)) (hunlimited : c.maxAttempts = 0) :
    c.Endures wait ↔
      (Duration.scale? (c.longestWait wait) c.backoffMultiplier).isSome = true := by
  rw [isSome_longestWait_iff hfactor hlimit]
  exact ⟨fun h n => h n (.inl hunlimited), fun h n _ => h n⟩

lemma reads_128 : Binary64.Reads (128.0 : Float).toModel.unpack (2 ^ 7) := by
  have hf : Binary64.Canonical (.finite .positive (2 ^ 52) (-45) (by decide)) :=
    .finite _ _ _ _ (by decide) (by decide) (by decide) (.inr (by decide))
  have hvalue : ((2 ^ 52 : ℕ) : ℚ) * 2 ^ (-45 : ℤ) = 2 ^ 7 := by norm_num
  exact hvalue ▸ .finite _ hf

/-- With a factor of up to 128, waits of up to 2^64 milliseconds grow for ever. -/
theorem endures_of_le (hfactor : ¬ c.backoffMultiplier < 1.0) (hfew : c.backoffMultiplier ≤ 128.0)
    (hlimit : c.maxRetryInterval ≤ Duration.ofMillis (2 ^ 64))
    (hwait : wait ≤ Duration.ofMillis (2 ^ 64)) : c.Endures wait := by
  obtain ⟨factor, hread, hone, hsmall⟩ := Binary64.exists_reads_of_le hfactor hfew reads_128
  have hlongest := Duration.isSome_scale?_of_le hread hone hsmall le_rfl
  exact fun n _ => isSome_waitAfter_of_le hfactor hlongest hwait (.inr hlimit)

end

end TransferConfig

/-! ## Retries -/

namespace Mover

/-- No timeout that a mover knows is greater than a bound, and every open session has waited as a
first wait for such a timeout makes it. -/
structure Paced (m : Mover) (tuning : TransferConfig) (bound : Duration) : Prop where
  tidy : m.Tidy
  tuned : m.config = tuning
  timeouts : ∀ n timeout, m.timeouts.get? n = some timeout → timeout ≤ bound
  active : ∀ id s, m.outbound.get? id = some s → s.stopped = false
  waited : ∀ id s, m.outbound.get? id = some s → ∃ base n,
    base ≤ max tuning.retryInterval bound ∧ s.attempts = n + 1 ∧
      tuning.waitAfter n base = some s.retryInterval

section

variable {m m' : Mover} {tuning : TransferConfig} {bound : Duration} {id : SessionId}
  {input : Input} {out : List Output}

lemma paced_start (self : NodeId) (tuning : TransferConfig) (store : Store) (ids : IdSource)
    (c : BlockCompression.Compressor) (bound : Duration) :
    (start self tuning store ids c).Paced tuning bound := by
  have hnone := start_outbound self tuning store ids c
  refine ⟨tidy_start self tuning store ids c, rfl, fun n timeout htimeout => ?_, fun id s hs => ?_,
    fun id s hs => ?_⟩
  · cases (SortedMap.get?_empty n).symm.trans htimeout
  · cases (hnone id).symm.trans hs
  · cases (hnone id).symm.trans hs

lemma Paced.baseInterval_le (h : m.Paced tuning bound) (n : NodeId) :
    m.baseInterval n ≤ max tuning.retryInterval bound := by
  unfold baseInterval
  rw [h.tuned]
  split
  · rename_i timeout htimeout
    exact max_le_max_left _ (h.timeouts n timeout htimeout)
  · exact le_max_left _ _

lemma Paced.amid (h : m.Paced tuning bound) {w : Surroundings}
    (hw : ∀ n timeout, w.timeouts.get? n = some timeout → timeout ≤ bound) :
    (m.amid w).Paced tuning bound :=
  ⟨h.tidy.amid w, h.tuned, hw, h.active, h.waited⟩

lemma Paced.with_timers (h : m.Paced tuning bound) (timers : Timers SessionId SessionId) :
    ({ m with timers } : Mover).Paced tuning bound :=
  ⟨⟨h.tidy.teardown, h.tidy.inFlight⟩, h.tuned, h.timeouts, h.active, h.waited⟩

/-- A session whose timer is handled waits for one step more, or as it did. -/
lemma Paced.waited_retry (h : m.Paced tuning bound)
    (hhandle : m.handle (.retry id) = .ok (m', out)) {s' : SenderSession}
    (hs' : m'.outbound.get? id = some s') : ∃ base n, base ≤ max tuning.retryInterval bound ∧
      s'.attempts = n + 1 ∧ tuning.waitAfter n base = some s'.retryInterval := by
  obtain ⟨r, hretry, rfl, rfl⟩ := handle_retry hhandle
  rcases onRetry_cases hretry with
    ⟨-, rfl⟩ | ⟨s, message, hget, -, hs, ⟨-, rfl⟩ | ⟨-, interval, hnext, rfl⟩⟩
  · rw [finishTeardown_get?_of_nil h.tidy.teardown] at hs'
    exact h.waited id s' hs'
  · unfold fail at hs'
    rw [hget] at hs'
    cases (stop_get?_self hget hs).symm.trans hs'
  · obtain ⟨base, n, hbase, hattempts, hwait⟩ := h.waited id s hget
    obtain rfl := Option.some_inj.1 ((armed_get? h.tidy.teardown id _ _).symm.trans hs')
    refine ⟨base, n + 1, hbase, congrArg (· + 1) hattempts, ?_⟩
    exact TransferConfig.waitAfter_succ hwait (h.tuned ▸ hnext)

lemma Paced.handle (h : m.Paced tuning bound) (hhandle : m.handle input = .ok (m', out)) :
    m'.Paced tuning bound := by
  obtain ⟨-, hconfig, -, htimeouts⟩ := handle_rest h.tidy hhandle
  refine ⟨tidy_of_handle h.tidy hhandle, hconfig.trans h.tuned, htimeouts ▸ h.timeouts,
    fun id s => (sessionTurn_of_handle h.tidy hhandle id).active (h.active id), fun id s hs => ?_⟩
  by_cases hretry : input = .retry id
  · subst hretry
    exact h.waited_retry hhandle hs
  · -- a session that is not sent again has sent a first frame, or has gone on waiting
    rcases timely_of_handle h.tidy h.active hhandle hretry s hs with
      ⟨-, -, hsent⟩ | ⟨-, hsilent, -⟩
    · refine ⟨m.baseInterval s.destination, 0, h.baseInterval_le _, hsent.once, ?_⟩
      exact congrArg some hsent.wait.symm
    · have hturn := sessionTurn_of_handle h.tidy hhandle id
      rw [hsilent, hs] at hturn
      obtain ⟨s₀, hget, -, hattempts, hinterval⟩ := hturn.of_silent
      rw [hattempts, hinterval]
      exact h.waited id s₀ hget

/-- A retransmission timer is handled if the session may not send its frame again, or can wait
longer. -/
lemma exists_onRetry (h : ∀ s, m.outbound.get? id = some s →
    m.config.maxAttempts = 0 ∨ s.attempts < m.config.maxAttempts →
      (Duration.scale? s.retryInterval m.config.backoffMultiplier).isSome = true) :
    ∃ r, m.onRetry id = .ok r := by
  unfold onRetry
  split
  · exact ⟨_, rfl⟩
  · rename_i s hget
    split
    · exact ⟨_, rfl⟩
    · split
      · exact ⟨_, rfl⟩
      · split
        · exact ⟨_, rfl⟩
        · rename_i hleft
          simp only [Bool.and_eq_true, decide_eq_true_eq] at hleft
          obtain ⟨grown, hgrown⟩ := Option.isSome_iff_exists.1 (h s hget (by omega))
          rw [hgrown]
          exact ⟨_, rfl⟩

/-- If every wait can grow as often as a frame may be sent again, nothing stops a mover. -/
lemma Paced.exists_handle (h : m.Paced tuning bound) (hfactor : ¬ tuning.backoffMultiplier < 1.0)
    (hendures : tuning.Endures (max tuning.retryInterval bound)) (input : Input) :
    ∃ r, m.handle input = .ok r := by
  cases input with
  | command c => exact ⟨_, rfl⟩
  | inbound src message => exact ⟨_, rfl⟩
  | retry id =>
    obtain ⟨r, hr⟩ : ∃ r, m.onRetry id = .ok r := by
      refine exists_onRetry fun s hs hleft => ?_
      rw [h.tuned] at hleft ⊢
      obtain ⟨base, n, hbase, hattempts, hwait⟩ := h.waited id s hs
      rw [hattempts] at hleft
      exact TransferConfig.isSome_scale?_of_waitAfter hwait
        (hendures.mono hfactor hbase (n + 1) hleft)
    unfold Mover.handle
    simp only [hr]
    exact ⟨_, rfl⟩

/-- A session that is opened waits as long as its destination is to be waited for. -/
lemma opened_of_meet {x : Moment} {n : NodeId} {range : KeyRange} {viewId : UInt64} (hm : m.Tidy)
    (hactive : ∀ id s, m.outbound.get? id = some s → s.stopped = false)
    (hx : m.meet (.input (.command (.startSend n range viewId))) = .ok x) :
    ∃ s, x.after.outbound.get? m.ids.next.1 = some s ∧ s.attempts = 1 ∧
      s.retryInterval = m.baseInterval n := by
  obtain ⟨hbefore, hhappening, -⟩ := meet_cases hx
  have hopening : x.opening? m.ids.next.1 = some (n, ⟨range, viewId, m.config.compression⟩) := by
    unfold Moment.opening? Mover.opening?
    rw [hhappening, hbefore]
    exact if_pos rfl
  have hturn := sessionTurn_of_meet hm hx m.ids.next.1
  rw [hopening] at hturn
  obtain ⟨hframes, -, interval, hs⟩ := hturn.of_opening
  rcases timely_of_meet hm hactive hx (fun heq => nomatch heq) _ hs with
    ⟨-, -, hsent⟩ | ⟨-, hsilent, -⟩
  · exact ⟨_, hs, hsent.once, hsent.wait⟩
  · cases hframes.symm.trans hsilent

end

end Mover

/-! ## Retries in a run -/

namespace TimedMover

/-- The timeouts that an event brings are not greater than a bound. -/
def Event.Within (bound : Duration) : Event → Prop
  | .happens (.amid w) => ∀ n timeout, w.timeouts.get? n = some timeout → timeout ≤ bound
  | .happens (.input _) | .expires _ => True

section

variable {w w' : TimedMover} {node : NodeId} {tuning : TransferConfig} {bound : Duration}
  {id : SessionId} {s : SenderSession} {event : Event} {events : List Event} {n : Nat}

lemma exists_step_of_endures (hfactor : ¬ tuning.backoffMultiplier < 1.0)
    (hendures : tuning.Endures (max tuning.retryInterval bound))
    (hpaced : w.mover.Paced tuning bound) (hevent : event.Within bound) :
    ∃ w', w.step event = .ok w' ∧ w'.mover.Paced tuning bound := by
  cases event with
  | expires id =>
    unfold TimedMover.step
    simp only
    split
    · exact ⟨_, rfl, hpaced⟩
    · exact ⟨_, rfl, hpaced.with_timers _⟩
  | happens happening =>
    cases happening with
    | amid around => exact ⟨_, rfl, hpaced.amid hevent⟩
    | input input =>
      obtain ⟨⟨m', out⟩, hhandle⟩ := hpaced.exists_handle hfactor hendures input
      unfold TimedMover.step Mover.meet
      simp only [hhandle]
      exact ⟨_, rfl, hpaced.handle hhandle⟩

lemma exists_run_of_endures (hfactor : ¬ tuning.backoffMultiplier < 1.0)
    (hendures : tuning.Endures (max tuning.retryInterval bound))
    (hpaced : w.mover.Paced tuning bound) (hevents : ∀ e ∈ events, e.Within bound) :
    ∃ w', w.run events = .ok w' := by
  induction events generalizing w with
  | nil => exact ⟨w, rfl⟩
  | cons event events ih =>
    obtain ⟨hevent, hevents⟩ := List.forall_mem_cons.1 hevents
    obtain ⟨w₁, hstep, hpaced₁⟩ := exists_step_of_endures hfactor hendures hpaced hevent
    obtain ⟨w', hrun⟩ := ih hpaced₁ hevents
    refine ⟨w', ?_⟩
    unfold run at hrun ⊢
    rw [List.foldlM_cons, hstep]
    exact hrun

/-- If the timer of a session can be handled so many times, its wait can grow as often. -/
lemma isSome_waitAfter_of_run (hsteady : w.Steady (· ∈ w.fired) node tuning)
    (hs : w.mover.outbound.get? id = some s)
    (hleft : tuning.maxAttempts = 0 ∨ s.attempts + n ≤ tuning.maxAttempts)
    (hrun : w.run (List.replicate n (.happens (.input (.retry id)))) = .ok w') :
    (tuning.waitAfter n s.retryInterval).isSome = true := by
  induction n generalizing w s with
  | zero => rfl
  | succ n ih =>
    obtain ⟨w₁, hstep, hrest⟩ := run_cons hrun
    obtain ⟨x, hx, rfl⟩ := happens_eq_ok hstep
    have halive := hsteady.alive id s hs
    obtain ⟨message, ⟨hflight, -⟩, -⟩ := halive.outstanding
    obtain ⟨hhandle, -, -⟩ := Mover.retry_of_meet (s := s) hsteady.tidy hx rfl
    rcases Mover.handle_retry_cases hsteady.tidy hs hflight halive.active hhandle with
      ⟨hlimit, -⟩ | ⟨-, -, interval, ⟨grown, hgrown, rfl⟩, -, hget⟩
    · rw [hsteady.tuned] at hlimit
      omega
    · rw [hsteady.tuned] at hgrown hget
      refine TransferConfig.isSome_waitAfter_succ.2 ⟨grown, hgrown, ?_⟩
      refine ih (hsteady.step hstep) hget (hleft.imp_right fun hle => ?_) hrest
      show s.attempts + 1 + n ≤ tuning.maxAttempts
      omega

/-- The timeout of a destination is learned, and then a session to it is opened. -/
def opened (n : NodeId) (timeout : Duration) : List Event :=
  [.happens (.amid ⟨.ofList [], ⟨0, 0⟩, .ofList [(n, timeout)], 0⟩),
    .happens (.input (.command (.startSend n .full 1)))]

lemma get?_single (n n' : NodeId) (timeout : Duration) :
    (SortedMap.ofList [(n, timeout)]).get? n' = if n' = n then some timeout else none :=
  SortedMap.get?_insert ∅ n n' timeout

lemma opened_within (n : NodeId) (bound : Duration) : ∀ e ∈ opened n bound, e.Within bound := by
  intro e he
  rcases List.mem_cons.1 he with rfl | he
  · intro n' timeout htimeout
    rw [get?_single] at htimeout
    split at htimeout
    · exact (Option.some_inj.1 htimeout).ge
    · cases htimeout
  · rw [List.mem_singleton.1 he]
    trivial

lemma exists_opened {n : NodeId} (hsteady : w.Steady (· ∈ w.fired) node tuning)
    (hrun : w.run (opened n bound) = .ok w') :
    ∃ id s, w'.mover.outbound.get? id = some s ∧ s.attempts = 1 ∧
      s.retryInterval = max tuning.retryInterval bound := by
  obtain ⟨w₁, hfirst, hrest⟩ := run_cons hrun
  obtain ⟨w₂, hsecond, hrest⟩ := run_cons hrest
  cases hrest
  have hsteady₁ := hsteady.step hfirst
  obtain ⟨y, hy, rfl⟩ := happens_eq_ok hsecond
  obtain ⟨s, hs, honce, hwait⟩ := Mover.opened_of_meet hsteady₁.tidy
    (fun id s hs => (hsteady₁.alive id s hs).active) hy
  refine ⟨_, s, hs, honce, hwait.trans ?_⟩
  unfold Mover.baseInterval
  rw [hsteady₁.tuned]
  have hlearned : w₁.mover.timeouts.get? n = some bound := by
    cases hfirst
    exact (get?_single n n bound).trans (if_pos rfl)
  rw [hlearned]

end

/-- Whatever a mover handles while no timeout is greater than a bound, nothing stops it, exactly if
the first wait for a destination with that timeout can grow as often as a frame may be sent
again. -/
theorem exists_run_iff (tuning : TransferConfig) (bound : Duration)
    (hfactor : ¬ tuning.backoffMultiplier < 1.0) :
    (∀ node store ids compressor events, (∀ e ∈ events, Event.Within bound e) →
        ∃ w, (start (.start node tuning store ids compressor)).run events = .ok w) ↔
      tuning.Endures (max tuning.retryInterval bound) := by
  constructor
  · intro h n hn
    have hstart : (start (.start SlowAnswers.a tuning (.ofList []) ⟨0, 0⟩)).Steady (· ∈ [])
        SlowAnswers.a tuning := steady_start ..
    obtain ⟨w, hopened⟩ :=
      h SlowAnswers.a (.ofList []) ⟨0, 0⟩ .literal _ (opened_within SlowAnswers.b bound)
    obtain ⟨id, s, hs, honce, hwait⟩ := exists_opened hstart hopened
    have hwithin : ∀ e ∈ opened SlowAnswers.b bound ++
        List.replicate n (.happens (.input (.retry id))), Event.Within bound e := fun e he => by
      rcases List.mem_append.1 he with he | he
      · exact opened_within SlowAnswers.b bound e he
      · rw [List.eq_of_mem_replicate he]
        trivial
    obtain ⟨w', hrun⟩ := h SlowAnswers.a (.ofList []) ⟨0, 0⟩ .literal _ hwithin
    have hrest : w.run (List.replicate n (.happens (.input (.retry id)))) = .ok w' := by
      unfold run at hrun hopened ⊢
      rw [List.foldlM_append, hopened] at hrun
      exact hrun
    rw [← hwait]
    refine isSome_waitAfter_of_run (hstart.run hopened) hs ?_ hrest
    rw [honce]
    omega
  · intro hendures node store ids compressor events hevents
    exact exists_run_of_endures hfactor hendures
      (Mover.paced_start node tuning store ids compressor bound) hevents

end TimedMover

end ReplicaRing
