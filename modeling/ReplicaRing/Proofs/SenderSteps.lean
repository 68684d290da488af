import ReplicaRing.Proofs.SenderSessions

/-!
What one input does to a mover. Whatever it is, each outbound session either stays as it is, keeps
a grant for later, sends its frame again, asks for a grant, sends its next page, is opened or is
gone, and the frames that leave under its number, and what is told of it, are those of that case
alone. `Mover.sessionTurn_of_handle` says so for every input, `Mover.settled_of_handle` that the
sessions and the index by destination stay inverse to each other; nothing else about the sender has
to be read off the protocol's code again.
-/

namespace ReplicaRing

/-- The wait after a wait for an answer that did not come: longer by the factor, up to a limit. -/
def TransferConfig.NextWait (c : TransferConfig) (wait next : Duration) : Prop :=
  ∃ grown, Duration.scale? wait c.backoffMultiplier = some grown ∧
    next = min grown c.maxRetryInterval

namespace Mover

open BlockCompression (Compressor)

/-! ## Steps of one session -/

section

variable {m : Mover} {id : SessionId} {s : SenderSession}

lemma framesOf_sendTo (m : Mover) {id : SessionId} (dst : NodeId) {message : Message}
    (hm : message.outboundSession? = some id) :
    framesOf id [m.sendTo dst message] = [⟨m.self, dst, message⟩] := by
  simp [framesOf, envelopes, sendTo, hm]

lemma finishTeardown_get?_of_nil (ht : m.teardown = []) (id : SessionId) :
    m.finishTeardown.outbound.get? id = m.outbound.get? id := by
  rw [finishTeardown_get?, ht]
  exact if_neg (by simp)

lemma finishTeardown_of_nil (ht : m.teardown = []) : m.finishTeardown = m := by
  unfold finishTeardown
  rw [ht]
  show { m with teardown := [] } = m
  rw [← ht]

lemma armed_get? (ht : m.teardown = []) (id : SessionId) (s : SenderSession)
    (timers : Timers SessionId SessionId) :
    ({ m.setSession id s with timers } : Mover).finishTeardown.outbound.get? id = some s := by
  rw [finishTeardown_get?_of_nil (m := { m.setSession id s with timers }) ht]
  exact (setSession_get? m id id s).trans (if_pos rfl)

lemma transmit_get? (ht : m.teardown = []) (h : m.outbound.get? id = some s) (message : Message) :
    (m.transmit id message).1.finishTeardown.outbound.get? id =
      some { s with
        inFlight := some message
        attempts := 1
        retryInterval := m.baseInterval s.destination } := by
  unfold transmit
  rw [h]
  exact armed_get? ht id _ _

lemma transmit_frames (h : m.outbound.get? id = some s) {message : Message}
    (hm : message.outboundSession? = some id) :
    framesOf id (m.transmit id message).2 = [⟨m.self, s.destination, message⟩] := by
  unfold transmit
  rw [h]
  exact framesOf_sendTo m s.destination hm

lemma toldOf_sendTo (m : Mover) (id : SessionId) (dst : NodeId) (message : Message) :
    toldOf id [m.sendTo dst message] = [] := rfl

lemma toldOf_event {id : SessionId} {e : MoverEvent} (he : e.outboundSession? = some id) :
    toldOf id [.event e] = [e] := by
  show [e].filter (fun e => e.outboundSession? == some id) = [e]
  exact List.filter_cons_of_pos (by simp [he])

lemma transmit_told (m : Mover) (id : SessionId) (message : Message) :
    toldOf id (m.transmit id message).2 = [] := by
  unfold transmit
  split
  · rfl
  · rfl

/-- A session that fails is dropped, and its failure is told. -/
lemma fail_turn {s' : SenderSession} (h : m.outbound.get? id = some s) (hs : s.stopped = false)
    (hs' : s.destination = s'.destination) (granted : Option UInt64) (reason : String) :
    SessionTurn m.compressor m.store m.self id none granted (some s')
      (framesOf id (m.fail id reason).2) (toldOf id (m.fail id reason).2)
      ((m.fail id reason).1.finishTeardown.outbound.get? id) := by
  have hfail : m.fail id reason = (m.stop id, [.event (.sendFailed id s.destination reason)]) := by
    unfold fail
    rw [h]
  rw [hfail, stop_get?_self h hs, toldOf_event rfl, hs']
  exact .failed s' granted reason

/-- Serving a grant sends the next page, whatever became of the state, the frame in flight and the
grants before. -/
lemma serve_turn {state : SenderState} {inFlight : Option Message} {grants : List UInt64}
    {granted : Option UInt64} {quota : UInt64}
    (ht : m.teardown = []) (h : m.outbound.get? id = some { s with state, inFlight, grants })
    (hs : s.stopped = false) (hmay : s.MaySend) (hserves : s.Serves granted quota grants) :
    SessionTurn m.compressor m.store m.self id none granted (some s)
      (framesOf id (m.serve id quota).2) (toldOf id (m.serve id quota).2)
      ((m.serve id quota).1.finishTeardown.outbound.get? id) := by
  unfold serve
  rw [h]
  simp only
  split
  · -- the store refuses the scan: the session fails and is dropped
    rename_i e hscan
    have hset := (setSession_get? m id id { s with
      state := .transferring, inFlight, grants }).trans (if_pos rfl)
    refine fail_turn (m := m.setSession id _) hset hs ?_ granted _
    rfl
  · rename_i page hscan
    have hset := (setSession_get? m id id { s with
      state := .transferring
      inFlight
      grants
      finalSent := !page.more
      bytesSent := s.bytesSent + page.bytes
      itemsSent := s.itemsSent + page.items.length
      lastKey := page.lastKey? <|> s.lastKey }).trans (if_pos rfl)
    rw [transmit_get? (m := m.setSession id _) ht hset, transmit_frames hset rfl, transmit_told]
    exact .page s granted quota grants _ page hmay hserves hscan

/-- A session that goes on serves its oldest grant or asks for one. -/
lemma proceed_turn (ht : m.teardown = [])
    (h : m.outbound.get? id = some { s with state := .waiting, inFlight := none })
    (hs : s.stopped = false) (hmay : s.MaySend) :
    SessionTurn m.compressor m.store m.self id none none (some s) (framesOf id (m.proceed id).2)
      (toldOf id (m.proceed id).2) ((m.proceed id).1.finishTeardown.outbound.get? id) := by
  unfold proceed
  rw [h]
  simp only
  split
  · -- a grant that came early is served at once
    rename_i quota grants hgrants
    exact serve_turn (m := m.setSession id _) ht
      ((setSession_get? m id id _).trans (if_pos rfl)) hs hmay (.inr ⟨rfl, hgrants⟩)
  · rename_i hgrants
    rw [transmit_get? ht h, transmit_frames h rfl, transmit_told]
    exact .ask s _ hmay hgrants

/-! ## Steps of every session -/

lemma answered_get? (m : Mover) (id : SessionId) (s : SenderSession) (state : SenderState) :
    (m.answered id s state).outbound.get? id = some { s with state, inFlight := none } :=
  (setSession_get? m id id _).trans (if_pos rfl)

lemma activeSession?_eq_some {src : NodeId} (h : m.activeSession? src id = some s) :
    m.outbound.get? id = some s ∧ s.stopped = false ∧ s.destination = src := by
  unfold activeSession? at h
  split at h
  · cases h
  · rw [Option.filter_eq_some_iff] at h
    simpa using h

/-- The grant that an input brings to a session. -/
def grant? (m : Mover) (input : Input) (id : SessionId) : Option UInt64 :=
  match input with
  | .inbound src (.clearToSend id' quota) =>
    if id' = id ∧ (m.activeSession? src id).isSome = true then some quota else none
  | _ => none

lemma turn_nil (ht : m.teardown = []) (id : SessionId) :
    SessionTurn m.compressor m.store m.self id none none (m.outbound.get? id) (framesOf id [])
      (toldOf id []) (m.finishTeardown.outbound.get? id) := by
  rw [finishTeardown_get?_of_nil ht]
  exact .same _

lemma senderMove_nil (ht : m.teardown = []) :
    SenderMove m (fun _ => none) (fun _ => none) (m, []) :=
  (ActsOn.refl m 0).senderMove ht (fun _ _ => rfl) (turn_nil ht 0)

lemma ActsOn.onAck (m : Mover) (src : NodeId) (id : SessionId) : ActsOn m id (m.onAck src id) := by
  unfold Mover.onAck
  split
  · exact .refl m id
  · rename_i s hactive
    obtain ⟨hget, -, -⟩ := activeSession?_eq_some hactive
    split
    · exact (answered (destination?_of_get? hget) .waiting).trans (.proceed _ id)
    · exact .refl m id

lemma senderMove_onAck (ht : m.teardown = []) (src : NodeId) (id : SessionId) :
    SenderMove m (fun _ => none) (fun _ => none) (m.onAck src id) := by
  refine (ActsOn.onAck m src id).senderMove ht (fun _ _ => rfl) ?_
  unfold onAck
  split
  · exact turn_nil ht id
  · rename_i s hactive
    obtain ⟨hget, hs, -⟩ := activeSession?_eq_some hactive
    split
    · rename_i hstate
      rw [hget]
      exact proceed_turn (m := m.answered id s .waiting) ht (answered_get? m id s .waiting) hs
        (.inl hstate)
    · exact turn_nil ht id

lemma ActsOn.onClearToSend (m : Mover) (src : NodeId) (id : SessionId) (quota : UInt64) :
    ActsOn m id (m.onClearToSend src id quota) := by
  unfold Mover.onClearToSend
  split
  · exact .refl m id
  · rename_i s hactive
    obtain ⟨hget, -, -⟩ := activeSession?_eq_some hactive
    have hkept := destination?_of_get? hget
    have hqueue : ActsOn m id (m.setSession id { s with grants := s.grants ++ [quota] }, []) :=
      .setSession hkept
    split
    · exact (answered hkept .waiting).trans (.serve _ id quota)
    · exact hqueue
    · exact hqueue
    · exact .refl m id

lemma senderMove_onClearToSend (ht : m.teardown = []) (src : NodeId) (id : SessionId)
    (quota : UInt64) :
    SenderMove m (fun _ => none) (m.grant? (.inbound src (.clearToSend id quota)))
      (m.onClearToSend src id quota) := by
  refine (ActsOn.onClearToSend m src id quota).senderMove ht (fun id' hid => ?_) ?_
  · exact if_neg fun h => hid h.1.symm
  unfold onClearToSend
  split
  · rename_i hactive
    have hnone : m.grant? (.inbound src (.clearToSend id quota)) id = none :=
      if_neg (by simp [hactive])
    rw [hnone]
    exact turn_nil ht id
  · rename_i s hactive
    obtain ⟨hget, hs, -⟩ := activeSession?_eq_some hactive
    have hgrant : m.grant? (.inbound src (.clearToSend id quota)) id = some quota :=
      if_pos ⟨rfl, by simp [hactive]⟩
    rw [hget, hgrant]
    have hqueue : s.state ≠ .waiting →
        SessionTurn m.compressor m.store m.self id none (some quota) (some s) [] []
          ((m.setSession id { s with grants := s.grants ++ [quota] }).finishTeardown.outbound.get?
            id) := by
      intro hstate
      rw [finishTeardown_get?_of_nil (m := m.setSession id _) ht, setSession_get?, if_pos rfl]
      exact .queue s quota hstate
    split
    · -- the grant answers the request in flight, whichever request it was given for
      rename_i hstate
      exact serve_turn (m := m.answered id s .waiting) ht (answered_get? m id s .waiting) hs
        (.inr (.inl hstate)) (.inl ⟨rfl, hstate, rfl⟩)
    · rename_i hstate
      exact hqueue (by simp [hstate])
    · rename_i hstate
      exact hqueue (by simp [hstate])
    · rename_i hstate
      rw [finishTeardown_get?_of_nil ht, hget]
      exact .late s quota hstate

lemma ActsOn.onAllReceived (m : Mover) (src : NodeId) (id : SessionId) :
    ActsOn m id (m.onAllReceived src id) := by
  unfold Mover.onAllReceived
  split
  · exact .refl m id
  · rename_i s hactive
    obtain ⟨hget, -, -⟩ := activeSession?_eq_some hactive
    have hkept := destination?_of_get? hget
    split
    · exact .refl m id
    · split
      · have hdone : ActsOn m id
            (m.setSession id { s with state := .done, inFlight := none }, []) :=
          .setSession hkept
        exact (hdone.trans (.stop _ id)).with_event rfl
      · exact (answered hkept .waiting).trans (.proceed _ id)

lemma senderMove_onAllReceived (ht : m.teardown = []) (src : NodeId) (id : SessionId) :
    SenderMove m (fun _ => none) (fun _ => none) (m.onAllReceived src id) := by
  refine (ActsOn.onAllReceived m src id).senderMove ht (fun _ _ => rfl) ?_
  unfold onAllReceived
  split
  · exact turn_nil ht id
  · rename_i s hactive
    obtain ⟨hget, hs, -⟩ := activeSession?_eq_some hactive
    split
    · exact turn_nil ht id
    · rename_i hstate
      rw [not_not] at hstate
      rw [hget]
      split
      · -- the final page was received: the session is done and goes away
        rename_i hfinal
        have hset := (setSession_get? m id id { s with
          state := .done, inFlight := none }).trans (if_pos rfl)
        rw [stop_get?_self hset hs, toldOf_event rfl]
        exact .finished s hstate hfinal
      · -- the acknowledgement is taken for that of the page in flight, and the session goes on
        rename_i hfinal
        exact proceed_turn (m := m.answered id s .waiting) ht (answered_get? m id s .waiting) hs
          (.inr (.inr ⟨hstate, by simpa using hfinal⟩))

/-- A retransmission timer does nothing to a session that awaits no answer, ends one whose frame was
sent as often as it may be, and otherwise sends the frame again after arming anew. -/
lemma onRetry_cases {r : Mover × List Output} (h : m.onRetry id = .ok r) :
    ((∀ s message, m.outbound.get? id = some s → s.inFlight = some message → s.stopped = true) ∧
        r = (m, [])) ∨
      ∃ s message, m.outbound.get? id = some s ∧ s.inFlight = some message ∧ s.stopped = false ∧
        ((0 < m.config.maxAttempts ∧ m.config.maxAttempts ≤ s.attempts) ∧
            r = m.fail id (Fault.handshakeExhausted s.destination.render s.attempts).message ∨
          ¬ (0 < m.config.maxAttempts ∧ m.config.maxAttempts ≤ s.attempts) ∧ ∃ interval,
            m.config.NextWait s.retryInterval interval ∧
              r = ({ m.setSession id
                  { s with attempts := s.attempts + 1, retryInterval := interval } with
                    timers := m.timers.once id interval id },
                [m.sendTo s.destination message])) := by
  unfold onRetry at h
  split at h
  · rename_i hnone
    cases h
    refine .inl ⟨fun s _ hget _ => ?_, rfl⟩
    rw [hnone] at hget
    cases hget
  · rename_i s hget
    have hsame : ∀ s', m.outbound.get? id = some s' → s' = s := fun s' hget' =>
      Option.some_inj.1 (hget'.symm.trans hget)
    split at h
    · rename_i hidle
      cases h
      refine .inl ⟨fun s' message hget' hflight => ?_, rfl⟩
      rw [hsame s' hget', hidle] at hflight
      cases hflight
    · rename_i message hmessage
      split at h
      · rename_i hstopped
        cases h
        exact .inl ⟨fun s' _ hget' _ => hsame s' hget' ▸ hstopped, rfl⟩
      · rename_i hactive
        refine .inr ⟨s, message, hget, hmessage, by simpa using hactive, ?_⟩
        split at h
        · rename_i hmax
          cases h
          exact .inl ⟨by simpa using hmax, rfl⟩
        · rename_i hleft
          split at h
          · cases h
          · rename_i grown hgrown
            cases h
            exact .inr ⟨by simpa using hleft, _, ⟨grown, hgrown, rfl⟩, rfl⟩

lemma ActsOn.onRetry
    (hflight : ∀ s message, m.outbound.get? id = some s → s.inFlight = some message →
      message.outboundSession? = some id)
    {r : Mover × List Output} (h : m.onRetry id = .ok r) : ActsOn m id r := by
  obtain ⟨-, rfl⟩ | ⟨s, message, hget, hmessage, -, ⟨-, rfl⟩ | ⟨-, interval, -, rfl⟩⟩ :=
    onRetry_cases h
  · exact .refl m id
  · exact .fail m id _
  · have hkept := destination?_of_get? hget
    refine .send ?_ _ s.destination (hflight s message hget hmessage)
    exact hkept

lemma senderMove_onRetry (ht : m.teardown = [])
    (hflight : ∀ s message, m.outbound.get? id = some s → s.inFlight = some message →
      message.outboundSession? = some id)
    {r : Mover × List Output} (h : m.onRetry id = .ok r) :
    SenderMove m (fun _ => none) (fun _ => none) r := by
  refine (ActsOn.onRetry hflight h).senderMove ht (fun _ _ => rfl) ?_
  obtain ⟨-, rfl⟩ | ⟨s, message, hget, hmessage, hs, ⟨-, rfl⟩ | ⟨-, interval, -, rfl⟩⟩ :=
    onRetry_cases h
  · exact turn_nil ht id
  · rw [hget]
    exact fail_turn hget hs rfl none _
  · rw [hget, framesOf_sendTo m s.destination (hflight s message hget hmessage), toldOf_sendTo]
    refine (armed_get? ht id _ _).symm ▸ ?_
    exact .again s message _ hmessage hs

/-- Sessions only end. -/
structure Ended (m m' : Mover) : Prop where
  rest : ∃ timers outbound byDestination finished,
    m' = { m with timers, outbound, byDestination, finished }
  get? : ∀ id, m'.outbound.get? id = m.outbound.get? id ∨ m'.outbound.get? id = none

lemma ended_stop (ht : m.teardown = []) (id : SessionId) : Ended m (m.stop id).finishTeardown := by
  obtain ⟨timers, _, _, hstop⟩ := (ActsOn.stop m id).rest
  replace hstop : m.stop id = _ := hstop
  obtain ⟨outbound, byDestination, finished, hdone⟩ := finishTeardown_eq (m.stop id)
  refine ⟨⟨timers, outbound, byDestination, finished, ?_⟩, fun id' => ?_⟩
  · rw [hdone, hstop, ht]
  · rw [← finishTeardown_get?_of_nil ht id']
    exact stop_finishTeardown_get? m id id'

/-- The mover after the session to a destination gave way. -/
def vacate (m : Mover) (destination : NodeId) : Mover :=
  match m.byDestination.get? destination with
  | some old => (m.stop old).finishTeardown
  | none => m

/-- The mover with a session under the next number, before its first frame. -/
def withNewSession (m : Mover) (destination : NodeId) (metadata : TransferMetadata) : Mover :=
  { m.setSession m.ids.next.1 (.start destination metadata (m.baseInterval destination)) with
    ids := m.ids.next.2
    byDestination := m.byDestination.insert destination m.ids.next.1 }

lemma startSend_eq (m : Mover) (destination : NodeId) (range : KeyRange) (viewId : UInt64) :
    m.startSend destination range viewId =
      ((m.vacate destination).withNewSession destination
          ⟨range, viewId, (m.vacate destination).config.compression⟩).transmit
        (m.vacate destination).ids.next.1
        (.initiateTransfer (m.vacate destination).ids.next.1
          ⟨range, viewId, (m.vacate destination).config.compression⟩) := rfl

lemma ended_vacate (ht : m.teardown = []) (destination : NodeId) :
    Ended m (m.vacate destination) := by
  unfold vacate
  split
  · exact ended_stop ht _
  · exact ⟨⟨_, _, _, _, rfl⟩, fun id => .inl rfl⟩

/-- Only the session that gave way joins those that ended. -/
lemma vacate_finished (m : Mover) (destination : NodeId) {id : SessionId}
    (h : (m.vacate destination).finished.contains id = true) :
    m.finished.contains id = true ∨
      m.outbound.get? id ≠ none ∧ (m.vacate destination).outbound.get? id = none := by
  unfold vacate at h ⊢
  split at h
  · exact (ActsOn.stop m _).ended h
  · exact .inl h

/-- Once the session to a destination gave way, there is none. -/
lemma Listed.vacate (h : m.Listed)
    (hactive : ∀ id s, m.outbound.get? id = some s → s.stopped = false)
    (ht : m.teardown = []) (destination : NodeId) :
    (m.vacate destination).Listed ∧ ¬ (m.vacate destination).Serving destination := by
  unfold Mover.vacate
  split
  · rename_i old hold
    refine ⟨((ActsOn.stop m old).listed h).finishTeardown, ?_⟩
    rintro ⟨id, hid⟩
    obtain ⟨s, hget, hs⟩ := destination?_eq_some.1 hid
    obtain hsame | hgone := (ended_stop ht old).get? id
    · -- a session that stayed went there before, so it is the one that gave way
      rw [hsame] at hget
      have hbefore : m.destination? id = some destination := destination?_eq_some.2 ⟨s, hget, hs⟩
      obtain rfl : old = id := Option.some_inj.1 (hold.symm.trans (h _ _ hbefore))
      have hnone := stop_get?_self hget (hactive old s hget)
      rw [hnone, hget] at hsame
      cases hsame
    · rw [hgone] at hget
      cases hget
  · rename_i hnone
    refine ⟨h, ?_⟩
    rintro ⟨id, hid⟩
    rw [h id destination hid] at hnone
    cases hnone

/-- Nor has the index an entry there. -/
lemma vacate_indexed (ht : m.teardown = []) (hm : m.Settled) (destination : NodeId) :
    (m.vacate destination).Indexed ∧
      (m.vacate destination).byDestination.get? destination = none := by
  have hindexed : (m.vacate destination).Indexed := by
    unfold vacate
    split
    · exact ((ActsOn.stop m _).indexed hm.indexed).finishTeardown
    · exact hm.indexed
  obtain ⟨-, hfree⟩ := hm.indexed.listed.vacate hm.active ht destination
  exact ⟨hindexed, Option.eq_none_iff_forall_ne_some.2 fun id hid =>
    hfree ⟨id, (hindexed destination id).1 hid⟩⟩

lemma withNewSession_byDestination (m : Mover) (destination : NodeId)
    (metadata : TransferMetadata) (n : NodeId) :
    (m.withNewSession destination metadata).byDestination.get? n =
      if n = destination then some m.ids.next.1 else m.byDestination.get? n :=
  SortedMap.get?_insert ..

lemma withNewSession_destination? (m : Mover) (destination : NodeId)
    (metadata : TransferMetadata) (id : SessionId) :
    (m.withNewSession destination metadata).destination? id =
      if id = m.ids.next.1 then some destination else m.destination? id := by
  have hget : (m.withNewSession destination metadata).outbound.get? id =
      if id = m.ids.next.1 then
        some (.start destination metadata (m.baseInterval destination))
      else m.outbound.get? id := setSession_get? m _ id _
  unfold destination?
  rw [hget]
  split
  · rfl
  · rfl

/-- A new session is indexed under its destination, and no other session goes there. -/
lemma Listed.withNewSession {destination : NodeId} (h : m.Listed)
    (hfree : ¬ m.Serving destination) (metadata : TransferMetadata) :
    (m.withNewSession destination metadata).Listed := by
  intro id n hid
  rw [withNewSession_destination?] at hid
  rw [withNewSession_byDestination]
  split at hid
  · rename_i hnew
    cases hid
    rw [if_pos rfl, hnew]
  · have hne : n ≠ destination := by
      rintro rfl
      exact hfree ⟨id, hid⟩
    rw [if_neg hne]
    exact h id n hid

/-- A new session takes the free entry of its destination. -/
lemma withNewSession_indexed {destination : NodeId} {metadata : TransferMetadata}
    (hm : m.Indexed) (hfree : m.byDestination.get? destination = none)
    (hnew : m.outbound.get? m.ids.next.1 = none) :
    (m.withNewSession destination metadata).Indexed := by
  intro n id
  rw [withNewSession_byDestination, withNewSession_destination?]
  by_cases hid : id = m.ids.next.1
  · rw [if_pos hid, hid, Option.some_inj]
    by_cases hn : n = destination
    · simp [hn]
    · have hnone : m.byDestination.get? n ≠ some m.ids.next.1 := by
        rw [ne_eq, hm n, destination?, hnew]
        simp
      simp [hn, Ne.symm hn, hnone]
  · rw [if_neg hid]
    by_cases hn : n = destination
    · have hnone := hm destination id
      rw [hfree] at hnone
      rw [if_pos hn, hn, ← hnone, Option.some_inj]
      simp [Ne.symm hid]
    · rw [if_neg hn]
      exact hm n id

lemma transmit_finished (ht : m.teardown = []) (id : SessionId) (message : Message) :
    (m.transmit id message).1.finishTeardown.finished = m.finished := by
  unfold transmit
  split
  · rw [finishTeardown_of_nil ht]
  · rw [finishTeardown_of_nil (by exact ht)]
    rfl

lemma senderMove_startSend (ht : m.teardown = []) (destination : NodeId) (range : KeyRange)
    (viewId : UInt64) :
    SenderMove m (m.opening? (.command (.startSend destination range viewId))) (fun _ => none)
      (m.startSend destination range viewId) := by
  obtain ⟨⟨_, _, byDestination, finished, hrest⟩, hended⟩ := ended_vacate ht destination
  have hindexed := fun hm => vacate_indexed ht hm destination
  have hfinished : ∀ id, (m.vacate destination).finished.contains id = true → _ :=
    fun _ h => vacate_finished m destination h
  have hids : (m.vacate destination).ids = m.ids := by rw [hrest]
  have hself : (m.vacate destination).self = m.self := by rw [hrest]
  have hconfig : (m.vacate destination).config = m.config := by rw [hrest]
  have ht₀ : (m.vacate destination).teardown = [] := by rw [hrest, ht]
  rw [startSend_eq, hids, hconfig]
  generalize hmeta : (⟨range, viewId, m.config.compression⟩ : TransferMetadata) = metadata
  generalize m.vacate destination = m₀ at hrest hids hself ht₀ hended hindexed hfinished
  have hacts : ActsOn (m₀.withNewSession destination metadata) m.ids.next.1
      ((m₀.withNewSession destination metadata).transmit m.ids.next.1
        (.initiateTransfer m.ids.next.1 metadata)) := ActsOn.transmit _ rfl
  have hset : ∀ id, (m₀.withNewSession destination metadata).outbound.get? id =
      if id = m.ids.next.1 then
        some (.start destination metadata (m₀.baseInterval destination))
      else m₀.outbound.get? id := by
    intro id
    rw [← hids]
    exact setSession_get? m₀ _ id _
  have hopens : ∀ id, m.opening? (.command (.startSend destination range viewId)) id =
      if id = m.ids.next.1 then some (destination, metadata) else none := by
    intro id
    simp only [opening?, hmeta, eq_comm]
  refine ⟨?_, fun e he => (hacts.frames e he).1.trans hself,
    fun e he => MoverEvent.isOutbound_of_session (hacts.events e he), fun id => ?_,
    fun hm hnew => ?_, fun id hcontains => ?_⟩
  · obtain ⟨timers, outbound, teardown, hmove⟩ := hacts.rest
    refine ⟨m.ids.next.2, timers, outbound, byDestination.insert destination m.ids.next.1,
      finished, teardown, ?_⟩
    rw [hmove, hrest]
    rfl
  · by_cases hid : id = m.ids.next.1
    · -- the session that is opened
      have hget := (hset id).trans (if_pos hid)
      rw [hopens, if_pos hid, ← hid,
        transmit_get? (m := m₀.withNewSession destination metadata) ht₀ hget,
        transmit_frames hget rfl, transmit_told]
      show SessionTurn _ _ _ _ _ _ _ [⟨m₀.self, _, _⟩] _ _
      rw [hself]
      exact .opened _ destination metadata _
    · -- any other session stays, or gave way to this one
      obtain ⟨hframes, htold, hget⟩ := hacts.other ht₀ hid
      rw [hopens, if_neg hid, hframes, htold, hget, hset, if_neg hid]
      exact .of_eq_or_none (hended id)
  · obtain ⟨hindexed, hfree⟩ := hindexed hm
    have hnone : m₀.outbound.get? m₀.ids.next.1 = none := by
      rw [hids]
      refine (hended _).elim (fun hsame => hsame.trans (hnew _ ?_)) id
      rw [hopens, if_pos rfl]
      rfl
    exact (hacts.indexed (withNewSession_indexed hindexed hfree hnone)).finishTeardown
  · have hkept := transmit_finished (m := m₀.withNewSession destination metadata) ht₀ m.ids.next.1
      (.initiateTransfer m.ids.next.1 metadata)
    rw [hkept] at hcontains
    refine (hfinished id hcontains).imp_right fun ⟨hget, hgone⟩ => ⟨hget, fun hopen => ?_⟩
    have hid : id ≠ m.ids.next.1 := by
      rintro rfl
      rw [hopens, if_pos rfl] at hopen
      cases hopen
    rw [(hacts.other ht₀ hid).2.2, hset, if_neg hid, hgone]

/-! ## Steps of a mover -/

/-- A mover between inputs: no session waits to be dropped, and what a session has in flight is a
frame of its own. -/
structure Tidy (m : Mover) : Prop where
  teardown : m.teardown = []
  inFlight : ∀ id s message, m.outbound.get? id = some s → s.inFlight = some message →
    message.outboundSession? = some id

lemma tidy_start (self : NodeId) (config : TransferConfig) (store : Store) (ids : IdSource)
    (c : Compressor) : (start self config store ids c).Tidy := by
  refine ⟨rfl, fun id s message h => ?_⟩
  cases (SortedMap.get?_empty id).symm.trans h

/-- A step leaves nothing in flight but the session's own frames. -/
lemma SessionStep.inFlight {c : Compressor} {store : Store} {self : NodeId} {id : SessionId}
    {opening : Option (NodeId × TransferMetadata)} {o o' : Option SenderSession}
    {frames : List Envelope} (h : SessionStep c store self id opening o frames o')
    (ho : ∀ s message, o = some s → s.inFlight = some message →
      message.outboundSession? = some id)
    {s' : SenderSession} {message : Message} (hs' : o' = some s')
    (hmessage : s'.inFlight = some message) : message.outboundSession? = some id := by
  cases h with
  | same => exact ho s' message hs' hmessage
  | queue s quota =>
    cases hs'
    exact ho s message rfl hmessage
  | again s _ interval =>
    cases hs'
    exact ho s message rfl hmessage
  | ask s interval =>
    cases hs'
    cases hmessage
    rfl
  | page s quota grants interval page =>
    cases hs'
    cases hmessage
    rfl
  | opened _ destination metadata interval =>
    cases hs'
    cases hmessage
    rfl
  | gone s => cases hs'

/-- No turn leaves a session stopped. -/
lemma SessionTurn.active {c : Compressor} {store : Store} {self : NodeId} {id : SessionId}
    {opening : Option (NodeId × TransferMetadata)} {granted : Option UInt64}
    {o o' : Option SenderSession} {frames : List Envelope} {told : List MoverEvent}
    (h : SessionTurn c store self id opening granted o frames told o')
    (ho : ∀ s, o = some s → s.stopped = false) {s' : SenderSession} (hs' : o' = some s') :
    s'.stopped = false := by
  cases h with
  | same => exact ho s' hs'
  | late s => exact ho s' hs'
  | queue s quota =>
    cases hs'
    exact ho s rfl
  | again s message interval =>
    cases hs'
    exact ho s rfl
  | ask s interval =>
    cases hs'
    exact ho s rfl
  | page s granted quota grants interval page =>
    cases hs'
    exact ho s rfl
  | opened =>
    cases hs'
    rfl
  | finished s => cases hs'
  | failed s => cases hs'
  | stopped s => cases hs'

/-- Only the receiver's part of a mover changes, and the frames and events belong to no outbound
session. -/
structure Receives (m : Mover) (r : Mover × List Output) : Prop where
  rest : ∃ store inbound completed, r.1 = { m with store, inbound, completed }
  frames : ∀ e ∈ envelopes r.2, e.src = m.self ∧ e.message.outboundSession? = none
  events : ∀ e, .event e ∈ r.2 → e.outboundSession? = none

namespace Receives

lemma refl (m : Mover) : Receives m (m, []) := ⟨⟨_, _, _, rfl⟩, by simp [envelopes], by simp⟩

/-- The answers of a receiver belong to no outbound session. -/
lemma answer {m m' : Mover}
    (h : ∃ store inbound completed, m' = { m with store, inbound, completed }) (dst : NodeId)
    {message : Message} (hm : message.outboundSession? = none)
    (events : List MoverEvent) (hevents : ∀ e ∈ events, e.outboundSession? = none) :
    Receives m (m', m.sendTo dst message :: events.map .event) := by
  refine ⟨h, fun e he => ?_, fun e he => hevents e (by simpa [sendTo] using he)⟩
  have : e = ⟨m.self, dst, message⟩ := by
    simpa [envelopes, sendTo, List.filterMap_map] using he
  rw [this]
  exact ⟨rfl, hm⟩

/-- An answer alone tells nothing. -/
lemma answer_alone {m m' : Mover}
    (h : ∃ store inbound completed, m' = { m with store, inbound, completed }) (dst : NodeId)
    {message : Message} (hm : message.outboundSession? = none) :
    Receives m (m', [m.sendTo dst message]) :=
  answer h dst hm [] fun _ he => (nomatch he)

lemma onInitiate (m : Mover) (src : NodeId) (id : SessionId) (metadata : TransferMetadata) :
    Receives m (m.onInitiate src id metadata) := by
  unfold Mover.onInitiate
  simp only
  split
  · exact answer_alone ⟨_, _, _, rfl⟩ src rfl
  · have hinbound : ∃ store inbound completed,
        { m with inbound := m.inbound.insert ⟨src, id⟩ (.start metadata) } =
          { m with store, inbound, completed } := ⟨_, _, _, rfl⟩
    exact answer_alone hinbound src rfl

lemma onRequestToSend (m : Mover) (src : NodeId) (id : SessionId) :
    Receives m (m.onRequestToSend src id) := by
  unfold Mover.onRequestToSend
  split
  · exact answer_alone ⟨_, _, _, rfl⟩ src rfl
  · exact refl m

lemma onData (m : Mover) (src : NodeId) (id : SessionId) (payload : Bytes) (isFinal : Bool) :
    Receives m (m.onData src id payload isFinal) := by
  unfold Mover.onData
  simp only
  split
  · exact answer_alone ⟨_, _, _, rfl⟩ src rfl
  · split
    · exact refl m
    · split
      · exact refl m
      · split
        · exact ⟨⟨_, _, _, rfl⟩, by simp [envelopes], by simp⟩
        · split
          · refine answer ⟨_, _, _, rfl⟩ src rfl [.transferComplete ..] fun e he => ?_
            rw [List.mem_singleton.1 he]
            rfl
          · exact answer_alone ⟨_, _, _, rfl⟩ src rfl

lemma framesOf_eq_nil {m : Mover} {r : Mover × List Output} (h : Receives m r) (id : SessionId) :
    framesOf id r.2 = [] := by
  unfold framesOf
  rw [List.filter_eq_nil_iff]
  intro e he
  simp [(h.frames e he).2]

/-- A mover that only receives moves no session. -/
lemma turn {m : Mover} {r : Mover × List Output} (h : Receives m r) (ht : m.teardown = [])
    (id : SessionId) :
    SessionTurn m.compressor m.store m.self id none none (m.outbound.get? id) (framesOf id r.2)
      (toldOf id r.2) (r.1.finishTeardown.outbound.get? id) := by
  obtain ⟨store, inbound, completed, hrest⟩ := h.rest
  have htold : toldOf id r.2 = [] := by
    unfold toldOf
    rw [List.filter_eq_nil_iff]
    intro e he
    simp [h.events e (mem_eventsIn.1 he)]
  rw [h.framesOf_eq_nil id, htold, hrest,
    finishTeardown_get?_of_nil (m := { m with store, inbound, completed }) ht]
  exact .same _

end Receives

lemma senderMove_onMessage (ht : m.teardown = []) (src : NodeId) {message : Message}
    (h : message.outboundSession? = none) :
    SenderMove m (fun _ => none) (m.grant? (.inbound src message)) (m.onMessage src message) := by
  cases message with
  | initiateTransfer id metadata => cases h
  | requestToSend id => cases h
  | data id payload isFinal => cases h
  | ack id => exact senderMove_onAck ht src id
  | clearToSend id quota => exact senderMove_onClearToSend ht src id quota
  | allReceived id => exact senderMove_onAllReceived ht src id
  | _ => exact senderMove_nil ht

lemma receives_onMessage (m : Mover) (src : NodeId) {message : Message} {id : SessionId}
    (h : message.outboundSession? = some id) : Receives m (m.onMessage src message) := by
  cases message with
  | initiateTransfer id metadata => exact .onInitiate m src id metadata
  | requestToSend id => exact .onRequestToSend m src id
  | data id payload isFinal => exact .onData m src id payload isFinal
  | _ => cases h

lemma foldl_stop_rest (ids : List SessionId) (m : Mover) : ∃ timers outbound teardown,
    ids.foldl stop m = { m with timers, outbound, teardown } := by
  induction ids generalizing m with
  | nil => exact ⟨_, _, _, rfl⟩
  | cons i ids ih =>
    obtain ⟨_, _, _, hstop⟩ := (ActsOn.stop m i).rest
    replace hstop : m.stop i = _ := hstop
    obtain ⟨timers, outbound, teardown, h⟩ := ih (m.stop i)
    exact ⟨timers, outbound, teardown, by rw [List.foldl_cons, h, hstop]⟩

lemma foldl_stop_destination? (ids : List SessionId) (m : Mover) (id : SessionId) :
    (ids.foldl stop m).destination? id = m.destination? id :=
  List.foldlRecOn (motive := fun m' => m'.destination? id = m.destination? id) ids stop rfl
    fun m' h i _ => ((ActsOn.stop m' i).destination?_eq id).trans h

/-- Each of the sessions is gone once the stopped ones are dropped. -/
lemma foldl_stop_gone {ids : List SessionId} (hmem : id ∈ ids)
    (hstopped : ∀ s, m.outbound.get? id = some s → s.stopped = true → id ∈ m.teardown) :
    (ids.foldl stop m).finishTeardown.outbound.get? id = none := by
  induction ids generalizing m with
  | nil => cases hmem
  | cons i ids ih =>
    rw [List.foldl_cons]
    by_cases hid : id = i
    · -- what becomes of the others does not bring the session back
      subst hid
      have hgone : (m.stop id).finishTeardown.outbound.get? id = none := by
        cases hget : m.outbound.get? id with
        | none =>
          rw [stop_of_none hget, finishTeardown_get?, hget]
          exact ite_self none
        | some s =>
          by_cases hs : s.stopped = true
          · rw [stop_of_stopped hget hs, finishTeardown_get?, if_pos (hstopped s hget hs)]
          · exact stop_get?_self hget (by simpa using hs)
      rcases foldl_stop_get? ids (m.stop id) id with hsame | hnone
      · exact hsame.trans hgone
      · exact hnone
    · refine ih ((List.mem_cons.1 hmem).resolve_left hid) fun s hget hs => ?_
      rw [(ActsOn.stop m i).others id hid] at hget
      exact mem_stop_teardown (hstopped s hget hs) i

/-- Stopping every session leaves none. -/
lemma onCommand_stopAll_get? (hactive : ∀ id s, m.outbound.get? id = some s → s.stopped = false)
    (id : SessionId) : (m.onCommand .stopAll).1.finishTeardown.outbound.get? id = none := by
  have hstopped : ∀ s, m.outbound.get? id = some s → s.stopped = true → id ∈ m.teardown := by
    intro s hget hs
    rw [hactive id s hget] at hs
    cases hs
  by_cases hmem : id ∈ m.outbound.keys
  · exact foldl_stop_gone hmem hstopped
  · rcases foldl_stop_get? m.outbound.keys m id with hsame | hgone
    · refine hsame.trans ?_
      rw [finishTeardown_get?]
      split
      · rfl
      · exact Option.eq_none_iff_forall_ne_some.2 fun s hget =>
          hmem (SortedMap.mem_keys_of_get? hget)
    · exact hgone

lemma senderMove_onCommand (ht : m.teardown = []) (command : MoverCommand) :
    SenderMove m (m.opening? (.command command)) (m.grant? (.command command))
      (m.onCommand command) := by
  cases command with
  | startSend destination range viewId =>
    exact senderMove_startSend ht destination range viewId
  | stopSend destination =>
    unfold onCommand
    simp only
    split
    · rename_i id hid
      refine (ActsOn.stop m id).senderMove ht (fun _ _ => rfl) (.of_eq_or_none ?_)
      rw [← finishTeardown_get?_of_nil ht]
      exact stop_finishTeardown_get? m id id
    · exact senderMove_nil ht
  | stopAll =>
    obtain ⟨timers, outbound, teardown, hrest⟩ := foldl_stop_rest m.outbound.keys m
    have hended := foldl_stop_get? m.outbound.keys m
    have hkept := foldl_stop_destination? m.outbound.keys m
    replace hrest : m.outbound.keys.foldl stop m = _ := hrest
    refine ⟨⟨_, timers, outbound, _, _, teardown, hrest⟩, by simp [onCommand, envelopes],
      by simp [onCommand], fun id => .of_eq_or_none ?_, fun hm _ => ?_, fun id hcontains => ?_⟩
    · rw [← finishTeardown_get?_of_nil ht]
      exact hended id
    · exact (hm.indexed.congr (by rw [hrest]) hkept).finishTeardown
    · have hended := ended_of_kept (by rw [hrest]) (hkept id) hcontains
      exact hended.imp_right fun h => ⟨h.1, fun _ => h.2⟩

end

variable {m m' : Mover} {input : Input} {out : List Output}

/-- An input that brings no frame of a sender. -/
def Input.IsOutbound (input : Input) : Prop :=
  ∀ src message, input = .inbound src message → message.outboundSession? = none

lemma handle_retry {id : SessionId} (h : m.handle (.retry id) = .ok (m', out)) :
    ∃ r, m.onRetry id = .ok r ∧ m' = r.1.finishTeardown ∧ out = r.2 := by
  unfold handle at h
  cases hretry : m.onRetry id with
  | error crash => simp [hretry, bind, Except.bind] at h
  | ok r =>
    simp only [hretry] at h
    cases h
    exact ⟨r, rfl, rfl, rfl⟩

/-- What an input does: it moves the sender's part on, or it reaches the receiver's part. -/
lemma handle_cases (hm : m.Tidy) (h : m.handle input = .ok (m', out)) :
    (∃ m₁, m' = m₁.finishTeardown ∧ input.IsOutbound ∧
      SenderMove m (m.opening? input) (m.grant? input) (m₁, out)) ∨
      ∃ src message id, input = .inbound src message ∧ message.outboundSession? = some id ∧
        m' = (m.onMessage src message).1.finishTeardown ∧ out = (m.onMessage src message).2 ∧
        Receives m (m.onMessage src message) := by
  cases input with
  | command c =>
    cases h
    exact .inl ⟨_, rfl, fun _ _ h => (nomatch h), senderMove_onCommand hm.teardown c⟩
  | inbound src message =>
    cases h
    cases hs : message.outboundSession? with
    | none =>
      refine .inl ⟨_, rfl, fun src' message' h => ?_, senderMove_onMessage hm.teardown src hs⟩
      cases h
      exact hs
    | some id => exact .inr ⟨src, message, id, rfl, hs, rfl, rfl, receives_onMessage m src hs⟩
  | retry id =>
    obtain ⟨r, hretry, rfl, rfl⟩ := handle_retry h
    exact .inl ⟨_, rfl, fun _ _ h => (nomatch h),
      senderMove_onRetry hm.teardown (hm.inFlight id) hretry⟩

/-- Whatever a mover handles, each of its outbound sessions takes one of the turns. -/
theorem sessionTurn_of_handle (hm : m.Tidy) (h : m.handle input = .ok (m', out))
    (id : SessionId) :
    SessionTurn m.compressor m.store m.self id (m.opening? input id) (m.grant? input id)
      (m.outbound.get? id) (framesOf id out) (toldOf id out) (m'.outbound.get? id) := by
  rcases handle_cases hm h with
    ⟨m₁, rfl, -, hmove⟩ | ⟨src, message, _, rfl, hid, rfl, rfl, hreceives⟩
  · exact hmove.turn id
  · have hnone : m.grant? (.inbound src message) id = none := by
      cases message with
      | clearToSend => cases hid
      | _ => rfl
    rw [hnone]
    exact hreceives.turn hm.teardown id

theorem sessionStep_of_handle (hm : m.Tidy) (h : m.handle input = .ok (m', out))
    (id : SessionId) :
    SessionStep m.compressor m.store m.self id (m.opening? input id) (m.outbound.get? id)
      (framesOf id out) (m'.outbound.get? id) := (sessionTurn_of_handle hm h id).sessionStep

theorem tidy_of_handle (hm : m.Tidy) (h : m.handle input = .ok (m', out)) : m'.Tidy := by
  refine ⟨?_, fun id s message hs hmessage => ?_⟩
  · rcases handle_cases hm h with ⟨m₁, rfl, -⟩ | ⟨src, message, _, -, -, rfl, -, -⟩
    all_goals
      obtain ⟨_, _, _, hdone⟩ := finishTeardown_eq _
      rw [hdone]
  · exact (sessionStep_of_handle hm h id).inFlight (fun s message => hm.inFlight id s message)
      hs hmessage

/-- Sessions and index stay inverse to each other, and no session stays stopped, if no session is
open under the number that is drawn for another one. -/
theorem settled_of_handle (hm : m.Tidy) (hs : m.Settled) (h : m.handle input = .ok (m', out))
    (hnew : ∀ id, (m.opening? input id).isSome = true → m.outbound.get? id = none) :
    m'.Settled := by
  refine ⟨?_, fun id s => ?_⟩
  · rcases handle_cases hm h with
      ⟨m₁, rfl, -, hmove⟩ | ⟨src, message, _, rfl, -, rfl, -, hreceives⟩
    · exact hmove.indexed hs hnew
    · obtain ⟨_, _, _, hrest⟩ := hreceives.rest
      have hindexed : (m.onMessage src message).1.Indexed := by
        rw [hrest]
        exact hs.indexed
      exact hindexed.finishTeardown
  · exact (sessionTurn_of_handle hm h id).active (hs.active id)

/-- A session that is remembered as ended was so before or has left the table. -/
theorem ended_of_handle (hm : m.Tidy) (h : m.handle input = .ok (m', out)) {id : SessionId}
    (hfinished : m'.finished.contains id = true) :
    m.finished.contains id = true ∨ m.outbound.get? id ≠ none ∧
      (m.opening? input id = none → m'.outbound.get? id = none) := by
  rcases handle_cases hm h with
    ⟨m₁, rfl, -, hmove⟩ | ⟨src, message, _, rfl, -, rfl, -, hreceives⟩
  · exact hmove.ended id hfinished
  · obtain ⟨_, _, _, hrest⟩ := hreceives.rest
    rw [hrest] at hfinished ⊢
    exact (ended_of_kept rfl rfl hfinished).imp_right fun ⟨hget, hgone⟩ => ⟨hget, fun _ => hgone⟩

/-- Neither the name of a mover changes nor its tuning nor how it compresses nor what it knows of
timeouts. -/
lemma handle_rest (hm : m.Tidy) (h : m.handle input = .ok (m', out)) :
    m'.self = m.self ∧ m'.config = m.config ∧ m'.compressor = m.compressor ∧
      m'.timeouts = m.timeouts := by
  rcases handle_cases hm h with ⟨m₁, rfl, -, hmove⟩ | ⟨src, message, _, rfl, -, rfl, rfl, hreceives⟩
  · obtain ⟨_, _, _, _, _, _, hrest⟩ := hmove.rest
    replace hrest : m₁ = _ := hrest
    obtain ⟨_, _, _, hdone⟩ := finishTeardown_eq m₁
    rw [hdone, hrest]
    exact ⟨rfl, rfl, rfl, rfl⟩
  · obtain ⟨_, _, _, hrest⟩ := hreceives.rest
    obtain ⟨_, _, _, hdone⟩ := finishTeardown_eq (m.onMessage src message).1
    rw [hdone, hrest]
    exact ⟨rfl, rfl, rfl, rfl⟩

/-- A mover speaks for itself, and neither its name nor its tuning changes. -/
theorem handle_self (hm : m.Tidy) (h : m.handle input = .ok (m', out)) :
    m'.self = m.self ∧ m'.config = m.config ∧ ∀ e ∈ envelopes out, e.src = m.self := by
  obtain ⟨hself, hconfig, -⟩ := handle_rest hm h
  refine ⟨hself, hconfig, ?_⟩
  rcases handle_cases hm h with ⟨_, -, -, hmove⟩ | ⟨_, _, _, -, -, -, rfl, hreceives⟩
  · exact hmove.frames
  · exact fun e he => (hreceives.frames e he).1

end Mover

end ReplicaRing
