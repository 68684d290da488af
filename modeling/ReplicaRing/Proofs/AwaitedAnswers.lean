import ReplicaRing.Proofs.FinalPages
import ReplicaRing.Proofs.MoverRuns

/-!
No outbound session waits for nothing. Retransmission timers fire into a queue, and a mover handles
them amid everything else, so a timer may be handled late, when its frame was answered and another
one is out. Whatever a mover handles, a session that stays open goes over to another frame if that
is what it waited for, with its timer armed anew, and is left alone otherwise,
`Mover.timely_of_handle`; only its own timer makes it send a frame again. So an open session awaits
an answer, with a timer that is armed or waits to be handled, it has counted how often its frame was
sent, and it is given up just when that was as often as it may be, `TimedMover.awaits_answer`. What
waits to be handled is armed no more, `TimedMover.unarmed_until_handled`.
-/

namespace ReplicaRing

/-- A frame that a session in its state waits for an answer to. -/
def SenderSession.Outstanding (s : SenderSession) (id : SessionId) (message : Message) : Prop :=
  s.inFlight = some message ∧
    match s.state with
    | .initialising => message = .initiateTransfer id s.metadata
    | .waiting => message = .requestToSend id
    | .transferring => ∃ payload, message = .data id payload s.finalSent
    | .done => False

/-- Whether a message is the answer that a session in its state waits for. -/
def SenderSession.awaits (s : SenderSession) (id : SessionId) : Message → Bool
  | .ack id' => id' == id && s.state = .initialising
  | .clearToSend id' _ => id' == id && s.state = .waiting
  | .allReceived id' => id' == id && s.state = .transferring
  | _ => false

namespace Mover

/-- Whether an input opens a session, or answers what it waits for. -/
def advances (m : Mover) (input : Input) (id : SessionId) : Bool :=
  match input with
  | .inbound src message => (m.activeSession? src id).any fun s => s.awaits id message
  | .command _ | .retry _ => (m.opening? input id).isSome

/-! ## Timers of a session -/

/-- The retransmission timer of a session is armed. -/
def ArmedFor (m : Mover) (id : SessionId) : Prop :=
  ∃ deadline, m.timers.armed.get? id = some ⟨deadline, none, id⟩

/-- A session has sent its frame once, and its timer is armed for the first wait. -/
structure FirstSent (m m' : Mover) (id : SessionId) (s : SenderSession) : Prop where
  once : s.attempts = 1
  wait : s.retryInterval = m.baseInterval s.destination
  armed : m'.timers.armed.get? id = some ⟨m'.timers.now + s.retryInterval, none, id⟩

/-- A session was stopped, or it sent a frame a first time and its timer is armed for that. The
timers of other sessions are as they were. -/
structure Renews (m : Mover) (id : SessionId) (r : Mover × List Output) : Prop where
  others : ∀ id', id' ≠ id → r.1.timers.armed.get? id' = m.timers.armed.get? id'
  own : id ∈ r.1.teardown ∨ framesOf id r.2 ≠ [] ∧
    ∃ s, r.1.outbound.get? id = some s ∧ FirstSent m r.1 id s

/-- Nothing is sent, and all timers are as they were. -/
def Undisturbed (m : Mover) (r : Mover × List Output) : Prop := r.1.timers = m.timers ∧ r.2 = []

/-- A session that stays open sends a first frame with its timer armed for that, if it is advanced,
and otherwise it sends nothing and its timer is as it was. -/
def Timely (m : Mover) (advances : Bool) (id : SessionId) (m' : Mover) (out : List Output) : Prop :=
  ∀ s, m'.outbound.get? id = some s →
    advances = true ∧ framesOf id out ≠ [] ∧ FirstSent m m' id s ∨
      advances = false ∧ framesOf id out = [] ∧
        m'.timers.armed.get? id = m.timers.armed.get? id

section

variable {m m' : Mover} {id id' : SessionId} {s : SenderSession} {r : Mover × List Output}
  {input : Input}

lemma FirstSent.of_base {m₀ : Mover} (h : FirstSent m m' id s)
    (hbase : m.baseInterval = m₀.baseInterval) : FirstSent m₀ m' id s :=
  ⟨h.once, hbase ▸ h.wait, h.armed⟩

lemma Renews.of_others (h : Renews m id r)
    {m₀ : Mover} (hsame : ∀ id', id' ≠ id → m.timers.armed.get? id' = m₀.timers.armed.get? id')
    (hbase : m.baseInterval = m₀.baseInterval) : Renews m₀ id r :=
  ⟨fun id' hid => (h.others id' hid).trans (hsame id' hid),
    h.own.imp_right fun ⟨hframes, s, hs, hsent⟩ => ⟨hframes, s, hs, hsent.of_base hbase⟩⟩

lemma cancel_get?_of_ne (m : Mover) (hid : id' ≠ id) :
    (m.timers.cancel id).armed.get? id' = m.timers.armed.get? id' :=
  (SortedMap.get?_erase m.timers.armed id id').trans (if_neg hid)

lemma once_get? (m : Mover) (id id' : SessionId) (delay : Duration) :
    (m.timers.once id delay id).armed.get? id' =
      if id' = id then some ⟨m.timers.now + delay, none, id⟩ else m.timers.armed.get? id' :=
  SortedMap.get?_insert m.timers.armed id id' _

lemma renews_stop (h : m.outbound.get? id = some s) (hs : s.stopped = false)
    (out : List Output) : Renews m id (m.stop id, out) := by
  rw [stop_of_active h hs]
  exact ⟨fun id' hid => cancel_get?_of_ne m hid, .inl (by simp)⟩

lemma renews_fail (h : m.outbound.get? id = some s) (hs : s.stopped = false) (reason : String) :
    Renews m id (m.fail id reason) := by
  unfold fail
  rw [h]
  exact renews_stop h hs _

lemma renews_transmit (h : m.outbound.get? id = some s) {message : Message}
    (hm : message.outboundSession? = some id) : Renews m id (m.transmit id message) := by
  have hframes : framesOf id (m.transmit id message).2 ≠ [] := by
    rw [transmit_frames h hm]
    exact List.cons_ne_nil _ _
  unfold transmit at hframes ⊢
  rw [h] at hframes ⊢
  refine ⟨fun id' hid => (once_get? m id id' _).trans (if_neg hid), .inr ⟨hframes,
    { s with
      inFlight := some message
      attempts := 1
      retryInterval := m.baseInterval s.destination }, ?_, ?_⟩⟩
  · exact (setSession_get? m id id _).trans (if_pos rfl)
  · exact ⟨rfl, rfl, (once_get? m id id _).trans (if_pos rfl)⟩

lemma renews_serve (h : m.outbound.get? id = some s) (hs : s.stopped = false) (quota : UInt64) :
    Renews m id (m.serve id quota) := by
  have hset : ∀ s' : SenderSession, (m.setSession id s').outbound.get? id = some s' := fun s' =>
    (setSession_get? m id id s').trans (if_pos rfl)
  unfold serve
  rw [h]
  simp only
  split
  · refine (renews_fail (hset _) ?_ _).of_others (fun _ _ => rfl) rfl
    exact hs
  · exact (renews_transmit (hset _) rfl).of_others (fun _ _ => rfl) rfl

lemma renews_proceed (h : m.outbound.get? id = some s) (hs : s.stopped = false) :
    Renews m id (m.proceed id) := by
  unfold proceed
  rw [h]
  simp only
  split
  · rename_i quota grants hgrants
    have hset : (m.setSession id { s with grants }).outbound.get? id = some { s with grants } :=
      (setSession_get? m id id _).trans (if_pos rfl)
    exact (renews_serve hset hs quota).of_others (fun _ _ => rfl) rfl
  · exact renews_transmit h rfl

/-! ## Timers and inputs -/

lemma advances_inbound {src : NodeId} (hactive : m.activeSession? src id = some s)
    (message : Message) : m.advances (.inbound src message) id = s.awaits id message := by
  unfold advances
  simp only [hactive]
  rfl

lemma advances_inbound_of_none {src : NodeId} (hactive : m.activeSession? src id = none)
    (message : Message) : m.advances (.inbound src message) id = false := by
  unfold advances
  simp only [hactive]
  rfl

/-- An answer that the session waits for renews it, and any other one is ignored or kept. -/
lemma onAck_cases (m : Mover) (src : NodeId) (id : SessionId) :
    m.advances (.inbound src (.ack id)) id = true ∧ Renews m id (m.onAck src id) ∨
      m.advances (.inbound src (.ack id)) id = false ∧ Undisturbed m (m.onAck src id) := by
  unfold onAck
  split
  · rename_i hnone
    exact .inr ⟨advances_inbound_of_none hnone _, rfl, rfl⟩
  · rename_i s hactive
    obtain ⟨-, hs, -⟩ := activeSession?_eq_some hactive
    rw [advances_inbound hactive]
    split
    · rename_i hstate
      refine .inl ⟨by simp [SenderSession.awaits, hstate], ?_⟩
      exact (renews_proceed (answered_get? m id s .waiting) hs).of_others
        (fun _ hid => cancel_get?_of_ne m hid) rfl
    · rename_i hstate
      exact .inr ⟨by simp [SenderSession.awaits, hstate], rfl, rfl⟩

lemma onClearToSend_cases (m : Mover) (src : NodeId) (id : SessionId) (quota : UInt64) :
    m.advances (.inbound src (.clearToSend id quota)) id = true ∧
        Renews m id (m.onClearToSend src id quota) ∨
      m.advances (.inbound src (.clearToSend id quota)) id = false ∧
        Undisturbed m (m.onClearToSend src id quota) := by
  unfold onClearToSend
  split
  · rename_i hnone
    exact .inr ⟨advances_inbound_of_none hnone _, rfl, rfl⟩
  · rename_i s hactive
    obtain ⟨-, hs, -⟩ := activeSession?_eq_some hactive
    rw [advances_inbound hactive]
    split
    · rename_i hstate
      refine .inl ⟨by simp [SenderSession.awaits, hstate], ?_⟩
      exact (renews_serve (answered_get? m id s .waiting) hs quota).of_others
        (fun _ hid => cancel_get?_of_ne m hid) rfl
    all_goals
      rename_i hstate
      exact .inr ⟨by simp [SenderSession.awaits, hstate], rfl, rfl⟩

lemma onAllReceived_cases (m : Mover) (src : NodeId) (id : SessionId) :
    m.advances (.inbound src (.allReceived id)) id = true ∧ Renews m id (m.onAllReceived src id) ∨
      m.advances (.inbound src (.allReceived id)) id = false ∧
        Undisturbed m (m.onAllReceived src id) := by
  unfold onAllReceived
  split
  · rename_i hnone
    exact .inr ⟨advances_inbound_of_none hnone _, rfl, rfl⟩
  · rename_i s hactive
    obtain ⟨-, hs, -⟩ := activeSession?_eq_some hactive
    rw [advances_inbound hactive]
    split
    · rename_i hstate
      exact .inr ⟨by simp [SenderSession.awaits, hstate], rfl, rfl⟩
    · rename_i hstate
      rw [not_not] at hstate
      refine .inl ⟨by simp [SenderSession.awaits, hstate], ?_⟩
      split
      · -- the answer to the final page ends the session, to any other page it goes on
        have hset := (setSession_get? m id id { s with
          state := .done, inFlight := none }).trans (if_pos rfl)
        exact (renews_stop hset hs _).of_others (fun _ _ => rfl) rfl
      · exact (renews_proceed (answered_get? m id s .waiting) hs).of_others
          (fun _ hid => cancel_get?_of_ne m hid) rfl

lemma finishTeardown_timers (m : Mover) : m.finishTeardown.timers = m.timers := by
  obtain ⟨_, _, _, hdone⟩ := finishTeardown_eq m
  rw [hdone]

/-- A session that was renewed and stays open has its timer armed for its first frame. -/
lemma Renews.armed (h : Renews m id r) (hs : r.1.finishTeardown.outbound.get? id = some s) :
    framesOf id r.2 ≠ [] ∧ FirstSent m r.1.finishTeardown id s := by
  rw [finishTeardown_get?] at hs
  split at hs
  · cases hs
  · rename_i hkept
    obtain ⟨hframes, s', hget, hsent⟩ := h.own.resolve_left hkept
    obtain rfl := Option.some_inj.1 (hget.symm.trans hs)
    refine ⟨hframes, hsent.once, hsent.wait, ?_⟩
    rw [finishTeardown_timers]
    exact hsent.armed

lemma Undisturbed.timely (h : Undisturbed m r) : Timely m false id r.1.finishTeardown r.2 := by
  intro s hs
  refine .inr ⟨rfl, ?_, ?_⟩
  · rw [h.2]
    rfl
  · rw [finishTeardown_timers, h.1]

/-- An answer for one session is timely for all. -/
lemma ActsOn.timely {src : NodeId} {message : Message} (hacts : ActsOn m id' r)
    (ht : m.teardown = [])
    (h : m.advances (.inbound src message) id' = true ∧ Renews m id' r ∨
      m.advances (.inbound src message) id' = false ∧ Undisturbed m r)
    (hothers : ∀ s, id ≠ id' → SenderSession.awaits s id message = false) :
    Timely m (m.advances (.inbound src message) id) id r.1.finishTeardown r.2 := by
  by_cases hid : id = id'
  · subst hid
    rcases h with ⟨hinput, hrenews⟩ | ⟨hinput, hkept⟩
    · exact fun s hs => .inl ⟨hinput, hrenews.armed hs⟩
    · rw [hinput]
      exact hkept.timely
  · have hinput : m.advances (.inbound src message) id = false := by
      cases hactive : m.activeSession? src id with
      | none => exact advances_inbound_of_none hactive message
      | some s => exact (advances_inbound hactive message).trans (hothers s hid)
    refine fun s hs => .inr ⟨hinput, (hacts.other ht hid).1, ?_⟩
    rw [finishTeardown_timers]
    rcases h with ⟨-, hrenews⟩ | ⟨-, hkept⟩
    · exact hrenews.others id hid
    · rw [hkept.1]

/-- A session that stays open while another one is stopped keeps its timer. -/
lemma stop_timers (hactive : ∀ id s, m.outbound.get? id = some s → s.stopped = false)
    (hs : (m.stop id').finishTeardown.outbound.get? id = some s) :
    (m.stop id').finishTeardown.timers.armed.get? id = m.timers.armed.get? id := by
  rw [finishTeardown_timers]
  cases hget : m.outbound.get? id' with
  | none => rw [stop_of_none hget]
  | some s' =>
    -- the session that is stopped is gone, so it is not the one that stays open
    have hne : id ≠ id' := by
      rintro rfl
      cases hs.symm.trans (stop_get?_self hget (hactive id s' hget))
    exact (renews_stop hget (hactive id' s' hget) []).others id hne

lemma vacate_timers (hactive : ∀ id s, m.outbound.get? id = some s → s.stopped = false)
    (destination : NodeId) (hs : (m.vacate destination).outbound.get? id = some s) :
    (m.vacate destination).timers.armed.get? id = m.timers.armed.get? id := by
  unfold vacate at hs ⊢
  split at hs
  · exact stop_timers hactive hs
  · rfl

lemma timely_startSend (ht : m.teardown = [])
    (hactive : ∀ id s, m.outbound.get? id = some s → s.stopped = false)
    (destination : NodeId) (range : KeyRange) (viewId : UInt64) (id : SessionId) :
    Timely m (m.advances (.command (.startSend destination range viewId)) id) id
      (m.startSend destination range viewId).1.finishTeardown
      (m.startSend destination range viewId).2 := by
  have hinput : m.advances (.command (.startSend destination range viewId)) id =
      decide (id = m.ids.next.1) := by
    unfold advances opening?
    simp only
    by_cases hid : id = m.ids.next.1
    · simp [hid]
    · simp [hid, Ne.symm hid]
  obtain ⟨⟨_, _, _, _, hrest⟩, -⟩ := ended_vacate ht destination
  have hids : (m.vacate destination).ids = m.ids := by rw [hrest]
  have ht₀ : (m.vacate destination).teardown = [] := by rw [hrest, ht]
  have hbase : (m.vacate destination).baseInterval = m.baseInterval := by
    rw [hrest]
    rfl
  have hkept : ∀ s, (m.vacate destination).outbound.get? id = some s →
      (m.vacate destination).timers.armed.get? id = m.timers.armed.get? id := fun _ hs =>
    vacate_timers hactive destination hs
  rw [startSend_eq, hinput, ← hids]
  unfold Timely
  -- how the destination was vacated does not matter any more
  generalize m.vacate destination = m₀ at ht₀ hbase hkept
  generalize (⟨range, viewId, m₀.config.compression⟩ : TransferMetadata) = metadata
  have hget : ∀ id, (m₀.withNewSession destination metadata).outbound.get? id =
      if id = m₀.ids.next.1 then
        some (.start destination metadata (m₀.baseInterval destination))
      else m₀.outbound.get? id := fun id => setSession_get? m₀ _ id _
  have hrenews : Renews (m₀.withNewSession destination metadata) m₀.ids.next.1
      ((m₀.withNewSession destination metadata).transmit m₀.ids.next.1
        (.initiateTransfer m₀.ids.next.1 metadata)) :=
    renews_transmit ((hget m₀.ids.next.1).trans (if_pos rfl)) rfl
  have hacts : ActsOn (m₀.withNewSession destination metadata) m₀.ids.next.1
      ((m₀.withNewSession destination metadata).transmit m₀.ids.next.1
        (.initiateTransfer m₀.ids.next.1 metadata)) := ActsOn.transmit _ rfl
  intro s hs
  by_cases hid : id = m₀.ids.next.1
  · subst hid
    obtain ⟨hframes, hsent⟩ := hrenews.armed hs
    exact .inl ⟨decide_eq_true rfl, hframes, hsent.of_base hbase⟩
  · obtain ⟨hframes, -, hsame⟩ := hacts.other ht₀ hid
    rw [hsame, hget, if_neg hid] at hs
    refine .inr ⟨decide_eq_false hid, hframes, ?_⟩
    rw [finishTeardown_timers]
    exact (hrenews.others id hid).trans (hkept s hs)

lemma timely_onCommand (ht : m.teardown = [])
    (hactive : ∀ id s, m.outbound.get? id = some s → s.stopped = false) (command : MoverCommand)
    (id : SessionId) : Timely m (m.advances (.command command) id) id
      (m.onCommand command).1.finishTeardown (m.onCommand command).2 := by
  cases command with
  | startSend destination range viewId =>
    exact timely_startSend ht hactive destination range viewId id
  | stopSend destination =>
    unfold onCommand
    simp only
    split
    · exact fun s hs => .inr ⟨rfl, rfl, stop_timers hactive hs⟩
    · exact Undisturbed.timely (r := (m, [])) ⟨rfl, rfl⟩
  | stopAll =>
    intro s hs
    cases (onCommand_stopAll_get? hactive id).symm.trans hs

lemma timely_onMessage (ht : m.teardown = []) (src : NodeId) (message : Message)
    (id : SessionId) : Timely m (m.advances (.inbound src message) id) id
      (m.onMessage src message).1.finishTeardown (m.onMessage src message).2 := by
  have hforeign : (∀ s : SenderSession, s.awaits id message = false) →
      m.advances (.inbound src message) id = false := by
    intro hnone
    cases hactive : m.activeSession? src id with
    | none => exact advances_inbound_of_none hactive message
    | some s => exact (advances_inbound hactive message).trans (hnone s)
  cases hs : message.outboundSession? with
  | some id' =>
    have hreceives := receives_onMessage m src hs
    obtain ⟨_, _, _, hrest⟩ := hreceives.rest
    have hinput := hforeign fun s => by
      cases message with
      | ack => cases hs
      | clearToSend => cases hs
      | allReceived => cases hs
      | _ => rfl
    refine fun _ _ => .inr ⟨hinput, hreceives.framesOf_eq_nil id, ?_⟩
    rw [finishTeardown_timers, hrest]
  | none =>
    cases message with
    | ack id' =>
      refine (ActsOn.onAck m src id').timely ht (onAck_cases m src id') fun s hid => ?_
      simp [SenderSession.awaits, Ne.symm hid]
    | clearToSend id' quota =>
      refine (ActsOn.onClearToSend m src id' quota).timely ht (onClearToSend_cases m src id' quota)
        fun s hid => ?_
      simp [SenderSession.awaits, Ne.symm hid]
    | allReceived id' =>
      refine (ActsOn.onAllReceived m src id').timely ht (onAllReceived_cases m src id')
        fun s hid => ?_
      simp [SenderSession.awaits, Ne.symm hid]
    | initiateTransfer => cases hs
    | requestToSend => cases hs
    | data => cases hs
    | _ =>
      rw [hforeign fun _ => rfl]
      exact Undisturbed.timely (r := (m, [])) ⟨rfl, rfl⟩

/-- The timer of another session is left alone by a retransmission timer. -/
lemma onRetry_timers (h : m.onRetry id' = .ok r)
    (hid : id ≠ id') : r.1.timers.armed.get? id = m.timers.armed.get? id := by
  obtain ⟨-, rfl⟩ | ⟨s, message, hget, -, hs, ⟨-, rfl⟩ | ⟨-, interval, -, rfl⟩⟩ :=
    onRetry_cases h
  · rfl
  · exact (renews_fail hget hs _).others id hid
  · exact (once_get? m id' id interval).trans (if_neg hid)

/-- Whatever a mover handles but the retransmission timer of a session itself, the session sends a
first frame with its timer armed for that, if the input advances it, or stays as silent as it was,
or is not open any more. -/
theorem timely_of_handle {out : List Output} (hm : m.Tidy)
    (hactive : ∀ id s, m.outbound.get? id = some s → s.stopped = false)
    (h : m.handle input = .ok (m', out)) (hother : input ≠ .retry id) :
    Timely m (m.advances input id) id m' out := by
  cases input with
  | command command =>
    cases h
    exact timely_onCommand hm.teardown hactive command id
  | inbound src message =>
    cases h
    exact timely_onMessage hm.teardown src message id
  | retry id' =>
    obtain ⟨r, hretry, rfl, rfl⟩ := handle_retry h
    have hid : id ≠ id' := by
      rintro rfl
      exact hother rfl
    refine fun _ _ => .inr ⟨rfl, ?_, ?_⟩
    · exact ((ActsOn.onRetry (hm.inFlight id') hretry).other hm.teardown hid).1
    · rw [finishTeardown_timers]
      exact onRetry_timers hretry hid

end

end Mover

/-! ## Open sessions -/

namespace Mover

/-- A session that goes on: it waits for an answer to the frame of its state, which was sent as
often as it has counted and not more often than it may be, and the timer to send it again is armed,
or has just fired. -/
structure Alive (m : Mover) (id : SessionId) (due : Prop) (sent : List Envelope)
    (s : SenderSession) : Prop where
  active : s.stopped = false
  outstanding : ∃ message, s.Outstanding id message ∧
    sent = List.replicate s.attempts ⟨m.self, s.destination, message⟩
  counted : 0 < s.attempts
  limit : 0 < m.config.maxAttempts → s.attempts ≤ m.config.maxAttempts
  timer : due ∨ m.ArmedFor id

section

variable {m m' : Mover} {id : SessionId} {s s' : SenderSession} {due due' : Prop}
  {sent : List Envelope}

/-- A session that takes a turn goes on, with another frame if the turn advances it, and otherwise
with its own. -/
lemma Alive.of_turn {opening : Option (NodeId × TransferMetadata)} {granted : Option UInt64}
    {o : Option SenderSession} {told : List MoverEvent} {advances : Bool} {out : List Output}
    (hturn : SessionTurn m.compressor m.store m.self id opening granted o (framesOf id out) told
      (some s'))
    (ho : ∀ s, o = some s → Alive m id due sent s)
    (htimely : Timely m advances id m' out) (hs' : m'.outbound.get? id = some s')
    (hself : m'.self = m.self) (hconfig : m'.config = m.config) :
    Alive m' id due (if advances then framesOf id out else sent ++ framesOf id out) s' := by
  have htimer := htimely s' hs'
  generalize framesOf id out = frames at hturn htimer ⊢
  have hquiet : frames = [] → Alive m id due sent s' →
      Alive m' id due (if advances then frames else sent ++ frames) s' := by
    intro hframes h
    obtain ⟨rfl, -, hsame⟩ := htimer.resolve_left fun hsends => hsends.2.1 hframes
    rw [hframes, if_neg (by simp), List.append_nil]
    exact ⟨h.active, hself.symm ▸ h.outstanding, h.counted, hconfig.symm ▸ h.limit,
      h.timer.imp_right fun ⟨deadline, hget⟩ => ⟨deadline, hsame.trans hget⟩⟩
  have hsends : frames ≠ [] → advances = true ∧ m'.ArmedFor id ∧ s'.attempts = 1 := by
    intro hne
    obtain ⟨hadvances, -, hsent⟩ := htimer.resolve_right fun hstill => hne hstill.2.1
    exact ⟨hadvances, ⟨_, hsent.armed⟩, hsent.once⟩
  cases hturn with
  | same => exact hquiet rfl (ho s' rfl)
  | late => exact hquiet rfl (ho s' rfl)
  | queue s quota =>
    have h := ho s rfl
    exact hquiet rfl ⟨h.active, h.outstanding, h.counted, h.limit, h.timer⟩
  | again s message interval =>
    -- its own timer did not fire, so it does not send a frame a second time
    obtain ⟨-, -, honce⟩ := hsends (List.cons_ne_nil _ _)
    have hcounted := (ho s rfl).counted
    have : s.attempts + 1 = 1 := honce
    omega
  | ask s interval =>
    obtain ⟨rfl, harmed, -⟩ := hsends (List.cons_ne_nil _ _)
    rw [← hself]
    exact ⟨(ho s rfl).active, ⟨_, ⟨rfl, rfl⟩, rfl⟩, Nat.one_pos, fun hmax => hmax, .inr harmed⟩
  | page s _ quota grants interval page =>
    obtain ⟨rfl, harmed, -⟩ := hsends (List.cons_ne_nil _ _)
    rw [← hself]
    exact ⟨(ho s rfl).active, ⟨_, ⟨rfl, _, rfl⟩, rfl⟩, Nat.one_pos, fun hmax => hmax, .inr harmed⟩
  | opened _ destination metadata interval =>
    obtain ⟨rfl, harmed, -⟩ := hsends (List.cons_ne_nil _ _)
    rw [← hself]
    exact ⟨rfl, ⟨_, ⟨rfl, rfl⟩, rfl⟩, Nat.one_pos, fun hmax => hmax, .inr harmed⟩

/-- The retransmission timer of a session that awaits an answer ends it, or sends the frame again
and is armed anew. -/
lemma handle_retry_cases {message : Message} {out : List Output} (hm : m.Tidy)
    (hget : m.outbound.get? id = some s) (hflight : s.inFlight = some message)
    (hs : s.stopped = false) (h : m.handle (.retry id) = .ok (m', out)) :
    (0 < m.config.maxAttempts ∧ m.config.maxAttempts ≤ s.attempts) ∧
        m'.outbound.get? id = none ∨
      ¬ (0 < m.config.maxAttempts ∧ m.config.maxAttempts ≤ s.attempts) ∧
        framesOf id out = [⟨m.self, s.destination, message⟩] ∧
        ∃ interval, m.config.NextWait s.retryInterval interval ∧
          m'.timers.armed.get? id = some ⟨m'.timers.now + interval, none, id⟩ ∧
          m'.outbound.get? id =
            some { s with attempts := s.attempts + 1, retryInterval := interval } := by
  obtain ⟨r, hretry, rfl, rfl⟩ := handle_retry h
  obtain ⟨hidle, -⟩ | ⟨s₁, message₁, hget₁, hflight₁, -,
      ⟨hlimit, rfl⟩ | ⟨hleft, interval, hnext, rfl⟩⟩ := onRetry_cases hretry
  · have hstopped := hidle s message hget hflight
    rw [hs] at hstopped
    cases hstopped
  · obtain rfl : s = s₁ := Option.some_inj.1 (hget.symm.trans hget₁)
    refine .inl ⟨hlimit, ?_⟩
    unfold fail
    rw [hget]
    exact stop_get?_self hget hs
  · obtain rfl : s = s₁ := Option.some_inj.1 (hget.symm.trans hget₁)
    obtain rfl : message = message₁ := Option.some_inj.1 (hflight.symm.trans hflight₁)
    refine .inr ⟨hleft, framesOf_sendTo m s.destination (hm.inFlight id s message hget hflight),
      interval, hnext, ?_, armed_get? hm.teardown id _ _⟩
    rw [finishTeardown_timers]
    exact (once_get? m id id interval).trans (if_pos rfl)

/-- A session that stays open when its retransmission timer is handled goes on with its frame. -/
lemma Alive.of_retry {out : List Output} (hm : m.Tidy) (hget : m.outbound.get? id = some s)
    (h : Alive m id due sent s) (hhandle : m.handle (.retry id) = .ok (m', out))
    (hs' : m'.outbound.get? id = some s') :
    Alive m' id due' (sent ++ framesOf id out) s' := by
  obtain ⟨message, hout, hsent⟩ := h.outstanding
  obtain ⟨hself, hconfig, -⟩ := handle_self hm hhandle
  rcases handle_retry_cases hm hget hout.1 h.active hhandle with
    ⟨-, hgone⟩ | ⟨hleft, hframes, interval, -, harmed, hget'⟩
  · rw [hgone] at hs'
    cases hs'
  · obtain rfl := Option.some_inj.1 (hs'.symm.trans hget')
    rw [hframes, hsent, ← hself]
    refine ⟨h.active, ⟨message, hout, ?_⟩, Nat.succ_pos _, fun hmax => ?_, .inr ⟨_, harmed⟩⟩
    · exact List.replicate_succ'.symm
    · rw [hconfig] at hmax ⊢
      have hbelow : ¬ m.config.maxAttempts ≤ s.attempts := fun hle => hleft ⟨hmax, hle⟩
      exact Nat.not_le.1 hbelow

end

/-! ## Sessions that are given up -/

/-- What is told of a session whose frame was sent as often as it may be. -/
def exhausted (id : SessionId) (destination : NodeId) (attempts : Nat) : MoverEvent :=
  .sendFailed id destination (Fault.handshakeExhausted destination.render attempts).message

section

variable {m m' : Mover} {id : SessionId} {s : SenderSession} {destination : NodeId} {n : Nat}
  {due : Prop} {sent : List Envelope}

/-- It can be told from a range that could not be read: the reasons begin with other letters. -/
lemma exhausted_not_scanFailure : ¬ (exhausted id destination n).IsScanFailure := by
  intro h
  obtain ⟨fault, hreason⟩ : ∃ fault : Fault,
      "Transfer handshake to " ++ destination.render ++ " gave up after " ++ toString n ++
        " attempts" = "store scan failed: " ++ fault.message := h
  have hletters := congrArg String.toList hreason
  obtain ⟨_, hexhausted⟩ : ∃ rest, "Transfer handshake to ".toList = 'T' :: rest := ⟨_, rfl⟩
  obtain ⟨_, hscan⟩ : ∃ rest, "store scan failed: ".toList = 's' :: rest := ⟨_, rfl⟩
  simp only [String.toList_append, hexhausted, hscan, List.cons_append] at hletters
  cases (List.cons_eq_cons.1 hletters).1

/-- A session is told to be given up only when its retransmission timer finds that its frame was
sent as often as it may be. -/
lemma exhausted_of_handle {input : Input} {out : List Output}
    (h : m.handle input = .ok (m', out)) (htold : .event (exhausted id destination n) ∈ out) :
    input = .retry id ∧ 0 < m.config.maxAttempts ∧ ∃ s, m.outbound.get? id = some s ∧
      s.destination = destination ∧ m.config.maxAttempts ≤ s.attempts := by
  by_cases hretry : ∃ id', input = .retry id'
  · obtain ⟨id', rfl⟩ := hretry
    obtain ⟨r, hr, -, rfl⟩ := handle_retry h
    obtain ⟨-, rfl⟩ | ⟨s, message, hget, -, -, ⟨⟨hmax, hlimit⟩, rfl⟩ | ⟨-, interval, -, rfl⟩⟩ :=
      onRetry_cases hr
    · cases htold
    · unfold fail at htold
      rw [hget] at htold
      have hsame := List.mem_singleton.1 htold
      simp only [exhausted, Output.event.injEq, MoverEvent.sendFailed.injEq] at hsame
      obtain ⟨rfl, rfl, -⟩ := hsame
      exact ⟨rfl, hmax, s, hget, rfl, hlimit⟩
    · cases List.mem_singleton.1 htold
  · rcases told_of_handle h (fun id' heq => hretry ⟨id', heq⟩) htold with
      hscan | ⟨_, _, _, _, _, heq⟩ | ⟨_, _, _, -, -, -, -, -, heq⟩
    · exact absurd hscan exhausted_not_scanFailure
    · cases heq
    · cases heq

/-- When it does, the session is told to be given up. -/
lemma Alive.exhausted (h : Alive m id due sent s) (hget : m.outbound.get? id = some s)
    (hmax : 0 < m.config.maxAttempts) (hlimit : sent.length = m.config.maxAttempts) :
    ∃ m', m.handle (.retry id) =
      .ok (m', [.event (Mover.exhausted id s.destination s.attempts)]) := by
  obtain ⟨message, ⟨hflight, -⟩, hsent⟩ := h.outstanding
  have hcount : m.config.maxAttempts ≤ s.attempts := by
    rw [← hlimit, hsent, List.length_replicate]
  have hretry : m.onRetry id =
      .ok (m.fail id (Fault.handshakeExhausted s.destination.render s.attempts).message) := by
    unfold onRetry
    simp [hget, hflight, h.active, hmax, hcount]
  refine ⟨(m.stop id).finishTeardown, ?_⟩
  unfold handle
  simp only [hretry, fail, hget]
  rfl

end

/-! ## Moments -/

/-- The session whose retransmission timer is handled. -/
def Happening.retry? : Happening → Option SessionId
  | .input (.retry id) => some id
  | .input (.command _) | .input (.inbound _ _) | .amid _ => none

/-- Whether a session goes over to another frame: it is opened, or what it waits for is answered. -/
def Moment.advances (x : Moment) (id : SessionId) : Bool :=
  match x.happening with
  | .input input => x.before.advances input id
  | .amid _ => false

/-- The moments since the frame that a session awaits the answer to became that frame. -/
def sinceAwaited (id : SessionId) (past : List Moment) : List Moment :=
  past.foldl (fun recent x => if x.advances id then [x] else recent ++ [x]) []

section

variable {m : Mover} {h : Happening} {x : Moment} {id : SessionId} {s : SenderSession}

lemma sinceAwaited_concat (id : SessionId) (past : List Moment) (x : Moment) :
    sinceAwaited id (past ++ [x]) =
      if x.advances id then [x] else sinceAwaited id past ++ [x] := by
  unfold sinceAwaited
  rw [List.foldl_append, List.foldl_cons, List.foldl_nil]

lemma framesIn_sinceAwaited_concat (id : SessionId) (past : List Moment) (x : Moment) :
    framesIn id (sinceAwaited id (past ++ [x])) =
      if x.advances id then framesOf id x.out
      else framesIn id (sinceAwaited id past) ++ framesOf id x.out := by
  rw [sinceAwaited_concat]
  split
  · exact List.append_nil _
  · exact framesIn_concat id _ x

lemma config_of_meet (hm : m.Tidy) (hx : m.meet h = .ok x) : x.after.config = m.config := by
  obtain ⟨-, -, ⟨input, -, hhandle⟩ | ⟨w, -, hafter, -⟩⟩ := meet_cases hx
  · exact (handle_self hm hhandle).2.1
  · rw [hafter]
    rfl

lemma timely_of_meet (hm : m.Tidy)
    (hactive : ∀ id s, m.outbound.get? id = some s → s.stopped = false)
    (hx : m.meet h = .ok x) (hother : h.retry? ≠ some id) :
    Timely m (x.advances id) id x.after x.out := by
  unfold Moment.advances
  obtain ⟨hbefore, hhappening, ⟨input, rfl, hhandle⟩ | ⟨w, rfl, hafter, hout⟩⟩ := meet_cases hx
  · rw [hhappening, hbefore]
    refine timely_of_handle hm hactive hhandle ?_
    rintro rfl
    exact hother rfl
  · rw [hhappening, hafter, hout]
    exact fun _ _ => .inr ⟨rfl, rfl, rfl⟩

/-- The session whose retransmission timer is handled was open before, if it still is. -/
lemma retry_of_meet (hm : m.Tidy) (hx : m.meet h = .ok x) (hretry : h.retry? = some id) :
    m.handle (.retry id) = .ok (x.after, x.out) ∧ x.advances id = false ∧
      (x.after.outbound.get? id = some s → ∃ s', m.outbound.get? id = some s') := by
  have hturn := sessionTurn_of_meet hm hx id
  obtain ⟨-, hhappening, ⟨input, rfl, hhandle⟩ | ⟨w, rfl, -⟩⟩ := meet_cases hx
  · obtain rfl : input = .retry id := by
      cases input with
      | retry id' => exact congrArg Input.retry (Option.some_inj.1 hretry)
      | command => cases hretry
      | inbound => cases hretry
    have hown : x.advances id = false ∧ x.opening? id = none := by
      unfold Moment.advances Moment.opening?
      rw [hhappening]
      exact ⟨rfl, rfl⟩
    refine ⟨hhandle, hown.1, fun hs => ?_⟩
    cases hget : m.outbound.get? id with
    | none =>
      rw [hget, hown.2, hs] at hturn
      cases hturn.of_none.1
    | some s' => exact ⟨s', rfl⟩
  · cases hretry

/-- Open sessions go on in every moment of a mover whose open sessions do. A fired timer is still to
be handled after it if it was before, unless this is when it is handled. -/
lemma alive_of_meet {due due' : SessionId → Prop} {past : List Moment} (hm : m.Tidy)
    (halive : ∀ id s, m.outbound.get? id = some s →
      Alive m id (due id) (framesIn id (sinceAwaited id past)) s)
    (hx : m.meet h = .ok x) (hdue : h.retry? ≠ some id → due id → due' id)
    (hs : x.after.outbound.get? id = some s) :
    Alive x.after id (due' id) (framesIn id (sinceAwaited id (past ++ [x]))) s := by
  rw [framesIn_sinceAwaited_concat]
  -- only its own timer makes a session send the frame again that it awaits the answer to
  by_cases hretry : h.retry? = some id
  · obtain ⟨hhandle, hown, hopen⟩ := retry_of_meet hm hx hretry
    obtain ⟨s', hget⟩ := hopen hs
    rw [hown]
    exact (halive id s' hget).of_retry hm hget hhandle hs
  · have htimely := timely_of_meet hm (fun id s hget => (halive id s hget).active) hx hretry
    have hturn := sessionTurn_of_meet hm hx id
    rw [hs] at hturn
    have hnext := Alive.of_turn hturn (fun s => halive id s) htimely hs (self_of_meet hm hx)
      (config_of_meet hm hx)
    exact ⟨hnext.active, hnext.outstanding, hnext.counted, hnext.limit,
      hnext.timer.imp_left (hdue hretry)⟩

end

end Mover

/-! ## Timers that fire -/

/-- A timer that fires is gone, or armed again if it repeats. -/
lemma Timers.fire_get? {κ ε : Type} [Ord κ] [Std.TransOrd κ] [Std.LawfulEqOrd κ] [DecidableEq κ]
    (t : Timers κ ε) (key key' : κ) (timer : Timer ε) :
    (t.fire key timer).armed.get? key' =
      if key' = key then
        timer.period.map fun p => { timer with deadline := timer.deadline + p }
      else t.armed.get? key' := by
  unfold fire
  simp only
  split
  · rename_i hperiod
    rw [hperiod]
    exact SortedMap.get?_erase ..
  · rename_i p hperiod
    rw [hperiod]
    exact SortedMap.get?_insert ..

/-- A mover with its retransmission timers and its past. -/
structure TimedMover where
  mover : Mover
  /-- The sessions whose timers fired and are still to be handled. -/
  fired : List SessionId
  past : List Mover.Moment

namespace TimedMover

inductive Event where
  /-- The mover handles an input, or something changes around it. A retransmission timer is handled
  whether one fired or not. -/
  | happens (h : Mover.Happening)
  /-- The retransmission timer of a session fires. -/
  | expires (id : SessionId)

def start (mover : Mover) : TimedMover := ⟨mover, [], []⟩

def step (w : TimedMover) : Event → Except Mover.Crash TimedMover
  | .happens h => (w.mover.meet h).map fun x =>
    ⟨x.after, h.retry?.elim w.fired w.fired.erase, w.past ++ [x]⟩
  | .expires id =>
    match w.mover.timers.armed.get? id with
    | none => .ok w
    | some t => .ok
      { w with
        mover := { w.mover with timers := w.mover.timers.fire id t }
        fired := w.fired ++ [t.event] }

def run (w : TimedMover) (events : List Event) : Except Mover.Crash TimedMover :=
  events.foldlM step w

/-- Every timer that fires is handled next. -/
inductive Prompt : List Event → Prop where
  | nil : Prompt []
  | happens {events : List Event} (h : Mover.Happening) :
      Prompt events → Prompt (.happens h :: events)
  | expires {events : List Event} (id : SessionId) :
      Prompt events → Prompt (.expires id :: .happens (.input (.retry id)) :: events)

/-- Every open session goes on. Where a timer is not armed, it is due to be handled. -/
structure Steady (w : TimedMover) (due : SessionId → Prop) (node : NodeId)
    (tuning : TransferConfig) : Prop where
  tidy : w.mover.Tidy
  name : w.mover.self = node
  tuned : w.mover.config = tuning
  alive : ∀ id s, w.mover.outbound.get? id = some s →
    w.mover.Alive id (due id) (Mover.framesIn id (Mover.sinceAwaited id w.past)) s

variable {w w' : TimedMover} {due due' : SessionId → Prop} {node : NodeId}
  {tuning : TransferConfig} {id : SessionId} {events : List Event}

lemma run_cons {event : Event} (hrun : w.run (event :: events) = .ok w') :
    ∃ w₁, w.step event = .ok w₁ ∧ w₁.run events = .ok w' := by
  unfold run at hrun
  rw [List.foldlM_cons] at hrun
  cases hstep : w.step event with
  | error crash => simp [hstep, bind, Except.bind] at hrun
  | ok w₁ =>
    simp only [hstep, bind, Except.bind] at hrun
    exact ⟨w₁, rfl, hrun⟩

lemma happens_eq_ok {happening : Mover.Happening} (hstep : w.step (.happens happening) = .ok w') :
    ∃ x, w.mover.meet happening = .ok x ∧
      w' = ⟨x.after, happening.retry?.elim w.fired w.fired.erase, w.past ++ [x]⟩ := by
  unfold step at hstep
  cases hx : w.mover.meet happening with
  | error crash => simp [hx, Except.map] at hstep
  | ok x =>
    simp only [hx, Except.map, Except.ok.injEq] at hstep
    exact ⟨x, rfl, hstep.symm⟩

lemma Steady.mono (h : w.Steady due node tuning) (hdue : ∀ id, due id → due' id) :
    w.Steady due' node tuning := by
  refine ⟨h.tidy, h.name, h.tuned, fun id s hs => ?_⟩
  have halive := h.alive id s hs
  exact ⟨halive.active, halive.outstanding, halive.counted, halive.limit,
    halive.timer.imp_left (hdue id)⟩

lemma Steady.happens (h : w.Steady due node tuning) {happening : Mover.Happening}
    (hstep : w.step (.happens happening) = .ok w')
    (hdue : ∀ id, happening.retry? ≠ some id → due id → due' id) :
    w'.Steady due' node tuning := by
  obtain ⟨x, hx, rfl⟩ := happens_eq_ok hstep
  exact ⟨Mover.tidy_of_meet h.tidy hx, (Mover.self_of_meet h.tidy hx).trans h.name,
    (Mover.config_of_meet h.tidy hx).trans h.tuned, fun id s hs =>
    Mover.alive_of_meet h.tidy h.alive hx (hdue id) hs⟩

/-- A timer that fires is one more that is due. -/
lemma Steady.expires (h : w.Steady due node tuning) (hstep : w.step (.expires id) = .ok w') :
    w'.Steady (fun id' => due id' ∨ id' = id ∧ id' ∈ w'.fired) node tuning := by
  unfold TimedMover.step at hstep
  simp only at hstep
  split at hstep
  · cases hstep
    exact h.mono fun _ => .inl
  · rename_i t ht
    cases hstep
    refine ⟨⟨h.tidy.teardown, h.tidy.inFlight⟩, h.name, h.tuned, fun id' s hs => ?_⟩
    have halive := h.alive id' s hs
    refine ⟨halive.active, halive.outstanding, halive.counted, halive.limit, ?_⟩
    rcases halive.timer with hdue | ⟨deadline, harmed⟩
    · exact .inl (.inl hdue)
    · by_cases hid : id' = id
      · -- the timer that fired was that of the session
        subst hid
        obtain rfl := Option.some_inj.1 (ht.symm.trans harmed)
        exact .inl (.inr ⟨rfl, List.mem_append_right _ List.mem_cons_self⟩)
      · exact .inr ⟨deadline, (Timers.fire_get? ..).trans ((if_neg hid).trans harmed)⟩

lemma mem_fired_of_expires {id' : SessionId} (hstep : w.step (.expires id) = .ok w')
    (h : id' ∈ w.fired) : id' ∈ w'.fired := by
  unfold TimedMover.step at hstep
  simp only at hstep
  split at hstep
  · cases hstep
    exact h
  · cases hstep
    exact List.mem_append_left _ h

lemma mem_fired_of_happens {happening : Mover.Happening}
    (hstep : w.step (.happens happening) = .ok w') (hother : happening.retry? ≠ some id)
    (h : id ∈ w.fired) : id ∈ w'.fired := by
  obtain ⟨x, -, rfl⟩ := happens_eq_ok hstep
  cases hretry : happening.retry? with
  | none => exact h
  | some id' =>
    have hne : id ≠ id' := by
      rintro rfl
      exact hother hretry
    exact (List.mem_erase_of_ne hne).2 h

/-- Timers that fired are due until they are handled. -/
lemma Steady.step (h : w.Steady (· ∈ w.fired) node tuning) {event : Event}
    (hstep : w.step event = .ok w') : w'.Steady (· ∈ w'.fired) node tuning := by
  cases event with
  | happens happening =>
    exact h.happens hstep fun id hother => mem_fired_of_happens hstep hother
  | expires id =>
    exact (h.expires hstep).mono fun id' hdue =>
      hdue.elim (mem_fired_of_expires hstep) And.right

theorem Steady.run (h : w.Steady (· ∈ w.fired) node tuning) (hrun : w.run events = .ok w') :
    w'.Steady (· ∈ w'.fired) node tuning :=
  foldlM_invariant (motive := fun w => w.Steady (· ∈ w.fired) node tuning)
    (fun _ _ _ hw hstep => hw.step hstep) h hrun

/-- No timer is due after a run in which each that fires is handled next. -/
theorem Steady.run_of_prompt (hprompt : Prompt events) (h : w.Steady (fun _ => False) node tuning)
    (hrun : w.run events = .ok w') : w'.Steady (fun _ => False) node tuning := by
  induction hprompt generalizing w with
  | nil =>
    cases hrun
    exact h
  | happens happening _ ih =>
    obtain ⟨w₁, hstep, hrest⟩ := run_cons hrun
    exact ih (h.happens hstep fun _ _ hdue => hdue) hrest
  | expires id _ ih =>
    obtain ⟨w₁, hfires, hrest⟩ := run_cons hrun
    obtain ⟨w₂, hretry, hrest⟩ := run_cons hrest
    -- the one timer that is due in between is the one that is handled then
    refine ih ((h.expires hfires).happens hretry fun id' hother hdue => ?_) hrest
    obtain ⟨rfl, -⟩ := hdue.resolve_left not_false
    exact hother rfl

lemma steady_start (node : NodeId) (tuning : TransferConfig) (store : Store) (ids : IdSource)
    (c : BlockCompression.Compressor) :
    (start (.start node tuning store ids c)).Steady due node tuning := by
  refine ⟨Mover.tidy_start node tuning store ids c, rfl, rfl, fun id s hs => ?_⟩
  cases (Mover.start_outbound node tuning store ids c id).symm.trans hs

/-- Whatever a mover handles, and whichever of its timers fire, every outbound session that is open
awaits the answer to a frame of its state, and the timer to send that frame again is armed, or has
fired and is still to be handled; it is always armed if each timer that fires is handled next. If
the number of attempts is limited, a session has counted how often the frame was sent since it
awaits the answer to it. So a session is told to be given up exactly when its timer is handled once
the frame was sent as often as it may be, and never if there is no limit. -/
theorem awaits_answer (node : NodeId) (tuning : TransferConfig) (store : Store) (ids : IdSource)
    (c : BlockCompression.Compressor) (events : List Event)
    (hrun : (start (.start node tuning store ids c)).run events = .ok w) :
    (∀ id s, w.mover.outbound.get? id = some s → ∃ message, s.Outstanding id message ∧
        (w.mover.ArmedFor id ∨ id ∈ w.fired ∧ ¬ Prompt events) ∧
        (0 < tuning.maxAttempts → s.attempts ≤ tuning.maxAttempts ∧
          Mover.framesIn id (Mover.sinceAwaited id w.past) =
            List.replicate s.attempts ⟨node, s.destination, message⟩)) ∧
      ∀ h id destination, (∃ x n, w.mover.meet h = .ok x ∧
          .event (Mover.exhausted id destination n) ∈ x.out) ↔
        0 < tuning.maxAttempts ∧ h = .input (.retry id) ∧
          ∃ s, w.mover.outbound.get? id = some s ∧ s.destination = destination ∧
            (Mover.framesIn id (Mover.sinceAwaited id w.past)).length = tuning.maxAttempts := by
  have hsteady : w.Steady (· ∈ w.fired) node tuning :=
    (steady_start node tuning store ids c).run hrun
  refine ⟨fun id s hs => ?_, fun h id destination => ⟨?_, ?_⟩⟩
  · have halive := hsteady.alive id s hs
    obtain ⟨message, houtstanding, hsent⟩ := halive.outstanding
    have hlimit := halive.limit
    rw [hsteady.tuned] at hlimit
    rw [hsteady.name] at hsent
    refine ⟨message, houtstanding, ?_, fun hmax => ⟨hlimit hmax, hsent⟩⟩
    rcases halive.timer with hfired | harmed
    · by_cases hprompt : Prompt events
      · have hnone := (steady_start node tuning store ids c).run_of_prompt hprompt hrun
        exact .inl ((hnone.alive id s hs).timer.resolve_left not_false)
      · exact .inr ⟨hfired, hprompt⟩
    · exact .inl harmed
  · rintro ⟨x, n, hx, htold⟩
    obtain ⟨-, -, ⟨input, rfl, hhandle⟩ | ⟨_, -, -, hout⟩⟩ := Mover.meet_cases hx
    · obtain ⟨rfl, hmax, s, hs, hdestination, hcount⟩ := Mover.exhausted_of_handle hhandle htold
      have halive := hsteady.alive id s hs
      obtain ⟨message, -, hsent⟩ := halive.outstanding
      have hlimit := halive.limit hmax
      rw [hsteady.tuned] at hmax hcount hlimit
      refine ⟨hmax, rfl, s, hs, hdestination, ?_⟩
      rw [hsent, List.length_replicate]
      exact Nat.le_antisymm hlimit hcount
    · rw [hout] at htold
      cases htold
  · rintro ⟨hmax, rfl, s, hs, rfl, hlimit⟩
    have halive := hsteady.alive id s hs
    rw [← hsteady.tuned] at hmax hlimit
    obtain ⟨m', hhandle⟩ := halive.exhausted hs hmax hlimit
    refine ⟨⟨w.mover, .input (.retry id), _, m'⟩, s.attempts, ?_, List.mem_singleton_self _⟩
    show (w.mover.handle (.retry id)).map _ = _
    rw [hhandle]
    rfl

namespace Impatient

def a : NodeId := ⟨"a", 1, none⟩

def b : NodeId := ⟨"b", 1, none⟩

/-- Each frame is sent once. -/
def brief : TransferConfig := { maxAttempts := 1 }

/-- The timer for the handshake fires, and before that is handled the handshake is acknowledged. -/
def happened : List Event :=
  [.happens (.input (.command (.startSend b .full 1))), .expires 1,
    .happens (.input (.inbound b (.ack 1))), .happens (.input (.retry 7))]

/-- The timer for the handshake fires, and a stale timer of another session is handled before it. -/
def overtaken : List Event :=
  [.happens (.input (.command (.startSend b .full 1))), .expires 1,
    .happens (.input (.retry 7))]

end Impatient

open Impatient in
/-- The session awaits a grant by then, and what is handled late gives it up. -/
theorem awaits_answer_impatient :
    ∃ w, (start (.start a brief (.ofList []) ⟨0, 0⟩)).run happened = .ok w ∧
      (∀ id s, w.mover.outbound.get? id = some s → ∃ message, s.Outstanding id message ∧
        (w.mover.ArmedFor id ∨ id ∈ w.fired)) ∧
      Mover.framesIn 1 (Mover.sinceAwaited 1 w.past) = [⟨a, b, .requestToSend 1⟩] ∧
      w.mover.ArmedFor 1 ∧ 1 ∈ w.fired ∧
      ∃ x n, w.mover.meet (.input (.retry 1)) = .ok x ∧
        .event (Mover.exhausted 1 b n) ∈ x.out := by
  obtain ⟨hawaits, hexhausted⟩ := awaits_answer a brief (.ofList []) ⟨0, 0⟩ .literal happened rfl
  refine ⟨_, rfl, fun id s hs => ?_, rfl, ⟨_, rfl⟩, by decide, ?_⟩
  · obtain ⟨message, houtstanding, htimer, -⟩ := hawaits id s hs
    exact ⟨message, houtstanding, htimer.imp_right And.left⟩
  · exact (hexhausted (.input (.retry 1)) 1 b).2 ⟨by decide, rfl, _, rfl, rfl, rfl⟩

open Impatient in
/-- A timer is not armed once it has fired. So a session may be left with none armed by what is
handled next, while it waits for its turn. -/
theorem unarmed_until_handled :
    ∃ w s, (start (.start a {} (.ofList []) ⟨0, 0⟩)).run overtaken = .ok w ∧
      w.mover.outbound.get? 1 = some s ∧ s.Outstanding 1 (.initiateTransfer 1 s.metadata) ∧
      ¬ w.mover.ArmedFor 1 ∧ w.fired = [1] := by
  refine ⟨_, _, rfl, rfl, ⟨rfl, rfl⟩, fun harmed => ?_, rfl⟩
  obtain ⟨deadline, harmed⟩ := harmed
  cases harmed

end TimedMover

end ReplicaRing
