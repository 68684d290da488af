import ReplicaRing.Proofs.RecentMemory
import ReplicaRing.Proofs.SentPages

/-!
The final page of a session at either end. A sender takes its transfer for finished with an
acknowledgement while its final page is in flight, and a receiver completes a session with the
acknowledgement of a final page. While a session is open its sender knows its final page:
`Mover.Awaits` says that a final page that was ever sent is the one in flight, and every step of
the session keeps it.
-/

namespace ReplicaRing

namespace MoverEvent

/-- An outbound transfer that was given up. -/
def IsFailure : MoverEvent → Prop
  | sendFailed .. => True
  | transferComplete .. | sendFinished .. => False

/-- An outbound transfer that was given up because its range could not be read. -/
def IsScanFailure : MoverEvent → Prop
  | sendFailed _ _ reason => ∃ fault : Fault, reason = "store scan failed: " ++ fault.message
  | transferComplete .. | sendFinished .. => False

lemma IsScanFailure.isFailure {e : MoverEvent} (h : e.IsScanFailure) : e.IsFailure := by
  cases e with
  | sendFailed => trivial
  | transferComplete => exact h
  | sendFinished => exact h

end MoverEvent

namespace Mover

/-! ## The sender's end -/

/-- Nothing is told but that a transfer was given up. -/
def OnlyFails (out : List Output) : Prop := ∀ e, .event e ∈ out → e.IsFailure

/-- Nothing is told but that a range could not be read. -/
def OnlyScanFails (out : List Output) : Prop := ∀ e, .event e ∈ out → e.IsScanFailure

section

variable {m m' : Mover} {input : Input} {out : List Output} {src dst : NodeId} {id : SessionId}

lemma OnlyScanFails.onlyFails (h : OnlyScanFails out) : OnlyFails out :=
  fun e he => (h e he).isFailure

lemma onlyScanFails_nil : OnlyScanFails [] := fun _ he => (nomatch he)

lemma onlyScanFails_send (m : Mover) (dst : NodeId) (message : Message) :
    OnlyScanFails [m.sendTo dst message] := by
  intro e he
  simp [sendTo] at he

lemma onlyFails_fail (m : Mover) (id : SessionId) (reason : String) :
    OnlyFails (m.fail id reason).2 := by
  unfold fail
  split
  · exact onlyScanFails_nil.onlyFails
  · intro e he
    obtain rfl : e = _ := by simpa using he
    trivial

lemma onlyScanFails_transmit (m : Mover) (id : SessionId) (message : Message) :
    OnlyScanFails (m.transmit id message).2 := by
  unfold transmit
  split
  · exact onlyScanFails_nil
  · exact onlyScanFails_send m _ message

lemma onlyScanFails_serve (m : Mover) (id : SessionId) (quota : UInt64) :
    OnlyScanFails (m.serve id quota).2 := by
  unfold serve
  split
  · exact onlyScanFails_nil
  · simp only
    split
    · rename_i fault _
      intro e he
      unfold fail at he
      split at he
      · cases he
      · obtain rfl : e = _ := by simpa using he
        exact ⟨fault, rfl⟩
    · exact onlyScanFails_transmit _ id _

lemma onlyScanFails_proceed (m : Mover) (id : SessionId) : OnlyScanFails (m.proceed id).2 := by
  unfold proceed
  split
  · exact onlyScanFails_nil
  · split
    · exact onlyScanFails_serve _ id _
    · exact onlyScanFails_transmit m id _

lemma onlyScanFails_onAck (m : Mover) (src : NodeId) (id : SessionId) :
    OnlyScanFails (m.onAck src id).2 := by
  unfold onAck
  split
  · exact onlyScanFails_nil
  · split
    · exact onlyScanFails_proceed _ id
    · exact onlyScanFails_nil

lemma onlyScanFails_onClearToSend (m : Mover) (src : NodeId) (id : SessionId) (quota : UInt64) :
    OnlyScanFails (m.onClearToSend src id quota).2 := by
  unfold onClearToSend
  split
  · exact onlyScanFails_nil
  · split
    · exact onlyScanFails_serve _ id quota
    · exact onlyScanFails_nil
    · exact onlyScanFails_nil
    · exact onlyScanFails_nil

/-- What an acknowledgement of a page makes a mover tell is that a transfer finished, or that a
range could not be read. -/
lemma told_of_onAllReceived {e : MoverEvent} (h : .event e ∈ (m.onAllReceived src id).2) :
    e.IsScanFailure ∨ ∃ s, m.outbound.get? id = some s ∧ s.destination = src ∧
      s.state = .transferring ∧ s.finalSent = true ∧
      e = .sendFinished id s.destination s.itemsSent s.bytesSent := by
  unfold onAllReceived at h
  split at h
  · cases h
  · rename_i s hactive
    obtain ⟨hget, -, hdst⟩ := activeSession?_eq_some hactive
    split at h
    · cases h
    · rename_i hstate
      split at h
      · rename_i hfinal
        exact .inr ⟨s, hget, hdst, not_not.1 hstate, hfinal, by simpa using h⟩
      · exact .inl (onlyScanFails_proceed _ id _ h)

lemma onlyFails_onRetry {r : Mover × List Output} (h : m.onRetry id = .ok r) :
    OnlyFails r.2 := by
  obtain ⟨-, rfl⟩ | ⟨s, message, -, -, -, ⟨-, rfl⟩ | ⟨-, interval, -, rfl⟩⟩ := onRetry_cases h
  · exact onlyScanFails_nil.onlyFails
  · exact onlyFails_fail m id _
  · exact (onlyScanFails_send m _ _).onlyFails

lemma onlyScanFails_onCommand (m : Mover) (command : MoverCommand) :
    OnlyScanFails (m.onCommand command).2 := by
  cases command with
  | startSend destination range viewId =>
    exact onlyScanFails_transmit _ _ _
  | stopSend destination =>
    unfold onCommand
    simp only
    split
    · exact onlyScanFails_nil
    · exact onlyScanFails_nil
  | stopAll => exact onlyScanFails_nil

/-- Of the frames of a sender only pages make a mover tell something. -/
lemma told_of_receives {message : Message} (h : message.outboundSession? = some id)
    {e : MoverEvent} (he : .event e ∈ (m.onMessage src message).2) :
    ∃ metadata items bytes, e = .transferComplete id src metadata items bytes := by
  rcases onMessage_cases m src h with ⟨_, rfl, -, hquiet⟩ | ⟨-, hquiet, -⟩ |
    ⟨payload, isFinal, r, rfl, hr⟩
  · exact absurd he (hquiet e)
  · exact absurd he (hquiet e)
  · obtain ⟨s, _, -, -, -, -, -, -, hevents⟩ := onData_of_some hr
    have hmem : e ∈ eventsIn (m.onData src id payload isFinal).2 := mem_eventsIn.2 he
    rw [hevents] at hmem
    split at hmem
    · exact ⟨s.metadata, _, _, List.mem_singleton.1 hmem⟩
    · cases hmem

/-- An input that is no retransmission timer makes a mover tell that a transfer finished, with the
acknowledgement of the final page in flight, that a transfer came in, or that a range could not be
read. -/
lemma told_of_handle (h : m.handle input = .ok (m', out)) (hretry : ∀ id, input ≠ .retry id)
    {e : MoverEvent} (he : .event e ∈ out) :
    e.IsScanFailure ∨ (∃ session source metadata items bytes,
        e = .transferComplete session source metadata items bytes) ∨
      ∃ src id s, input = .inbound src (.allReceived id) ∧ m.outbound.get? id = some s ∧
        s.destination = src ∧ s.state = .transferring ∧ s.finalSent = true ∧
        e = .sendFinished id s.destination s.itemsSent s.bytesSent := by
  cases input with
  | command c =>
    cases h
    exact .inl (onlyScanFails_onCommand m c _ he)
  | retry id => exact absurd rfl (hretry id)
  | inbound src message =>
    cases h
    cases hs : message.outboundSession? with
    | some id =>
      obtain ⟨metadata, items, bytes, rfl⟩ := told_of_receives hs he
      exact .inr (.inl ⟨id, src, metadata, items, bytes, rfl⟩)
    | none =>
      cases message with
      | ack id => exact .inl (onlyScanFails_onAck m src id _ he)
      | clearToSend id quota => exact .inl (onlyScanFails_onClearToSend m src id quota _ he)
      | allReceived id =>
        exact (told_of_onAllReceived he).imp_right fun ⟨s, hs⟩ => .inr ⟨src, id, s, rfl, hs⟩
      | initiateTransfer id metadata => cases hs
      | requestToSend id => cases hs
      | data id payload isFinal => cases hs
      | _ => cases he

/-- A transfer finishes with an acknowledgement, while its final page is in flight. -/
theorem sendFinished_of_handle (h : m.handle input = .ok (m', out))
    {items bytes : Nat} (hevent : .event (.sendFinished id dst items bytes) ∈ out) :
    input = .inbound dst (.allReceived id) ∧ ∃ s, m.outbound.get? id = some s ∧
      s.state = .transferring ∧ s.finalSent = true := by
  by_cases hretry : ∃ id', input = .retry id'
  · obtain ⟨id', rfl⟩ := hretry
    obtain ⟨r, hr, -, rfl⟩ := handle_retry h
    exact (onlyFails_onRetry hr _ hevent).elim
  · rcases told_of_handle h (fun id' heq => hretry ⟨id', heq⟩) hevent with
      hscan | ⟨_, _, _, _, _, heq⟩ | ⟨src, id', s, hinput, hget, hdst, hstate, hfinal, heq⟩
    · exact hscan.elim
    · cases heq
    · cases heq
      exact ⟨by rw [hdst]; exact hinput, s, hget, hstate, hfinal⟩

end

/-! ## The receiver's end -/

section

variable {m m' : Mover} {input : Input} {out : List Output} {src : NodeId} {id : SessionId}
  {payload : Bytes}

/-- A page is left without an answer, is acknowledged alone, which a final one is in a completed
session only, or completes its session. -/
lemma onData_cases (m : Mover) (src : NodeId) (id : SessionId) (payload : Bytes)
    (isFinal : Bool) :
    ((m.onData src id payload isFinal).1.completed = m.completed ∧
      ((m.onData src id payload isFinal).2 = [] ∨
        (m.onData src id payload isFinal).2 = [m.sendTo src (.allReceived id)] ∧
          (isFinal = true → m.completed.contains ⟨src, id⟩ = true))) ∨
    isFinal = true ∧
      (m.onData src id payload isFinal).1.completed = m.completed.insert ⟨src, id⟩ ∧
      ∃ metadata items bytes, (m.onData src id payload isFinal).2 =
        [m.sendTo src (.allReceived id),
          .event (.transferComplete id src metadata items bytes)] := by
  unfold onData
  simp only
  split
  · rename_i hcompleted
    exact .inl ⟨rfl, .inr ⟨rfl, fun _ => hcompleted⟩⟩
  · split
    · exact .inl ⟨rfl, .inl rfl⟩
    · split
      · exact .inl ⟨rfl, .inl rfl⟩
      · split
        · exact .inl ⟨rfl, .inl rfl⟩
        · split
          · rename_i hfinal
            exact .inr ⟨hfinal, rfl, _, _, _, rfl⟩
          · rename_i hfinal
            exact .inl ⟨rfl, .inr ⟨rfl, fun h => absurd h hfinal⟩⟩

/-- Whether a mover tells that an inbound session is complete. -/
def Completes (key : PeerSession) (out : List Output) : Prop :=
  ∃ metadata items bytes, .event (.transferComplete key.id key.peer metadata items bytes) ∈ out

/-- A session is completed with the acknowledgement of a final page. -/
lemma acknowledged_of_completes (hm : m.Tidy) (h : m.handle input = .ok (m', out))
    (hcompletes : Completes ⟨src, id⟩ out) :
    ∃ payload, input = .inbound src (.data id payload true) ∧
      .send ⟨m.self, src, .allReceived id⟩ ∈ out := by
  obtain ⟨metadata, items, bytes, hevent⟩ := hcompletes
  obtain ⟨_, payload, _, rfl, -⟩ := transferComplete_of_handle hm h hevent
  cases h
  refine ⟨payload, rfl, ?_⟩
  replace hevent : _ ∈ (m.onData src id payload true).2 := hevent
  show _ ∈ (m.onData src id payload true).2
  rcases onData_cases m src id payload true with ⟨-, hout | ⟨hout, -⟩⟩ | ⟨-, -, _, _, _, hout⟩
  · rw [hout] at hevent
    cases hevent
  · rw [hout] at hevent
    simp [sendTo] at hevent
  · rw [hout]
    exact List.mem_cons_self

/-- The acknowledgement of a final page comes from a session that is completed, by then or with
it. -/
lemma completes_of_acknowledged
    (h : m.handle (.inbound src (.data id payload true)) = .ok (m', out))
    (hack : .send ⟨m.self, src, .allReceived id⟩ ∈ out) :
    m.completed.contains ⟨src, id⟩ = true ∨ Completes ⟨src, id⟩ out := by
  cases h
  show _ ∨ Completes ⟨src, id⟩ (m.onData src id payload true).2
  replace hack : _ ∈ (m.onData src id payload true).2 := hack
  rcases onData_cases m src id payload true with
    ⟨-, hout | ⟨-, hcompleted⟩⟩ | ⟨-, -, metadata, items, bytes, hout⟩
  · rw [hout] at hack
    cases hack
  · exact .inl (hcompleted rfl)
  · refine .inr ⟨metadata, items, bytes, ?_⟩
    rw [hout]
    exact List.mem_cons_of_mem _ List.mem_cons_self

/-- A session that is remembered as completed was so before or is told to be now. -/
lemma completes_of_contains (hm : m.Tidy) (h : m.handle input = .ok (m', out))
    {key : PeerSession} (hcontains : m'.completed.contains key = true) :
    m.completed.contains key = true ∨ Completes key out := by
  rcases handle_cases hm h with ⟨m₁, rfl, -, hmove⟩ | ⟨src, message, id, rfl, hid, rfl, rfl, -⟩
  · obtain ⟨_, _, _, _, _, _, hrest⟩ := hmove.rest
    replace hrest : m₁ = _ := hrest
    rw [(finishTeardown_receiver m₁).2.2, hrest] at hcontains
    exact .inl hcontains
  · rw [(finishTeardown_receiver _).2.2] at hcontains
    rcases onMessage_cases m src hid with ⟨_, -, hopen, -⟩ | ⟨hsame, -, -⟩ |
      ⟨payload, isFinal, _, rfl, -⟩
    · rw [hopen] at hcontains
      exact .inl hcontains
    · rw [hsame] at hcontains
      exact .inl hcontains
    · show _ ∨ Completes key (m.onData src id payload isFinal).2
      replace hcontains : (m.onData src id payload isFinal).1.completed.contains key = true :=
        hcontains
      rcases onData_cases m src id payload isFinal with
        ⟨hsame, -⟩ | ⟨-, hinsert, metadata, items, bytes, hout⟩
      · rw [hsame] at hcontains
        exact .inl hcontains
      · rw [hinsert] at hcontains
        rcases RecentSet.contains_of_insert hcontains with rfl | hbefore
        · refine .inr ⟨metadata, items, bytes, ?_⟩
          rw [hout]
          exact List.mem_cons_of_mem _ List.mem_cons_self
        · exact .inl hbefore

end

/-! ## The page in flight -/

/-- An open session, as far as it knows its final page: while a page is out it is in flight, and a
final page that was ever sent is that page. -/
structure Awaits (id : SessionId) (node : NodeId) (sent : List Envelope) (s : SenderSession) :
    Prop where
  early : s.state = .initialising ∨ s.state = .waiting → s.finalSent = false
  page : s.state = .transferring → ∃ payload, s.inFlight = some (.data id payload s.finalSent)
  inFlight : ∀ message, s.inFlight = some message → ⟨node, s.destination, message⟩ ∈ sent
  final : ∀ e ∈ sent, e.src = node → ∀ payload, e.message = .data id payload true →
    s.finalSent = true ∧ s.inFlight = some e.message

namespace Awaits

variable {id : SessionId} {node : NodeId} {sent more : List Envelope} {s s' : SenderSession}
  {out : List Output}

lemma finalSent_of_maySend (h : Awaits id node sent s) (hmay : s.MaySend) :
    s.finalSent = false := by
  rcases hmay with hstate | hstate | ⟨-, hfinal⟩
  · exact h.early (.inl hstate)
  · exact h.early (.inr hstate)
  · exact hfinal

/-- Frames that are not a final page of the session leave it as it is. -/
lemma append (h : Awaits id node sent s)
    (hmore : ∀ e ∈ more, e.src = node → ∀ payload, e.message ≠ .data id payload true) :
    Awaits id node (sent ++ more) s where
  early := h.early
  page := h.page
  inFlight := fun message hm => List.mem_append.2 (.inl (h.inFlight message hm))
  final := fun e he hsrc payload hpage => (List.mem_append.1 he).elim
    (fun he => h.final e he hsrc payload hpage) fun he => absurd hpage (hmore e he hsrc payload)

/-- Among some outputs a final page of the session is a frame of the session. -/
lemma mem_frames {e : Envelope} {payload : Bytes} (he : e ∈ envelopes out)
    (hpage : e.message = .data id payload true) : e ∈ framesOf id out :=
  mem_framesOf.2 ⟨he, by rw [hpage]; rfl⟩

/-- A session that sends one frame has it in flight. If no final page was sent before, its final
page is known as long as the new frame is. -/
lemma of_frame {message : Message}
    (hframes : framesOf id out = [⟨node, s.destination, message⟩])
    (hflight : s.inFlight = some message)
    (hbefore : ∀ e ∈ sent, e.src = node → ∀ payload, e.message ≠ .data id payload true)
    (hearly : s.state = .initialising ∨ s.state = .waiting → s.finalSent = false)
    (hpage : s.state = .transferring → ∃ payload, message = .data id payload s.finalSent)
    (hfinal : ∀ payload, message = .data id payload true → s.finalSent = true) :
    Awaits id node (sent ++ envelopes out) s := by
  refine ⟨hearly, fun hstate => ?_, fun message' hm => ?_, fun e he hsrc payload hdata => ?_⟩
  · obtain ⟨payload, hmessage⟩ := hpage hstate
    exact ⟨payload, hmessage ▸ hflight⟩
  · obtain rfl : message = message' := Option.some_inj.1 (hflight.symm.trans hm)
    exact List.mem_append.2 (.inr (mem_framesOf.1 (hframes ▸ List.mem_singleton.2 rfl)).1)
  · rcases List.mem_append.1 he with he | he
    · exact absurd hdata (hbefore e he hsrc payload)
    · have hmem := mem_frames he hdata
      rw [hframes, List.mem_singleton] at hmem
      subst hmem
      exact ⟨hfinal payload hdata, hflight⟩

/-- A session that may send a page has not sent its final one. -/
lemma not_final_of_maySend (h : Awaits id node sent s) (hmay : s.MaySend) :
    ∀ e ∈ sent, e.src = node → ∀ payload, e.message ≠ .data id payload true := by
  intro e he hsrc payload hpage
  have hfinal := h.finalSent_of_maySend hmay
  rw [(h.final e he hsrc payload hpage).1] at hfinal
  cases hfinal

/-- Whatever step the session takes, it still knows its final page. -/
theorem step {c : BlockCompression.Compressor} {store : Store}
    {opening : Option (NodeId × TransferMetadata)}
    {session session' : Option SenderSession}
    (h : ∀ s, session = some s → Awaits id node sent s)
    (hfresh : opening.isSome = true →
      ∀ e ∈ sent, e.src = node → e.message.outboundSession? ≠ some id)
    (hstep : SessionStep c store node id opening session (framesOf id out) session') :
    ∀ s', session' = some s' → Awaits id node (sent ++ envelopes out) s' := by
  intro s' hs'
  generalize hframes : framesOf id out = frames at hstep
  have hquiet : frames = [] → ∀ e ∈ envelopes out, e.src = node →
      ∀ payload, e.message ≠ .data id payload true := by
    rintro rfl e he - payload hpage
    have hmem := mem_frames he hpage
    rw [hframes] at hmem
    cases hmem
  cases hstep with
  | same => exact (h s' hs').append (hquiet rfl)
  | gone s => cases hs'
  | queue s quota =>
    cases hs'
    exact { (h s rfl).append (hquiet rfl) with }
  | again s message interval hflight _ =>
    cases hs'
    have hsame := h s rfl
    refine ⟨hsame.early, hsame.page,
      fun message hm => List.mem_append.2 (.inl (hsame.inFlight message hm)),
      fun e he hsrc payload hpage => ?_⟩
    rcases List.mem_append.1 he with he | he
    · exact hsame.final e he hsrc payload hpage
    · -- the frame in flight goes out once more
      have hmem := mem_frames he hpage
      rw [hframes, List.mem_singleton] at hmem
      subst hmem
      exact hsame.final _ (hsame.inFlight message hflight) rfl payload hpage
  | ask s interval hmay _ =>
    cases hs'
    exact of_frame hframes rfl ((h s rfl).not_final_of_maySend hmay)
      (fun _ => (h s rfl).finalSent_of_maySend hmay) (fun hstate => (nomatch hstate))
      fun payload hpage => (nomatch hpage)
  | page s quota grants interval page hmay hscan =>
    cases hs'
    refine of_frame hframes rfl ((h s rfl).not_final_of_maySend hmay)
      (fun hstate => by simp at hstate) (fun _ => ⟨_, rfl⟩) fun payload hpage => ?_
    injection hpage with _ _ hlast
  | opened _ destination metadata interval =>
    cases hs'
    refine of_frame hframes rfl (fun e he hsrc payload hpage => ?_) (fun _ => rfl)
      (fun hstate => (nomatch hstate)) fun payload hpage => (nomatch hpage)
    exact hfresh rfl e he hsrc (by rw [hpage]; rfl)

end Awaits

end Mover

end ReplicaRing
