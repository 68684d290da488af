import Mathlib.Tactic.Common
import ReplicaRing.Proofs.RecentMemory
import ReplicaRing.Transfer.Mover

/-!
The outbound sessions of a mover. What may happen to one session while its mover handles an input
is a short list of steps, `SessionTurn`, or `SessionStep` where grants and events do not matter;
here are the steps, the table that sessions are kept in with its index by destination, and
`ActsOn`, which says of an operation that it touches a single session.
-/

namespace ReplicaRing

/-- The outbound session that a frame of the sender belongs to. -/
def Message.outboundSession? : Message → Option SessionId
  | initiateTransfer id _ | requestToSend id | data id _ _ => some id
  | _ => none

/-- The events of a sender. -/
def MoverEvent.IsOutbound : MoverEvent → Prop
  | transferComplete .. => False
  | sendFinished .. | sendFailed .. => True

/-- The outbound session that an event tells of. -/
def MoverEvent.outboundSession? : MoverEvent → Option SessionId
  | transferComplete .. => none
  | sendFinished id _ _ _ | sendFailed id _ _ => some id

lemma MoverEvent.isOutbound_of_session {e : MoverEvent} {id : SessionId}
    (h : e.outboundSession? = some id) : e.IsOutbound := by
  cases e with
  | transferComplete => cases h
  | sendFinished => trivial
  | sendFailed => trivial

namespace SenderSession

/-- A session that may send its next page: no final page was sent, and none is on its way. -/
def MaySend (s : SenderSession) : Prop :=
  s.state = .initialising ∨ s.state = .waiting ∨ s.state = .transferring ∧ s.finalSent = false

/-- The grant that a session serves next, and those it keeps: the one that has just come if it was
waited for, and the oldest one kept if none has come. -/
def Serves (s : SenderSession) (granted : Option UInt64) (quota : UInt64)
    (grants : List UInt64) : Prop :=
  granted = some quota ∧ s.state = .waiting ∧ grants = s.grants ∨
    granted = none ∧ s.grants = quota :: grants

end SenderSession

namespace Mover

open BlockCompression (Compressor)

/-- The frames among the outputs, in order. -/
def envelopes (out : List Output) : List Envelope := out.filterMap fun
  | .send e => some e
  | .event _ => none

/-- The events among the outputs, in order. -/
def eventsIn (out : List Output) : List MoverEvent := out.filterMap fun
  | .send _ => none
  | .event e => some e

/-- The frames among the outputs that an outbound session sends. -/
def framesOf (id : SessionId) (out : List Output) : List Envelope :=
  (envelopes out).filter fun e => e.message.outboundSession? == some id

/-- The events among the outputs that tell of an outbound session. -/
def toldOf (id : SessionId) (out : List Output) : List MoverEvent :=
  (eventsIn out).filter fun e => e.outboundSession? == some id

/-- The session that an input opens under a number: where it goes, and what it brings. -/
def opening? (m : Mover) (input : Input) (id : SessionId) : Option (NodeId × TransferMetadata) :=
  match input with
  | .command (.startSend destination range viewId) =>
    if m.ids.next.1 = id then some (destination, ⟨range, viewId, m.config.compression⟩) else none
  | _ => none

/-- What may happen to the outbound session of one number, and the frames it sends. -/
inductive SessionStep (c : Compressor) (store : Store) (self : NodeId) (id : SessionId) :
    Option (NodeId × TransferMetadata) →
      Option SenderSession → List Envelope → Option SenderSession → Prop
  | same (o) : SessionStep c store self id none o [] o
  | queue (s) (quota : UInt64) :
      SessionStep c store self id none (some s) [] (some { s with grants := s.grants ++ [quota] })
  | again (s message interval) : s.inFlight = some message → s.stopped = false →
      SessionStep c store self id none (some s) [⟨self, s.destination, message⟩]
        (some { s with attempts := s.attempts + 1, retryInterval := interval })
  | ask (s interval) : s.MaySend → s.grants = [] →
      SessionStep c store self id none (some s) [⟨self, s.destination, .requestToSend id⟩]
        (some { s with
          state := .waiting
          inFlight := some (.requestToSend id)
          attempts := 1
          retryInterval := interval })
  | page (s) (quota : UInt64) (grants interval page) : s.MaySend →
      store.scan s.remaining ⟨none, some quota.toNat⟩ .all = .ok page →
      SessionStep c store self id none (some s)
        [⟨self, s.destination,
          .data id (Page.encodeWith c page.items s.metadata.compressed) (!page.more)⟩]
        (some { s with
          state := .transferring
          grants
          finalSent := !page.more
          bytesSent := s.bytesSent + page.bytes
          itemsSent := s.itemsSent + page.items.length
          lastKey := page.lastKey? <|> s.lastKey
          inFlight :=
            some (.data id (Page.encodeWith c page.items s.metadata.compressed) (!page.more))
          attempts := 1
          retryInterval := interval })
  | opened (o destination metadata interval) :
      SessionStep c store self id (some (destination, metadata)) o
        [⟨self, destination, .initiateTransfer id metadata⟩]
        (some { SenderSession.start destination metadata interval with
          inFlight := some (.initiateTransfer id metadata)
          attempts := 1 })
  | gone (s) : SessionStep c store self id none (some s) [] none

/-- What may happen to the outbound session of one number when its destination grants something or
not, the frames it sends and what is told of it. -/
inductive SessionTurn (c : Compressor) (store : Store) (self : NodeId) (id : SessionId) :
    Option (NodeId × TransferMetadata) → Option UInt64 →
      Option SenderSession → List Envelope → List MoverEvent → Option SenderSession → Prop
  | same (o) : SessionTurn c store self id none none o [] [] o
  | late (s) (quota : UInt64) : s.state = .done →
      SessionTurn c store self id none (some quota) (some s) [] [] (some s)
  | queue (s) (quota : UInt64) : s.state ≠ .waiting →
      SessionTurn c store self id none (some quota) (some s) [] []
        (some { s with grants := s.grants ++ [quota] })
  | again (s message interval) : s.inFlight = some message → s.stopped = false →
      SessionTurn c store self id none none (some s) [⟨self, s.destination, message⟩] []
        (some { s with attempts := s.attempts + 1, retryInterval := interval })
  | ask (s interval) : s.MaySend → s.grants = [] →
      SessionTurn c store self id none none (some s) [⟨self, s.destination, .requestToSend id⟩] []
        (some { s with
          state := .waiting
          inFlight := some (.requestToSend id)
          attempts := 1
          retryInterval := interval })
  | page (s granted quota grants interval page) : s.MaySend → s.Serves granted quota grants →
      store.scan s.remaining ⟨none, some quota.toNat⟩ .all = .ok page →
      SessionTurn c store self id none granted (some s)
        [⟨self, s.destination,
          .data id (Page.encodeWith c page.items s.metadata.compressed) (!page.more)⟩] []
        (some { s with
          state := .transferring
          grants
          finalSent := !page.more
          bytesSent := s.bytesSent + page.bytes
          itemsSent := s.itemsSent + page.items.length
          lastKey := page.lastKey? <|> s.lastKey
          inFlight :=
            some (.data id (Page.encodeWith c page.items s.metadata.compressed) (!page.more))
          attempts := 1
          retryInterval := interval })
  | opened (o destination metadata interval) :
      SessionTurn c store self id (some (destination, metadata)) none o
        [⟨self, destination, .initiateTransfer id metadata⟩] []
        (some { SenderSession.start destination metadata interval with
          inFlight := some (.initiateTransfer id metadata)
          attempts := 1 })
  | finished (s) : s.state = .transferring → s.finalSent = true →
      SessionTurn c store self id none none (some s) []
        [.sendFinished id s.destination s.itemsSent s.bytesSent] none
  | failed (s granted reason) :
      SessionTurn c store self id none granted (some s) []
        [.sendFailed id s.destination reason] none
  | stopped (s) : SessionTurn c store self id none none (some s) [] [] none

namespace SessionTurn

variable {c : Compressor} {store : Store} {self : NodeId} {id : SessionId}
  {opening : Option (NodeId × TransferMetadata)} {granted : Option UInt64}
  {o o' : Option SenderSession} {frames : List Envelope} {told : List MoverEvent}

lemma of_eq_or_none (h : o' = o ∨ o' = none) :
    SessionTurn c store self id none none o [] [] o' := by
  rcases h with rfl | rfl
  · exact .same _
  · cases o with
    | none => exact .same none
    | some s => exact .stopped s

/-- A session that is not open is silent until it is opened. -/
lemma of_none (h : SessionTurn c store self id none granted none frames told o') :
    o' = none ∧ frames = [] ∧ told = [] := by
  cases h
  exact ⟨rfl, rfl, rfl⟩

/-- A session that is opened sends its handshake. -/
lemma of_opening {destination : NodeId} {metadata : TransferMetadata}
    (h : SessionTurn c store self id (some (destination, metadata)) granted o frames told o') :
    frames = [⟨self, destination, .initiateTransfer id metadata⟩] ∧ told = [] ∧
      ∃ interval, o' = some { SenderSession.start destination metadata interval with
        inFlight := some (.initiateTransfer id metadata)
        attempts := 1 } := by
  cases h with
  | opened _ _ _ interval => exact ⟨rfl, rfl, interval, rfl⟩

/-- A session that is not open after a turn sent nothing in it. -/
lemma frames_of_gone (h : SessionTurn c store self id opening granted o frames told none) :
    frames = [] := by
  cases h with
  | same => rfl
  | finished s => rfl
  | failed s => rfl
  | stopped s => rfl

/-- A session that is open after a turn went to the same node before, or was opened to go there. -/
lemma destination {s' : SenderSession}
    (h : SessionTurn c store self id opening granted o frames told (some s')) :
    (∃ s, o = some s ∧ s.destination = s'.destination) ∨
      ∃ metadata, opening = some (s'.destination, metadata) := by
  cases h with
  | same => exact .inl ⟨s', rfl, rfl⟩
  | late => exact .inl ⟨s', rfl, rfl⟩
  | queue s => exact .inl ⟨s, rfl, rfl⟩
  | again s => exact .inl ⟨s, rfl, rfl⟩
  | ask s => exact .inl ⟨s, rfl, rfl⟩
  | page s => exact .inl ⟨s, rfl, rfl⟩
  | opened _ destination metadata => exact .inr ⟨metadata, rfl⟩

/-- What is told of a session is that it ends, once. -/
lemma told_cases (h : SessionTurn c store self id opening granted o frames told o') :
    told = [] ∨ told.length = 1 ∧ o ≠ none ∧ o' = none := by
  cases h with
  | finished s => exact .inr ⟨rfl, Option.some_ne_none s, rfl⟩
  | failed s => exact .inr ⟨rfl, Option.some_ne_none s, rfl⟩
  | _ => exact .inl rfl

lemma sessionStep (h : SessionTurn c store self id opening granted o frames told o') :
    SessionStep c store self id opening o frames o' := by
  cases h with
  | same => exact .same o
  | late s quota => exact .same (some s)
  | queue s quota => exact .queue s quota
  | again s message interval hflight hs => exact .again s message interval hflight hs
  | ask s interval hmay hgrants => exact .ask s interval hmay hgrants
  | page s _ quota grants interval page hmay _ hscan =>
    exact .page s quota grants interval page hmay hscan
  | opened _ destination metadata interval => exact .opened o destination metadata interval
  | finished s => exact .gone s
  | failed s => exact .gone s
  | stopped s => exact .gone s

end SessionTurn

/-! ## The session table -/

section

variable {m : Mover} {id id' : SessionId} {s : SenderSession}

lemma mem_eventsIn {out : List Output} {e : MoverEvent} :
    e ∈ eventsIn out ↔ .event e ∈ out := by
  unfold eventsIn
  rw [List.mem_filterMap]
  constructor
  · rintro ⟨o, ho, he⟩
    cases o with
    | send envelope => cases he
    | event e' =>
      cases he
      exact ho
  · exact fun h => ⟨_, h, rfl⟩

lemma mem_framesOf {out : List Output} {e : Envelope} :
    e ∈ framesOf id out ↔ e ∈ envelopes out ∧ e.message.outboundSession? = some id := by
  unfold framesOf
  rw [List.mem_filter, beq_iff_eq]

@[simp] lemma setSession_get? (m : Mover) (id id' : SessionId) (s : SenderSession) :
    (m.setSession id s).outbound.get? id' = if id' = id then some s else m.outbound.get? id' :=
  SortedMap.get?_insert m.outbound id id' s

lemma dropSession_get? (m : Mover) (id id' : SessionId) :
    (m.dropSession id).outbound.get? id' = if id' = id then none else m.outbound.get? id' := by
  unfold dropSession
  cases h : m.outbound.get? id with
  | none =>
    show m.outbound.get? id' = _
    by_cases hid : id' = id
    · rw [if_pos hid, hid, h]
    · rw [if_neg hid]
  | some s => exact SortedMap.get?_erase m.outbound id id'

/-- Once the stopped sessions are dropped, the others are left. -/
lemma finishTeardown_get? (m : Mover) (id : SessionId) :
    m.finishTeardown.outbound.get? id =
      if id ∈ m.teardown then none else m.outbound.get? id := by
  -- the induction is on what is dropped; dropping one session leaves the others
  have hfold : ∀ (ids : List SessionId) (m : Mover),
      (ids.foldl dropSession m).outbound.get? id =
        if id ∈ ids then none else m.outbound.get? id := by
    intro ids
    induction ids with
    | nil => simp
    | cons i ids ih =>
      intro m
      rw [List.foldl_cons, ih, dropSession_get?]
      grind
  exact hfold m.teardown { m with teardown := [] }

/-- Only sessions that leave the table join the memory of those that ended. -/
lemma finishTeardown_finished
    (h : m.finishTeardown.finished.contains id = true) :
    m.finished.contains id = true ∨
      m.outbound.get? id ≠ none ∧ m.finishTeardown.outbound.get? id = none := by
  have hfold : ∀ (ids : List SessionId) (m : Mover),
      (ids.foldl dropSession m).finished.contains id = true →
        m.finished.contains id = true ∨ id ∈ ids ∧ m.outbound.get? id ≠ none := by
    intro ids
    induction ids with
    | nil => exact fun m h => .inl h
    | cons i ids ih =>
      intro m h
      rw [List.foldl_cons] at h
      rcases ih (m.dropSession i) h with hdrop | ⟨hlater, hget⟩
      · unfold dropSession at hdrop
        cases hi : m.outbound.get? i with
        | none =>
          simp only [hi] at hdrop
          exact .inl hdrop
        | some s =>
          simp only [hi] at hdrop
          rcases RecentSet.contains_of_insert hdrop with rfl | hbefore
          · exact .inr ⟨List.mem_cons_self, by rw [hi]; simp⟩
          · exact .inl hbefore
      · rw [dropSession_get?] at hget
        split at hget
        · exact absurd rfl hget
        · exact .inr ⟨List.mem_cons_of_mem _ hlater, hget⟩
  rcases hfold m.teardown { m with teardown := [] } h with hbefore | ⟨hmem, hget⟩
  · exact .inl hbefore
  · exact .inr ⟨hget, by rw [finishTeardown_get?, if_pos hmem]⟩

/-- Nothing but the session table, its index and the memory of ended sessions changes when
stopped sessions are dropped. -/
lemma finishTeardown_eq (m : Mover) : ∃ outbound byDestination finished,
    m.finishTeardown = { m with outbound, byDestination, finished, teardown := [] } := by
  have hfold : ∀ (ids : List SessionId) (m : Mover), ∃ outbound byDestination finished,
      ids.foldl dropSession m = { m with outbound, byDestination, finished } := by
    intro ids
    induction ids with
    | nil => exact fun m => ⟨_, _, _, rfl⟩
    | cons i ids ih =>
      intro m
      obtain ⟨o, b, f, h⟩ := ih (m.dropSession i)
      have hdrop : ∃ outbound byDestination finished,
          m.dropSession i = { m with outbound, byDestination, finished } := by
        unfold dropSession
        cases m.outbound.get? i with
        | none => exact ⟨_, _, _, rfl⟩
        | some s => exact ⟨_, _, _, rfl⟩
      obtain ⟨o', b', f', hdrop⟩ := hdrop
      exact ⟨o, b, f, by rw [List.foldl_cons, h, hdrop]⟩
  exact hfold m.teardown { m with teardown := [] }

lemma stop_of_none (h : m.outbound.get? id = none) : m.stop id = m := by
  unfold stop
  rw [h]

lemma stop_of_stopped (h : m.outbound.get? id = some s) (hs : s.stopped = true) :
    m.stop id = m := by
  unfold stop
  rw [h]
  exact if_pos hs

lemma stop_of_active (h : m.outbound.get? id = some s) (hs : s.stopped = false) :
    m.stop id =
      { m.setSession id { s with stopped := true, inFlight := none } with
        timers := m.timers.cancel id
        teardown := m.teardown ++ [id] } := by
  unfold stop
  rw [h]
  exact if_neg (by simp [hs])

/-- Stopping a session takes it off the table, once the stopped ones are dropped. -/
lemma stop_finishTeardown_get? (m : Mover) (id id' : SessionId) :
    (m.stop id).finishTeardown.outbound.get? id' = m.finishTeardown.outbound.get? id' ∨
      (m.stop id).finishTeardown.outbound.get? id' = none := by
  cases h : m.outbound.get? id with
  | none => exact .inl (by rw [stop_of_none h])
  | some s =>
    by_cases hs : s.stopped = true
    · exact .inl (by rw [stop_of_stopped h hs])
    · -- a session that is stopped joins those that are to be dropped
      rw [stop_of_active h (by simpa using hs), finishTeardown_get?, finishTeardown_get?]
      by_cases hid : id' = id
      · exact .inr (by simp [hid])
      · exact .inl (by simp [hid])

lemma stop_get?_self (h : m.outbound.get? id = some s) (hs : s.stopped = false) :
    (m.stop id).finishTeardown.outbound.get? id = none := by
  rw [stop_of_active h hs, finishTeardown_get?]
  exact if_pos (by simp)

lemma foldl_stop_get? (ids : List SessionId) (m : Mover) (id : SessionId) :
    (ids.foldl stop m).finishTeardown.outbound.get? id = m.finishTeardown.outbound.get? id ∨
      (ids.foldl stop m).finishTeardown.outbound.get? id = none := by
  induction ids generalizing m with
  | nil => exact .inl rfl
  | cons i ids ih =>
    rw [List.foldl_cons]
    rcases ih (m.stop i) with h | h
    · rw [h]
      exact stop_finishTeardown_get? m i id
    · exact .inr h

lemma mem_stop_teardown (h : id ∈ m.teardown) (id' : SessionId) :
    id ∈ (m.stop id').teardown := by
  unfold stop
  split
  · exact h
  · split
    · exact h
    · exact List.mem_append_left _ h

end

/-! ## The index by destination -/

/-- Where the session of a number goes. -/
def destination? (m : Mover) (id : SessionId) : Option NodeId :=
  (m.outbound.get? id).map SenderSession.destination

lemma destination?_of_get? {m : Mover} {id : SessionId} {s : SenderSession}
    (h : m.outbound.get? id = some s) : m.destination? id = some s.destination := by
  unfold destination?
  rw [h]
  rfl

lemma destination?_eq_some {m : Mover} {id : SessionId} {n : NodeId} :
    m.destination? id = some n ↔ ∃ s, m.outbound.get? id = some s ∧ s.destination = n :=
  Option.map_eq_some_iff

/-- A session to a node is open. -/
def Serving (m : Mover) (n : NodeId) : Prop := ∃ id, m.destination? id = some n

/-- Every session is the one that is indexed under its destination. -/
def Listed (m : Mover) : Prop :=
  ∀ id n, m.destination? id = some n → m.byDestination.get? n = some id

/-- The sessions and the index by destination are inverse to each other. -/
def Indexed (m : Mover) : Prop :=
  ∀ n id, m.byDestination.get? n = some id ↔ m.destination? id = some n

/-- A mover between inputs: each session is the one that is indexed under its destination, and none
is stopped. -/
structure Settled (m : Mover) : Prop where
  indexed : m.Indexed
  active : ∀ id s, m.outbound.get? id = some s → s.stopped = false

section

variable {m m' : Mover}

lemma Indexed.congr (h : m.Indexed) (hindex : m'.byDestination = m.byDestination)
    (hkept : ∀ id, m'.destination? id = m.destination? id) : m'.Indexed := by
  intro n id
  rw [hindex, hkept]
  exact h n id

lemma dropSession_destination? (m : Mover) (id id' : SessionId) :
    (m.dropSession id).destination? id' = if id' = id then none else m.destination? id' := by
  unfold destination?
  rw [dropSession_get?]
  split
  · rfl
  · rfl

/-- Only a session's own entry is dropped with it. -/
lemma dropSession_byDestination (m : Mover) (id id' : SessionId) (n : NodeId) :
    (m.dropSession id).byDestination.get? n = some id' ↔
      m.byDestination.get? n = some id' ∧ ¬ (id' = id ∧ m.destination? id = some n) := by
  unfold dropSession destination?
  cases m.outbound.get? id with
  | none => simp
  | some s =>
    simp only [Option.map_some, Option.some.injEq]
    by_cases hown : m.byDestination.get? s.destination = some id
    · rw [if_pos hown, SortedMap.get?_erase]
      by_cases hn : n = s.destination
      · subst hn
        rw [if_pos rfl, hown, Option.some.injEq]
        simp [eq_comm]
      · rw [if_neg hn]
        simp [Ne.symm hn]
    · rw [if_neg hown]
      refine (and_iff_left_of_imp fun hget => ?_).symm
      rintro ⟨rfl, rfl⟩
      exact hown hget

lemma Indexed.dropSession (h : m.Indexed) (id : SessionId) : (m.dropSession id).Indexed := by
  intro n id'
  rw [dropSession_byDestination, h n id', dropSession_destination?]
  by_cases hid : id' = id
  · subst hid
    simp
  · simp [hid]

lemma Indexed.listed (h : m.Indexed) : m.Listed := fun id n hid => (h n id).2 hid

lemma Listed.congr (h : m.Listed) (hindex : m'.byDestination = m.byDestination)
    (hkept : ∀ id, m'.destination? id = m.destination? id) : m'.Listed := by
  intro id n hid
  rw [hindex]
  exact h id n (hkept id ▸ hid)

lemma Listed.dropSession (h : m.Listed) (id : SessionId) : (m.dropSession id).Listed := by
  intro id' n hid
  rw [dropSession_destination?] at hid
  split at hid
  · cases hid
  · rename_i hne
    exact (dropSession_byDestination m id id' n).2 ⟨h id' n hid, fun hown => hne hown.1⟩

lemma Listed.finishTeardown (h : m.Listed) : m.finishTeardown.Listed := by
  have hcleared : Listed { m with teardown := [] } := h.congr rfl fun _ => rfl
  exact List.foldlRecOn (motive := Listed) m.teardown Mover.dropSession hcleared
    fun _ hm id _ => hm.dropSession id

/-- Sessions end by leaving the table. -/
lemma ended_of_kept {id : SessionId} (hfinished : m'.finished = m.finished)
    (hkept : m'.destination? id = m.destination? id)
    (h : m'.finishTeardown.finished.contains id = true) :
    m.finished.contains id = true ∨
      m.outbound.get? id ≠ none ∧ m'.finishTeardown.outbound.get? id = none := by
  rcases finishTeardown_finished h with hbefore | ⟨hget, hgone⟩
  · exact .inl (hfinished ▸ hbefore)
  · refine .inr ⟨fun hnone => hget ?_, hgone⟩
    unfold destination? at hkept
    rw [hnone, Option.map_none, Option.map_eq_none_iff] at hkept
    exact hkept

/-- The index stays right when stopped sessions are dropped. -/
lemma Indexed.finishTeardown (h : m.Indexed) : m.finishTeardown.Indexed := by
  have hcleared : Indexed { m with teardown := [] } := h.congr rfl fun _ => rfl
  exact List.foldlRecOn (motive := Indexed) m.teardown Mover.dropSession hcleared
    fun _ hm id _ => hm.dropSession id

end

/-! ## Acting on one session -/

/-- The sender's part of a mover moves on: every session takes a turn, the index stays right, and
what the receiver knows stays. -/
structure SenderMove (m : Mover) (opening : SessionId → Option (NodeId × TransferMetadata))
    (granted : SessionId → Option UInt64) (r : Mover × List Output) : Prop where
  rest : ∃ ids timers outbound byDestination finished teardown,
    r.1 = { m with ids, timers, outbound, byDestination, finished, teardown }
  frames : ∀ e ∈ envelopes r.2, e.src = m.self
  events : ∀ e, .event e ∈ r.2 → e.IsOutbound
  turn : ∀ id, SessionTurn m.compressor m.store m.self id (opening id) (granted id)
    (m.outbound.get? id) (framesOf id r.2) (toldOf id r.2) (r.1.finishTeardown.outbound.get? id)
  indexed : m.Settled → (∀ id, (opening id).isSome = true → m.outbound.get? id = none) →
    r.1.finishTeardown.Indexed
  ended : ∀ id, r.1.finishTeardown.finished.contains id = true →
    m.finished.contains id = true ∨ m.outbound.get? id ≠ none ∧
      (opening id = none → r.1.finishTeardown.outbound.get? id = none)

/-- Nothing happens to a mover but to the session of one number, its timer and the list of what is
to be dropped, and the frames and events are that session's. -/
structure ActsOn (m : Mover) (id : SessionId) (r : Mover × List Output) : Prop where
  rest : ∃ timers outbound teardown, r.1 = { m with timers, outbound, teardown }
  others : ∀ id', id' ≠ id → r.1.outbound.get? id' = m.outbound.get? id'
  kept : r.1.destination? id = m.destination? id
  dropped : ∀ id' ∈ r.1.teardown, id' ∈ m.teardown ∨ id' = id
  frames : ∀ e ∈ envelopes r.2, e.src = m.self ∧ e.message.outboundSession? = some id
  events : ∀ e, .event e ∈ r.2 → e.outboundSession? = some id

namespace ActsOn

variable {m m' : Mover} {id : SessionId} {r : Mover × List Output}

lemma refl (m : Mover) (id : SessionId) : ActsOn m id (m, []) :=
  ⟨⟨_, _, _, rfl⟩, fun _ _ => rfl, rfl, fun _ h => .inl h, by simp [envelopes], by simp⟩

lemma trans (h : ActsOn m id (m', [])) (h' : ActsOn m' id r) : ActsOn m id r := by
  obtain ⟨t, o, d, hrest⟩ := h.rest
  obtain ⟨t', o', d', hrest'⟩ := h'.rest
  replace hrest : m' = { m with timers := t, outbound := o, teardown := d } := hrest
  have hself : m'.self = m.self := by rw [hrest]
  refine ⟨⟨t', o', d', ?_⟩, fun id' hid => ?_, h'.kept.trans h.kept, fun id' hmem => ?_,
    fun e he => ?_, h'.events⟩
  · rw [hrest', hrest]
  · rw [h'.others id' hid]
    exact h.others id' hid
  · rcases h'.dropped id' hmem with hm | hm
    · exact h.dropped id' hm
    · exact .inr hm
  · rw [← hself]
    exact h'.frames e he

/-- A session is replaced by one that goes to the same node. -/
lemma setSession {s : SenderSession} (hkept : m.destination? id = some s.destination) :
    ActsOn m id (m.setSession id s, []) := by
  refine ⟨⟨_, _, _, rfl⟩, fun id' hid => ?_, ?_, fun _ h => .inl h, by simp [envelopes], by simp⟩
  · rw [setSession_get?, if_neg hid]
  · rw [hkept]
    unfold destination?
    rw [setSession_get?, if_pos rfl]
    rfl

lemma answered {s : SenderSession} (hkept : m.destination? id = some s.destination)
    (state : SenderState) : ActsOn m id (m.answered id s state, []) := by
  have hset := setSession (s := { s with state, inFlight := none }) hkept
  exact ⟨⟨_, _, _, rfl⟩, hset.others, hset.kept, hset.dropped, hset.frames, hset.events⟩

lemma stop (m : Mover) (id : SessionId) : ActsOn m id (m.stop id, []) := by
  cases h : m.outbound.get? id with
  | none =>
    rw [stop_of_none h]
    exact refl m id
  | some s =>
    by_cases hs : s.stopped = true
    · rw [stop_of_stopped h hs]
      exact refl m id
    · rw [stop_of_active h (by simpa using hs)]
      have hkept := destination?_of_get? h
      have hset := setSession (s := { s with stopped := true, inFlight := none }) hkept
      refine ⟨⟨_, _, _, rfl⟩, hset.others, hset.kept, fun id' hmem => ?_, hset.frames, hset.events⟩
      simpa using hmem

/-- An event that is told on top changes nothing. -/
lemma with_event (h : ActsOn m id (m', [])) {event : MoverEvent}
    (he : event.outboundSession? = some id) : ActsOn m id (m', [.event event]) := by
  refine ⟨h.rest, h.others, h.kept, h.dropped, by simp [envelopes], fun e hmem => ?_⟩
  have : e = event := by simpa using hmem
  rwa [this]

lemma fail (m : Mover) (id : SessionId) (reason : String) : ActsOn m id (m.fail id reason) := by
  unfold Mover.fail
  cases h : m.outbound.get? id with
  | none => exact refl m id
  | some s => exact (stop m id).with_event rfl

lemma send {s : SenderSession} (hkept : m.destination? id = some s.destination)
    (timers : Timers SessionId SessionId) (dst : NodeId) {message : Message}
    (hm : message.outboundSession? = some id) :
    ActsOn m id ({ m.setSession id s with timers }, [m.sendTo dst message]) := by
  have hset := setSession hkept
  refine ⟨⟨_, _, _, rfl⟩, hset.others, hset.kept, hset.dropped, ?_, by simp [sendTo]⟩
  simp [envelopes, sendTo, hm]

lemma transmit (m : Mover) {id : SessionId} {message : Message}
    (hm : message.outboundSession? = some id) : ActsOn m id (m.transmit id message) := by
  unfold Mover.transmit
  cases h : m.outbound.get? id with
  | none => exact refl m id
  | some s =>
    have hkept := destination?_of_get? h
    refine send ?_ _ s.destination hm
    exact hkept

lemma serve (m : Mover) (id : SessionId) (quota : UInt64) : ActsOn m id (m.serve id quota) := by
  unfold Mover.serve
  cases h : m.outbound.get? id with
  | none => exact refl m id
  | some s =>
    have hkept := destination?_of_get? h
    simp only
    split
    · refine (setSession ?_).trans (fail _ id _)
      exact hkept
    · refine (setSession ?_).trans (transmit _ rfl)
      exact hkept

lemma proceed (m : Mover) (id : SessionId) : ActsOn m id (m.proceed id) := by
  unfold Mover.proceed
  cases h : m.outbound.get? id with
  | none => exact refl m id
  | some s =>
    have hkept := destination?_of_get? h
    simp only
    split
    · refine (setSession ?_).trans (serve _ id _)
      exact hkept
    · exact transmit m rfl

/-- What acts on one session leaves the others as they are, sends no frame of theirs and tells
nothing of them. -/
lemma other (h : ActsOn m id r) (ht : m.teardown = []) {id' : SessionId} (hid : id' ≠ id) :
    framesOf id' r.2 = [] ∧ toldOf id' r.2 = [] ∧
      r.1.finishTeardown.outbound.get? id' = m.outbound.get? id' := by
  -- nothing waited to be dropped before, and only the one session may wait now
  have hkept : id' ∉ r.1.teardown := by
    intro hmem
    have hdropped := h.dropped id' hmem
    simp [ht, hid] at hdropped
  refine ⟨?_, ?_, ?_⟩
  · unfold framesOf
    rw [List.filter_eq_nil_iff]
    intro e he
    simp [(h.frames e he).2, Ne.symm hid]
  · unfold toldOf
    rw [List.filter_eq_nil_iff]
    intro e he
    simp [h.events e (mem_eventsIn.1 he), Ne.symm hid]
  · rw [finishTeardown_get?, if_neg hkept, h.others id' hid]

/-- No session changes its destination. -/
lemma destination?_eq (h : ActsOn m id r) (id' : SessionId) :
    r.1.destination? id' = m.destination? id' := by
  by_cases hid : id' = id
  · rw [hid, h.kept]
  · unfold destination?
    rw [h.others id' hid]

lemma indexed (h : ActsOn m id r) (hm : m.Indexed) : r.1.Indexed := by
  obtain ⟨_, _, _, hrest⟩ := h.rest
  exact hm.congr (by rw [hrest]) h.destination?_eq

lemma listed (h : ActsOn m id r) (hm : m.Listed) : r.1.Listed := by
  obtain ⟨_, _, _, hrest⟩ := h.rest
  exact hm.congr (by rw [hrest]) h.destination?_eq

lemma ended (h : ActsOn m id r) {id' : SessionId}
    (hfinished : r.1.finishTeardown.finished.contains id' = true) :
    m.finished.contains id' = true ∨
      m.outbound.get? id' ≠ none ∧ r.1.finishTeardown.outbound.get? id' = none := by
  obtain ⟨_, _, _, hrest⟩ := h.rest
  exact ended_of_kept (by rw [hrest]) (h.destination?_eq id') hfinished

/-- What acts on one session moves the sender's part on, if that session takes a turn and no other
is granted anything. -/
lemma senderMove (h : ActsOn m id r) (ht : m.teardown = []) {granted : SessionId → Option UInt64}
    (hgranted : ∀ id', id' ≠ id → granted id' = none)
    (hturn : SessionTurn m.compressor m.store m.self id none (granted id) (m.outbound.get? id)
      (framesOf id r.2) (toldOf id r.2) (r.1.finishTeardown.outbound.get? id)) :
    SenderMove m (fun _ => none) granted r := by
  obtain ⟨timers, outbound, teardown, hrest⟩ := h.rest
  refine ⟨⟨_, timers, outbound, _, _, teardown, hrest⟩, fun e he => (h.frames e he).1,
    fun e he => MoverEvent.isOutbound_of_session (h.events e he), fun id' => ?_,
    fun hm _ => (h.indexed hm.indexed).finishTeardown,
    fun id' hfinished => (h.ended hfinished).imp_right fun ⟨hget, hgone⟩ => ⟨hget, fun _ => hgone⟩⟩
  by_cases hid : id' = id
  · rw [hid]
    exact hturn
  · obtain ⟨hframes, htold, hget⟩ := h.other ht hid
    rw [hframes, htold, hget, hgranted id' hid]
    exact .same _

end ActsOn

end Mover

end ReplicaRing
