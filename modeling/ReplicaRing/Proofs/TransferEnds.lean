import ReplicaRing.Proofs.Execution
import ReplicaRing.Proofs.OrderlyDelivery
import ReplicaRing.Proofs.PageForm
import ReplicaRing.Proofs.Paging
import ReplicaRing.Proofs.RecentMemory

/-!
The two ends of a transfer when each frame is answered before the next one comes. A receiver that
has written some items of a session, `Mover.Receiving`, grants the next request, writes the next
page and acknowledges it; a sender whose session has brought some items, `Mover.Sending` and
`Mover.Brought`, asks for a grant, serves it with the items that follow, and drops the session
after the last page.
-/

namespace ReplicaRing

/-! ## Pages -/

namespace StoreItem

/-- The highest of some keys in ascending order. -/
def lastKey? (items : List StoreItem) : Option Key := items.getLast?.map key

lemma lastKey?_append (items more : List StoreItem) :
    lastKey? (items ++ more) = (lastKey? more).or (lastKey? items) := by
  unfold lastKey?
  rw [List.getLast?_append]
  cases more.getLast? with
  | none => rfl
  | some i => rfl

end StoreItem

/-! ## The receiver -/

namespace ReceiverSession

/-- Of items in key order that lie above the last key all are written, if the store lets them. -/
lemma writeItems_all (store : Store) (s : ReceiverSession) {items : List StoreItem}
    (hput : store.refused.contains .put = false)
    (hdelete : store.refused.contains .delete = false) (hasc : Ascending items)
    (habove : ∀ i ∈ items, above s.lastKey i.key = true) :
    writeItems store s items =
      (store.writeAll items,
        { s with
          lastKey := (StoreItem.lastKey? items).or s.lastKey
          items := s.items + items.length
          bytes := s.bytes + StoreItem.totalSize items }, true) := by
  induction items generalizing store s with
  | nil => rfl
  | cons i rest ih =>
    obtain ⟨hlt, hrest⟩ := List.pairwise_cons.1 hasc
    have hcall : store.refused.contains i.writeCall = false := by
      unfold StoreItem.writeCall
      split
      · exact hput
      · exact hdelete
    rw [writeItems_write (habove i List.mem_cons_self) hcall]
    have hwrite := ih (store.write i.key i.value)
      { s with items := s.items + 1, bytes := s.bytes + i.size, lastKey := some i.key }
      hput hdelete hrest fun j hj => above_some_iff.2 (hlt j hj)
    have hlast : (StoreItem.lastKey? rest).or (some i.key) =
        (StoreItem.lastKey? (i :: rest)).or s.lastKey := by
      unfold StoreItem.lastKey?
      rw [List.getLast?_cons]
      cases rest.getLast? with
      | none => rfl
      | some j => rfl
    have hbytes : s.bytes + i.size + StoreItem.totalSize rest =
        s.bytes + StoreItem.totalSize (i :: rest) := by
      rw [StoreItem.totalSize_cons, Nat.add_assoc]
    rw [hwrite, hlast, hbytes, List.length_cons]
    simp only [Nat.add_assoc, Nat.add_comm 1]
    rfl

end ReceiverSession

namespace Mover

open BlockCompression (Compressor)

section

variable {m : Mover} {node a : NodeId} {quota : Nat} {id : SessionId}
  {metadata : TransferMetadata} {store : Store} {done items : List StoreItem} {payload : Bytes}

/-- A receiver that wrote some items of a session and will grant a quota for more. -/
structure Receiving (m : Mover) (node : NodeId) (quota : Nat) (key : PeerSession)
    (metadata : TransferMetadata) (store : Store) (done : List StoreItem) : Prop where
  self : m.self = node
  quota : m.config.quotaBytes = quota
  store : m.store = store.writeAll done
  uncompleted : m.completed.contains key = false
  session : m.inbound.get? key =
    some ⟨metadata, StoreItem.lastKey? done, done.length, StoreItem.totalSize done⟩

lemma Receiving.atInstant {key : PeerSession}
    (h : Receiving m node quota key metadata store done) (now : Duration) :
    Receiving (m.atInstant now) node quota key metadata store done := ⟨h.1, h.2, h.3, h.4, h.5⟩

lemma Receiving.finishTeardown {key : PeerSession}
    (h : Receiving m node quota key metadata store done) :
    Receiving m.finishTeardown node quota key metadata store done := by
  obtain ⟨_, _, _, hdone⟩ := finishTeardown_eq m
  rw [hdone]
  exact ⟨h.1, h.2, h.3, h.4, h.5⟩

/-- A handshake opens a session that was never heard of. -/
lemma onInitiate_receiving (hinbound : m.inbound.contains ⟨a, id⟩ = false)
    (hcompleted : m.completed.contains ⟨a, id⟩ = false) (metadata : TransferMetadata) :
    ∃ m₁, m.onInitiate a id metadata = (m₁, [.send ⟨m.self, a, .ack id⟩]) ∧
      Receiving m₁ m.self m.config.quotaBytes ⟨a, id⟩ metadata m.store [] := by
  unfold onInitiate
  simp only [hinbound, hcompleted]
  refine ⟨_, rfl, rfl, rfl, rfl, hcompleted, ?_⟩
  show (m.inbound.insert ⟨a, id⟩ (.start metadata)).get? ⟨a, id⟩ = _
  rw [SortedMap.get?_insert, if_pos rfl]
  rfl

/-- A request is granted the quota. -/
lemma Receiving.onRequestToSend (h : Receiving m node quota ⟨a, id⟩ metadata store done) :
    m.onRequestToSend a id = (m, [.send ⟨node, a, .clearToSend id (UInt64.ofNat quota)⟩]) := by
  have hopen : m.inbound.contains ⟨a, id⟩ = true := by
    unfold SortedMap.contains
    rw [h.session]
    rfl
  unfold Mover.onRequestToSend
  rw [if_pos hopen, h.quota]
  show (m, [Output.send ⟨m.self, a, _⟩]) = _
  rw [h.self]

/-- The next items are written, whether more are to come or not. -/
lemma Receiving.writeItems (h : Receiving m node quota ⟨a, id⟩ metadata store done)
    (hput : store.refused.contains .put = false)
    (hdelete : store.refused.contains .delete = false) (hasc : Ascending (done ++ items)) :
    ReceiverSession.writeItems m.store
        ⟨metadata, StoreItem.lastKey? done, done.length, StoreItem.totalSize done⟩ items =
      (store.writeAll (done ++ items),
        ⟨metadata, StoreItem.lastKey? (done ++ items), (done ++ items).length,
          StoreItem.totalSize (done ++ items)⟩, true) := by
  obtain ⟨-, hitems, hcross⟩ := hasc.append
  have habove : ∀ i ∈ items,
      ReceiverSession.above (StoreItem.lastKey? done) i.key = true := by
    intro i hi
    cases hlast : StoreItem.lastKey? done with
    | none => rfl
    | some k =>
      obtain ⟨last, hmem, rfl⟩ := Option.map_eq_some_iff.1 hlast
      exact ReceiverSession.above_some_iff.2 (hcross last (List.mem_of_getLast? hmem) i hi)
  have hrefused : m.store.refused = store.refused := by
    rw [h.store, Store.writeAll_refused]
  rw [ReceiverSession.writeItems_all _ _ (hrefused ▸ hput) (hrefused ▸ hdelete) hitems habove,
    h.store, ← Store.writeAll_append, StoreItem.lastKey?_append, List.length_append,
    StoreItem.totalSize_append]

/-- A page that is not the last is written and acknowledged. -/
lemma Receiving.onData (h : Receiving m node quota ⟨a, id⟩ metadata store done)
    (hput : store.refused.contains .put = false)
    (hdelete : store.refused.contains .delete = false) (hasc : Ascending (done ++ items))
    (hdecode : Page.decode payload metadata.compressed = .ok items) :
    ∃ m₁, m.onData a id payload false = (m₁, [.send ⟨node, a, .allReceived id⟩]) ∧
      Receiving m₁ node quota ⟨a, id⟩ metadata store (done ++ items) := by
  unfold Mover.onData
  simp only [h.uncompleted, h.session, hdecode, h.writeItems hput hdelete hasc, sendTo, h.self]
  refine ⟨_, rfl, rfl, h.quota, rfl, h.uncompleted, ?_⟩
  exact (SortedMap.get?_insert m.inbound _ _ _).trans (if_pos rfl)

/-- The last page completes the session. -/
lemma Receiving.onData_final (h : Receiving m node quota ⟨a, id⟩ metadata store done)
    (hput : store.refused.contains .put = false)
    (hdelete : store.refused.contains .delete = false) (hasc : Ascending (done ++ items))
    (hdecode : Page.decode payload metadata.compressed = .ok items) :
    ∃ m₁, m.onData a id payload true =
        (m₁, [.send ⟨node, a, .allReceived id⟩, .event (.transferComplete id a metadata
          (done ++ items).length (StoreItem.totalSize (done ++ items)))]) ∧
      m₁.finishTeardown.self = node ∧
      m₁.finishTeardown.store = store.writeAll (done ++ items) ∧
      m₁.finishTeardown.inbound.get? ⟨a, id⟩ = none := by
  unfold Mover.onData
  simp only [h.uncompleted, h.session, hdecode, h.writeItems hput hdelete hasc, sendTo, h.self]
  refine ⟨_, rfl, ?_⟩
  obtain ⟨_, _, _, hdone⟩ := finishTeardown_eq _
  rw [hdone]
  exact ⟨rfl, rfl, (SortedMap.get?_erase _ _ _).trans (if_pos rfl)⟩

end

/-! ## The sender -/

/-- What a session has brought so far: the first items of the range. -/
structure Brought (s : SenderSession) (destination : NodeId) (metadata : TransferMetadata)
    (done : List StoreItem) : Prop where
  destination : s.destination = destination
  metadata : s.metadata = metadata
  grants : s.grants = []
  active : s.stopped = false
  items : s.itemsSent = done.length
  bytes : s.bytesSent = StoreItem.totalSize done
  last : s.lastKey = StoreItem.lastKey? done

/-- A sender with an open session, the one to its destination. -/
structure Sending (m : Mover) (node : NodeId) (store : Store) (c : Compressor) (id : SessionId)
    (s : SenderSession) : Prop where
  self : m.self = node
  store : m.store = store
  compressor : m.compressor = c
  teardown : m.teardown = []
  unfinished : m.finished.contains id = false
  listed : m.byDestination.get? s.destination = some id
  session : m.outbound.get? id = some s

section

variable {m : Mover} {node b : NodeId} {id : SessionId} {metadata : TransferMetadata}
  {store : Store} {c : Compressor} {done rest : List StoreItem} {s : SenderSession}
  {quota : UInt64}

lemma Sending.atInstant (h : Sending m node store c id s) (now : Duration) :
    Sending (m.atInstant now) node store c id s := ⟨h.1, h.2, h.3, h.4, h.5, h.6, h.7⟩

lemma Sending.setSession (h : Sending m node store c id s) (s' : SenderSession)
    (hdst : s'.destination = s.destination) :
    Sending (m.setSession id s') node store c id s' :=
  ⟨h.self, h.store, h.compressor, h.teardown, h.unfinished, hdst ▸ h.listed,
    (setSession_get? m id id s').trans (if_pos rfl)⟩

lemma Sending.answered (h : Sending m node store c id s) (state : SenderState) :
    Sending (m.answered id s state) node store c id { s with state, inFlight := none } :=
  have hset := h.setSession { s with state, inFlight := none } rfl
  ⟨hset.1, hset.2, hset.3, hset.4, hset.5, hset.6, hset.7⟩

/-- A frame goes out, and nothing else changes in what the session has brought. -/
lemma Sending.transmit (h : Sending m node store c id s) (message : Message) :
    ∃ m₁ interval, m.transmit id message = (m₁, [.send ⟨node, s.destination, message⟩]) ∧
      Sending m₁ node store c id
        { s with inFlight := some message, attempts := 1, retryInterval := interval } := by
  have hset := h.setSession { s with
    inFlight := some message, attempts := 1, retryInterval := m.baseInterval s.destination } rfl
  unfold Mover.transmit
  rw [h.session]
  simp only [sendTo, h.self]
  exact ⟨_, _, rfl, hset.1, hset.2, hset.3, hset.4, hset.5, hset.6, hset.7⟩

lemma Sending.activeSession? (h : Sending m node store c id s) (hs : Brought s b metadata done) :
    m.activeSession? b id = some s := by
  unfold Mover.activeSession?
  rw [h.unfinished, h.session]
  simp [Option.filter, hs.active, hs.destination]

/-- What is left of the range is what was not brought. -/
lemma Brought.matching (hs : Brought s b metadata done)
    (hall : store.matching metadata.range .all = done ++ rest) :
    store.matching s.remaining .all = rest := by
  unfold SenderSession.remaining
  rw [hs.last, hs.metadata]
  cases hlast : StoreItem.lastKey? done with
  | none =>
    have hnil : done = [] := by
      unfold StoreItem.lastKey? at hlast
      simpa using hlast
    rw [hnil] at hall
    exact hall
  | some k => exact Store.matching_after_page hall hlast

/-- The next page that a grant lets through, and the session behind it. -/
lemma Sending.serve (h : Sending m node store c id s) (hs : Brought s b metadata done)
    (hscan : store.refused.contains .scan = false)
    (hall : store.matching metadata.range .all = done ++ rest) {page : ScanPage}
    (hpage : page = ScanLimit.take ⟨none, some quota.toNat⟩ 0 0 rest) :
    ∃ m₁ s₁, m.serve id quota = (m₁, [.send ⟨node, b,
        .data id (Page.encodeWith c page.items metadata.compressed) (!page.more)⟩]) ∧
      Sending m₁ node store c id s₁ ∧ Brought s₁ b metadata (done ++ page.items) ∧
      s₁.state = .transferring ∧ s₁.finalSent = !page.more := by
  have hread : m.store.scan { s with state := .transferring : SenderSession }.remaining
      ⟨none, some quota.toNat⟩ .all = .ok page := by
    show m.store.scan s.remaining _ _ = _
    unfold Store.scan Store.guard
    rw [h.store, hscan, Store.page_eq, hs.matching hall, hpage]
    rfl
  have hbytes : page.bytes = StoreItem.totalSize page.items := Store.bytes_of_scan hread
  obtain rfl := hs.metadata
  obtain ⟨m₁, interval, hsend, hsending⟩ := (h.setSession { s with
      state := .transferring
      finalSent := !page.more
      bytesSent := s.bytesSent + page.bytes
      itemsSent := s.itemsSent + page.items.length
      lastKey := page.lastKey? <|> s.lastKey } rfl).transmit
    (.data id (Page.encodeWith c page.items s.metadata.compressed) (!page.more))
  refine ⟨m₁, _, ?_, hsending, ⟨hs.destination, rfl, hs.grants, hs.active, ?_, ?_, ?_⟩,
    rfl, rfl⟩
  · rw [← hs.destination, ← hsend]
    unfold Mover.serve
    simp only [h.session, h.compressor, hread]
  · show s.itemsSent + page.items.length = _
    rw [hs.items, List.length_append]
  · show s.bytesSent + page.bytes = _
    rw [hs.bytes, hbytes, StoreItem.totalSize_append]
  · show (StoreItem.lastKey? page.items <|> s.lastKey) = _
    rw [hs.last, StoreItem.lastKey?_append]
    cases StoreItem.lastKey? page.items with
    | none => rfl
    | some k => rfl

/-- A session without a grant asks for one. -/
lemma Sending.proceed (h : Sending m node store c id s) (hs : Brought s b metadata done) :
    ∃ m₁ s₁, m.proceed id = (m₁, [.send ⟨node, b, .requestToSend id⟩]) ∧
      Sending m₁ node store c id s₁ ∧ Brought s₁ b metadata done ∧ s₁.state = s.state := by
  obtain ⟨m₁, interval, hsend, hsending⟩ := h.transmit (.requestToSend id)
  refine ⟨m₁, _, ?_, hsending, { hs with }, rfl⟩
  unfold Mover.proceed
  simp only [h.session, hs.grants]
  rw [hsend, hs.destination]

/-- The handshake is acknowledged. -/
lemma Sending.onAck (h : Sending m node store c id s) (hs : Brought s b metadata done)
    (hstate : s.state = .initialising) :
    ∃ m₁ s₁, m.onAck b id = (m₁, [.send ⟨node, b, .requestToSend id⟩]) ∧
      Sending m₁ node store c id s₁ ∧ Brought s₁ b metadata done ∧ s₁.state = .waiting := by
  unfold Mover.onAck
  simp only [h.activeSession? hs, if_pos hstate]
  exact (h.answered .waiting).proceed { hs with }

/-- A grant is served. -/
lemma Sending.onClearToSend (h : Sending m node store c id s) (hs : Brought s b metadata done)
    (hstate : s.state = .waiting) (hscan : store.refused.contains .scan = false)
    (hall : store.matching metadata.range .all = done ++ rest) {page : ScanPage}
    (hpage : page = ScanLimit.take ⟨none, some quota.toNat⟩ 0 0 rest) :
    ∃ m₁ s₁, m.onClearToSend b id quota = (m₁, [.send ⟨node, b,
        .data id (Page.encodeWith c page.items metadata.compressed) (!page.more)⟩]) ∧
      Sending m₁ node store c id s₁ ∧ Brought s₁ b metadata (done ++ page.items) ∧
      s₁.state = .transferring ∧ s₁.finalSent = !page.more := by
  unfold Mover.onClearToSend
  simp only [h.activeSession? hs, hstate]
  exact (h.answered .waiting).serve { hs with } hscan hall hpage

/-- After a page that is not the last the session asks for the next grant. -/
lemma Sending.onAllReceived (h : Sending m node store c id s) (hs : Brought s b metadata done)
    (hstate : s.state = .transferring) (hfinal : s.finalSent = false) :
    ∃ m₁ s₁, m.onAllReceived b id = (m₁, [.send ⟨node, b, .requestToSend id⟩]) ∧
      Sending m₁ node store c id s₁ ∧ Brought s₁ b metadata done ∧ s₁.state = .waiting := by
  unfold Mover.onAllReceived
  simp only [h.activeSession? hs, hstate, hfinal]
  exact (h.answered .waiting).proceed { hs with }

/-- A mover that keeps nothing of a session it had to some node. -/
structure Forgot (m : Mover) (id : SessionId) (destination : NodeId) : Prop where
  outbound : m.outbound.get? id = none
  byDestination : m.byDestination.get? destination = none
  timer : m.timers.armed.get? id = none

/-- A session that is stopped is dropped at once, and nothing else. -/
lemma finishTeardown_stop (ht : m.teardown = []) (h : m.outbound.get? id = some s)
    (hs : s.stopped = false) : ∃ outbound, (m.stop id).finishTeardown =
      { m with
        outbound
        byDestination :=
          if m.byDestination.get? s.destination = some id then m.byDestination.erase s.destination
          else m.byDestination
        finished := m.finished.insert id
        timers := m.timers.cancel id } := by
  rw [stop_of_active h hs]
  unfold Mover.finishTeardown
  rw [ht, List.nil_append, List.foldl_cons, List.foldl_nil]
  unfold dropSession
  simp only [setSession_get?, if_pos]
  rw [← ht]
  exact ⟨_, rfl⟩

lemma Sending.stop (h : Sending m node store c id s) (hs : s.stopped = false) :
    (m.stop id).finishTeardown.store = store ∧
      (m.stop id).finishTeardown.Forgot id s.destination := by
  obtain ⟨outbound, hstop⟩ := finishTeardown_stop h.teardown h.session hs
  refine ⟨?_, stop_get?_self h.session hs, ?_, ?_⟩
  · rw [hstop]
    exact h.store
  · rw [hstop]
    show SortedMap.get? (if m.byDestination.get? s.destination = some id then _ else _) _ = none
    rw [if_pos h.listed]
    exact (SortedMap.get?_erase _ _ _).trans (if_pos rfl)
  · rw [hstop]
    exact (SortedMap.get?_erase _ _ _).trans (if_pos rfl)

/-- After the last page the session is done and goes away. -/
lemma Sending.onAllReceived_final (h : Sending m node store c id s)
    (hs : Brought s b metadata done) (hstate : s.state = .transferring)
    (hfinal : s.finalSent = true) :
    ∃ m₁, m.onAllReceived b id = (m₁, [.event (.sendFinished id b done.length
        (StoreItem.totalSize done))]) ∧
      m₁.finishTeardown.store = store ∧ m₁.finishTeardown.Forgot id b := by
  have hstop := (h.setSession { s with state := .done, inFlight := none } rfl).stop
    hs.active
  rw [← hs.destination]
  refine ⟨_, ?_, hstop⟩
  unfold Mover.onAllReceived
  simp only [hs.destination, h.activeSession? hs, hstate, hfinal, hs.items, hs.bytes]
  rfl

/-- The session that gives way to a new one is not remembered under the number of that. -/
lemma unfinished_vacate (ht : m.teardown = []) (hnew : m.outbound.get? id = none)
    (hunfinished : m.finished.contains id = false) (destination : NodeId) :
    (m.vacate destination).finished.contains id = false := by
  unfold vacate
  split
  · rename_i old _
    cases hold : m.outbound.get? old with
    | none => rw [stop_of_none hold, finishTeardown_of_nil ht, hunfinished]
    | some s =>
      cases hs : s.stopped with
      | true => rw [stop_of_stopped hold hs, finishTeardown_of_nil ht, hunfinished]
      | false =>
        obtain ⟨_, hstop⟩ := finishTeardown_stop ht hold hs
        rw [hstop, ← Bool.not_eq_true]
        intro hcontains
        rcases RecentSet.contains_of_insert hcontains with rfl | hbefore
        · rw [hold] at hnew
          cases hnew
        · rw [hunfinished] at hbefore
          cases hbefore
  · exact hunfinished

/-- A session is opened under a number that stands for none yet. -/
lemma startSend_sending (hself : m.self = node) (hstore : m.store = store)
    (hcompressor : m.compressor = c) (ht : m.teardown = []) (hid : m.ids.next.1 = id)
    (hnew : m.outbound.get? id = none) (hunfinished : m.finished.contains id = false)
    (hcompression : m.config.compression = metadata.compressed) (b : NodeId) :
    ∃ m₁ s₁, m.startSend b metadata.range metadata.viewId =
        (m₁, [.send ⟨node, b, .initiateTransfer id metadata⟩]) ∧
      Sending m₁ node store c id s₁ ∧ Brought s₁ b metadata [] ∧ s₁.state = .initialising := by
  have hfinished := unfinished_vacate ht hnew hunfinished b
  obtain ⟨⟨_, _, _, _, hrest⟩, -⟩ := ended_vacate ht b
  replace hid : (m.vacate b).ids.next.1 = id := by rw [hrest, ← hid]
  replace hself : (m.vacate b).self = node := by rw [hrest, hself]
  replace hstore : (m.vacate b).store = store := by rw [hrest, hstore]
  replace hcompressor : (m.vacate b).compressor = c := by rw [hrest, hcompressor]
  replace ht : (m.vacate b).teardown = [] := by rw [hrest, ht]
  have hmetadata : (⟨metadata.range, metadata.viewId, (m.vacate b).config.compression⟩ :
      TransferMetadata) = metadata := by
    rw [show (m.vacate b).config = m.config by rw [hrest], hcompression]
  rw [startSend_eq, hid, hmetadata]
  generalize m.vacate b = m₀ at hfinished hid hself hstore hcompressor ht
  have hopened : Sending (m₀.withNewSession b metadata) node store c id
      (.start b metadata (m₀.baseInterval b)) := by
    refine ⟨hself, hstore, hcompressor, ht, hfinished, ?_, ?_⟩
    · show (m₀.byDestination.insert b m₀.ids.next.1).get? b = _
      rw [SortedMap.get?_insert, if_pos rfl, hid]
    · show (m₀.setSession m₀.ids.next.1 _).outbound.get? _ = _
      rw [setSession_get?, hid, if_pos rfl]
  obtain ⟨m₁, interval, hsend, hsending⟩ := hopened.transmit (.initiateTransfer id metadata)
  exact ⟨m₁, _, hsend, hsending, ⟨rfl, rfl, rfl, rfl, rfl, rfl, rfl⟩, rfl⟩

end

end Mover

end ReplicaRing
