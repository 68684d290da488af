import ReplicaRing.Proofs.SenderSteps
import ReplicaRing.Proofs.Paging

/-!
What one input does to an inbound session. A page that reaches an open session is a `Reception`:
its items above the session's last key are written in order, as far as the store lets them, and
the page is acknowledged if all of them were. `Mover.receiverStep_of_handle` says that a session is
opened by a handshake, moved on by receptions, closed by the reception of a final page, and left
alone by everything else.
-/

namespace ReplicaRing

/-! ## Writing items -/

/-- The store call that writes an item. -/
def StoreItem.writeCall (i : StoreItem) : StoreCall := if i.value.isSome then .put else .delete

namespace Store

/-- Writes items one after the other. -/
def writeAll (s : Store) (items : List StoreItem) : Store :=
  items.foldl (fun s i => s.write i.key i.value) s

lemma writeAll_append (s : Store) (items more : List StoreItem) :
    s.writeAll (items ++ more) = (s.writeAll items).writeAll more := List.foldl_append

/-- Writing changes no other calls than before are refused. -/
lemma writeAll_refused (s : Store) (items : List StoreItem) :
    (s.writeAll items).refused = s.refused := by
  induction items generalizing s with
  | nil => rfl
  | cons i items ih => exact ih _

end Store

namespace ReceiverSession

/-- Whether a key lies above the last one written. -/
def above (last : Option Key) (k : Key) : Bool := !last.any fun l => (compare k l).isLE

lemma above_some_iff {l k : Key} : above (some l) k = true ↔ compare l k = .lt := by
  unfold above
  rw [Option.any_some, Bool.not_eq_true', ← Bool.not_eq_true]
  constructor
  · intro h
    exact Std.OrientedCmp.lt_of_not_isLE h
  · intro h
    exact Std.OrientedCmp.not_isLE_of_lt h

/-- What lies above a key that lies above the last lies above the last. -/
lemma above_of_lt {last : Option Key} {k x : Key} (h : above last k = true)
    (hx : compare k x = .lt) : above last x = true := by
  cases last with
  | none => rfl
  | some l => exact above_some_iff.2 (Std.TransCmp.lt_trans (above_some_iff.1 h) hx)

/-- The items of a page that are written: those above the last key, the last key moving along, up
to the first whose store call is refused. -/
def written (refused : List StoreCall) : Option Key → List StoreItem → List StoreItem
  | _, [] => []
  | last, i :: rest =>
    if above last i.key = false then written refused last rest
    else if refused.contains i.writeCall then []
    else i :: written refused (some i.key) rest

/-- The last key after some items were written. -/
def lastAfter (last : Option Key) (items : List StoreItem) : Option Key :=
  (items.getLast?.map StoreItem.key).or last

lemma writeItems_skip {store : Store} {s : ReceiverSession} {i : StoreItem}
    {rest : List StoreItem} (h : above s.lastKey i.key = false) :
    writeItems store s (i :: rest) = writeItems store s rest := by
  have hskip : (s.lastKey.any fun last => (compare i.key last).isLE) = true := by
    simpa [above] using h
  rw [writeItems, if_pos hskip]

lemma writeItems_refused {store : Store} {s : ReceiverSession} {i : StoreItem}
    {rest : List StoreItem} (h : above s.lastKey i.key = true)
    (hr : store.refused.contains i.writeCall = true) :
    writeItems store s (i :: rest) = (store, s, false) := by
  have hskip : ¬ (s.lastKey.any fun last => (compare i.key last).isLE) = true := by
    simpa [above] using h
  rw [writeItems, if_neg hskip]
  obtain ⟨k, _ | v⟩ := i
  · replace hr : store.refused.contains .delete = true := hr
    simp only [Store.delete, Store.guard, if_pos hr]
  · replace hr : store.refused.contains .put = true := hr
    simp only [Store.put, Store.guard, if_pos hr]

lemma writeItems_write {store : Store} {s : ReceiverSession} {i : StoreItem}
    {rest : List StoreItem} (h : above s.lastKey i.key = true)
    (hr : store.refused.contains i.writeCall = false) :
    writeItems store s (i :: rest) =
      writeItems (store.write i.key i.value)
        { s with items := s.items + 1, bytes := s.bytes + i.size, lastKey := some i.key } rest := by
  have hskip : ¬ (s.lastKey.any fun last => (compare i.key last).isLE) = true := by
    simpa [above] using h
  rw [writeItems, if_neg hskip]
  obtain ⟨k, _ | v⟩ := i
  · replace hr : ¬ store.refused.contains .delete = true := by
      simpa [StoreItem.writeCall] using hr
    simp only [Store.delete, Store.guard, if_neg hr]
  · replace hr : ¬ store.refused.contains .put = true := by
      simpa [StoreItem.writeCall] using hr
    simp only [Store.put, Store.guard, if_neg hr]

/-- Whatever order a page is in, the items that are written ascend from the last key. -/
lemma ascending_written (refused : List StoreCall) (last : Option Key) (items : List StoreItem) :
    Ascending (written refused last items) ∧
      ∀ i ∈ written refused last items, above last i.key = true := by
  induction items generalizing last with
  | nil => exact ⟨.nil, fun i hi => (nomatch hi)⟩
  | cons i rest ih =>
    unfold written
    by_cases hskip : above last i.key = false
    · rw [if_pos hskip]
      exact ih last
    · rw [if_neg hskip]
      rw [Bool.not_eq_false] at hskip
      by_cases hr : refused.contains i.writeCall = true
      · rw [if_pos hr]
        exact ⟨.nil, fun i hi => (nomatch hi)⟩
      · rw [if_neg hr]
        obtain ⟨hasc, habove⟩ := ih (some i.key)
        refine ⟨List.pairwise_cons.2 ⟨fun j hj => above_some_iff.1 (habove j hj), hasc⟩, ?_⟩
        intro j hj
        rcases List.mem_cons.1 hj with rfl | hj
        · exact hskip
        · exact above_of_lt hskip (above_some_iff.1 (habove j hj))

/-- Writing a page writes its `written` items and moves the last key to the last of them. -/
theorem writeItems_eq (store : Store) (s : ReceiverSession) (items : List StoreItem) :
    (writeItems store s items).1 = store.writeAll (written store.refused s.lastKey items) ∧
      (writeItems store s items).2.1.metadata = s.metadata ∧
      (writeItems store s items).2.1.lastKey =
        lastAfter s.lastKey (written store.refused s.lastKey items) := by
  induction items generalizing store s with
  | nil => exact ⟨rfl, rfl, rfl⟩
  | cons i rest ih =>
    unfold written
    cases habove : above s.lastKey i.key with
    | false =>
      rw [writeItems_skip habove, if_pos rfl]
      exact ih store s
    | true =>
      rw [if_neg (by simp)]
      cases hr : store.refused.contains i.writeCall with
      | true =>
        rw [writeItems_refused habove hr, if_pos rfl]
        exact ⟨rfl, rfl, rfl⟩
      | false =>
        rw [writeItems_write habove hr, if_neg (by simp)]
        obtain ⟨hstore, hmeta, hlast⟩ := ih (store.write i.key i.value)
          { s with items := s.items + 1, bytes := s.bytes + i.size, lastKey := some i.key }
        refine ⟨hstore, hmeta, hlast.trans ?_⟩
        -- the item is the last one written unless a later one is
        unfold lastAfter
        rw [List.getLast?_cons]
        show (Option.map _ (List.getLast? (written store.refused (some i.key) rest))).or _ = _
        cases (written store.refused (some i.key) rest).getLast? with
        | none => rfl
        | some j => rfl

/-- What lies above the last key of a row in key order continues it. -/
lemma ascending_append {front items : List StoreItem} (hfront : Ascending front)
    (hitems : Ascending items)
    (habove : ∀ i ∈ items, above (front.getLast?.map StoreItem.key) i.key = true) :
    Ascending (front ++ items) := by
  refine List.pairwise_append.2 ⟨hfront, hitems, fun i hi j hj => ?_⟩
  cases hlast : front.getLast? with
  | none =>
    rw [List.getLast?_eq_none_iff.1 hlast] at hi
    cases hi
  | some l =>
    have hkey : front.getLast?.map StoreItem.key = some l.key := by rw [hlast, Option.map_some]
    exact Std.TransCmp.lt_of_isLE_of_lt (hfront.isLE_last hkey hi)
      (above_some_iff.1 (hkey ▸ habove j hj))

/-- Of items in key order those above the last key are written, or a front part of them if the
store refuses a call; the page counts as written in the first case. -/
theorem written_front (store : Store) (s : ReceiverSession) {items : List StoreItem}
    (h : Ascending items) :
    written store.refused s.lastKey items <+: items.filter (fun i => above s.lastKey i.key) ∧
      ((writeItems store s items).2.2 = true ↔
        written store.refused s.lastKey items =
          items.filter fun i => above s.lastKey i.key) := by
  induction items generalizing store s with
  | nil => simp [written, writeItems]
  | cons i rest ih =>
    obtain ⟨hlt, hrest⟩ := List.pairwise_cons.1 h
    unfold written
    cases habove : above s.lastKey i.key with
    | false =>
      rw [writeItems_skip habove, if_pos rfl, List.filter_cons_of_neg (by simp [habove])]
      exact ih store s hrest
    | true =>
      rw [if_neg (by simp), List.filter_cons_of_pos (by exact habove)]
      cases hr : store.refused.contains i.writeCall with
      | true =>
        rw [writeItems_refused habove hr, if_pos rfl]
        simp
      | false =>
        rw [writeItems_write habove hr, if_neg (by simp)]
        -- the items behind this one are above it, so both filters let all of them through
        have hbehind : rest.filter (fun j => above s.lastKey j.key) =
            rest.filter fun j => above (some i.key) j.key := by
          rw [List.filter_eq_self.2 fun j hj => above_of_lt habove (hlt j hj),
            List.filter_eq_self.2 fun j hj => above_some_iff.2 (hlt j hj)]
        obtain ⟨hfront, hall⟩ := ih (store.write i.key i.value)
          { s with items := s.items + 1, bytes := s.bytes + i.size, lastKey := some i.key } hrest
        rw [hbehind]
        refine ⟨List.cons_prefix_cons.2 ⟨rfl, hfront⟩, hall.trans ?_⟩
        simp [Store.write]

end ReceiverSession

/-! ## Receptions -/

/-- A page that reached an open session. -/
structure Reception where
  session : PeerSession
  frame : Message
  /-- Its items that were written, in order. -/
  written : List StoreItem
  /-- Whether the page was acknowledged. -/
  acknowledged : Bool

namespace Mover

/-- The page that an input brings to an open session. -/
def reception? (m : Mover) (input : Input) : Option Reception :=
  match input with
  | .inbound src (.data id payload isFinal) =>
    if m.completed.contains ⟨src, id⟩ then none
    else
      match m.inbound.get? ⟨src, id⟩ with
      | none => none
      | some s =>
        match Page.decode payload s.metadata.compressed with
        | .error _ => none
        | .ok items =>
          some
            { session := ⟨src, id⟩
              frame := .data id payload isFinal
              written := ReceiverSession.written m.store.refused s.lastKey items
              acknowledged := (ReceiverSession.writeItems m.store s items).2.2 }
  | _ => none

/-- The page that an input brings to one session. -/
def receptionOf (m : Mover) (key : PeerSession) (input : Input) : Option Reception :=
  (m.reception? input).filter fun r => r.session == key

/-- What may happen to the inbound session of one key. -/
inductive ReceiverStep (key : PeerSession) (refused : List StoreCall) :
    Input → Option ReceiverSession → Option Reception → Option ReceiverSession → Prop
  | same (input o) : ReceiverStep key refused input o none o
  | opened (metadata) :
      ReceiverStep key refused (.inbound key.peer (.initiateTransfer key.id metadata)) none none
        (some (.start metadata))
  | received (s s' : ReceiverSession) (payload isFinal items acknowledged) :
      Page.decode payload s.metadata.compressed = .ok items →
      s'.metadata = s.metadata →
      s'.lastKey = ReceiverSession.lastAfter s.lastKey
        (ReceiverSession.written refused s.lastKey items) →
      (Ascending items → (acknowledged = true ↔
        ReceiverSession.written refused s.lastKey items =
          items.filter fun i => ReceiverSession.above s.lastKey i.key)) →
      ReceiverStep key refused (.inbound key.peer (.data key.id payload isFinal)) (some s)
        (some
          { session := key
            frame := .data key.id payload isFinal
            written := ReceiverSession.written refused s.lastKey items
            acknowledged })
        (if acknowledged && isFinal then none else some s')

variable {m m' : Mover} {input : Input} {out : List Output} {src : NodeId} {id : SessionId}

/-- Ending sessions leaves the receiver's part alone. -/
lemma finishTeardown_receiver (m : Mover) : m.finishTeardown.store = m.store ∧
    m.finishTeardown.inbound = m.inbound ∧ m.finishTeardown.completed = m.completed := by
  obtain ⟨_, _, _, h⟩ := finishTeardown_eq m
  rw [h]
  exact ⟨rfl, rfl, rfl⟩

/-- A page is not received by a session that is completed or unknown, nor if it does not decode. -/
lemma onData_of_none {payload : Bytes} {isFinal : Bool}
    (h : m.reception? (.inbound src (.data id payload isFinal)) = none) :
    (m.onData src id payload isFinal).1 = m ∧
      ∀ e, .event e ∉ (m.onData src id payload isFinal).2 := by
  unfold reception? at h
  unfold onData
  simp only at h ⊢
  by_cases hc : m.completed.contains ⟨src, id⟩ = true
  · rw [if_pos hc]
    exact ⟨rfl, by simp [sendTo]⟩
  · rw [if_neg hc] at h ⊢
    cases hs : m.inbound.get? ⟨src, id⟩ with
    | none => exact ⟨rfl, by simp⟩
    | some s =>
      cases hd : Page.decode payload s.metadata.compressed with
      | error e => simp [hd]
      | ok items => simp [hs, hd] at h

/-- What a reception is made of, and what it makes of the mover. -/
lemma onData_of_some {payload : Bytes} {isFinal : Bool} {r : Reception}
    (h : m.reception? (.inbound src (.data id payload isFinal)) = some r) :
    ∃ s items, m.inbound.get? ⟨src, id⟩ = some s ∧
      Page.decode payload s.metadata.compressed = .ok items ∧
      r = { session := ⟨src, id⟩
            frame := .data id payload isFinal
            written := ReceiverSession.written m.store.refused s.lastKey items
            acknowledged := (ReceiverSession.writeItems m.store s items).2.2 } ∧
      (m.onData src id payload isFinal).1.store = m.store.writeAll r.written ∧
      (∀ key, (m.onData src id payload isFinal).1.inbound.get? key =
        if key = ⟨src, id⟩ then
          if r.acknowledged && isFinal then none
          else some (ReceiverSession.writeItems m.store s items).2.1
        else m.inbound.get? key) ∧
      (m.onData src id payload isFinal).1.completed =
        (if r.acknowledged && isFinal then m.completed.insert ⟨src, id⟩ else m.completed) ∧
      eventsIn (m.onData src id payload isFinal).2 =
        if r.acknowledged && isFinal then
          [.transferComplete id src s.metadata (ReceiverSession.writeItems m.store s items).2.1.items
            (ReceiverSession.writeItems m.store s items).2.1.bytes]
        else [] := by
  unfold reception? at h
  simp only at h
  by_cases hc : m.completed.contains ⟨src, id⟩ = true
  · rw [if_pos hc] at h
    cases h
  · rw [if_neg hc] at h
    cases hs : m.inbound.get? ⟨src, id⟩ with
    | none => simp [hs] at h
    | some s =>
      cases hd : Page.decode payload s.metadata.compressed with
      | error e => simp [hs, hd] at h
      | ok items =>
        simp only [hs, hd, Option.some_inj] at h
        cases h
        refine ⟨s, items, rfl, hd, rfl, ?_⟩
        obtain ⟨hstore, hmeta, -⟩ := ReceiverSession.writeItems_eq m.store s items
        unfold onData
        simp only [if_neg hc, hs, hd]
        generalize hw : ReceiverSession.writeItems m.store s items = w at hstore hmeta
        obtain ⟨store, s', acknowledged⟩ := w
        simp only at hstore hmeta ⊢
        cases acknowledged with
        | false =>
          refine ⟨hstore, fun key => ?_, rfl, rfl⟩
          exact SortedMap.get?_insert m.inbound ⟨src, id⟩ key s'
        | true =>
          -- an acknowledged final page completes the session and closes it
          cases isFinal with
          | false =>
            refine ⟨hstore, fun key => ?_, rfl, rfl⟩
            exact SortedMap.get?_insert m.inbound ⟨src, id⟩ key s'
          | true =>
            refine ⟨hstore, fun key => ?_, rfl, by rw [← hmeta]; rfl⟩
            show ((m.inbound.insert ⟨src, id⟩ s').erase ⟨src, id⟩).get? key = _
            rw [SortedMap.get?_erase, SortedMap.get?_insert]
            split
            · rfl
            · rfl

/-! ## Steps of every inbound session -/

/-- The receiver's part after a frame of a sender was handled. -/
lemma onMessage_cases (m : Mover) (src : NodeId) {message : Message} {id : SessionId}
    (h : message.outboundSession? = some id) :
    (∃ metadata, message = .initiateTransfer id metadata ∧
      (m.onMessage src message).1 = { m with
        inbound := if m.inbound.contains ⟨src, id⟩ || m.completed.contains ⟨src, id⟩ then m.inbound
          else m.inbound.insert ⟨src, id⟩ (.start metadata) } ∧
      ∀ e, .event e ∉ (m.onMessage src message).2) ∨
    ((m.onMessage src message).1 = m ∧ (∀ e, .event e ∉ (m.onMessage src message).2) ∧
      m.reception? (.inbound src message) = none) ∨
    ∃ payload isFinal r, message = .data id payload isFinal ∧
      m.reception? (.inbound src message) = some r := by
  cases message with
  | initiateTransfer id' metadata =>
    cases h
    refine .inl ⟨metadata, rfl, ?_, by simp [onMessage, onInitiate, sendTo]⟩
    show (m.onInitiate src id metadata).1 = _
    unfold onInitiate
    simp only
    split
    · rfl
    · rfl
  | requestToSend id' =>
    have hgrant : m.onMessage src (.requestToSend id') = m.onRequestToSend src id' := rfl
    rw [hgrant]
    unfold onRequestToSend
    refine .inr (.inl ?_)
    split
    · exact ⟨rfl, by simp [sendTo], rfl⟩
    · exact ⟨rfl, by simp, rfl⟩
  | data id' payload isFinal =>
    cases h
    cases hr : m.reception? (.inbound src (.data id payload isFinal)) with
    | none =>
      obtain ⟨hsame, hquiet⟩ := onData_of_none hr
      exact .inr (.inl ⟨hsame, hquiet, rfl⟩)
    | some r => exact .inr (.inr ⟨payload, isFinal, r, rfl, rfl⟩)
  | _ => cases h

/-- No page comes with what a sender handles. -/
lemma reception?_of_isOutbound (h : input.IsOutbound) : m.reception? input = none := by
  cases input with
  | command c => rfl
  | retry id => rfl
  | inbound src message =>
    have hs := h src message rfl
    cases message with
    | data id payload isFinal => cases hs
    | _ => rfl

/-- Whatever a mover handles, each of its inbound sessions takes one of the steps. -/
theorem receiverStep_of_handle (hm : m.Tidy) (h : m.handle input = .ok (m', out))
    (key : PeerSession) :
    ReceiverStep key m.store.refused input (m.inbound.get? key) (m.receptionOf key input)
      (m'.inbound.get? key) := by
  rcases handle_cases hm h with ⟨m₁, rfl, hinput, hmove⟩ | ⟨src, message, id, rfl, hid, rfl, -, -⟩
  · obtain ⟨_, _, _, _, _, _, hrest⟩ := hmove.rest
    replace hrest : m₁ = _ := hrest
    have hnone : m.receptionOf key input = none := by
      simp [receptionOf, reception?_of_isOutbound hinput]
    rw [hnone, (finishTeardown_receiver m₁).2.1, hrest]
    exact .same input _
  · rw [(finishTeardown_receiver _).2.1]
    rcases onMessage_cases m src hid with ⟨metadata, rfl, hopen, -⟩ | ⟨hsame, -, hnone⟩ |
      ⟨payload, isFinal, r, rfl, hr⟩
    · have hnone : m.receptionOf key (.inbound src (.initiateTransfer id metadata)) = none := rfl
      rw [hopen, hnone]
      simp only
      split
      · exact .same _ _
      · rename_i hclosed
        rw [SortedMap.get?_insert]
        by_cases hkey : key = ⟨src, id⟩
        · -- a handshake opens the session if it is neither open nor completed
          have hget : m.inbound.get? key = none := by
            rw [Bool.or_eq_true, not_or] at hclosed
            rw [hkey]
            simpa [SortedMap.contains] using hclosed.1
          rw [if_pos hkey, hget, hkey]
          exact .opened metadata
        · rw [if_neg hkey]
          exact .same _ _
    · have hnone' : m.receptionOf key (.inbound src message) = none := by simp [receptionOf, hnone]
      rw [hsame, hnone']
      exact .same _ _
    · obtain ⟨s, items, hget, hdecode, hr', -, hafter, -⟩ := onData_of_some hr
      have hafter : (m.onMessage src (.data id payload isFinal)).1.inbound.get? key = _ :=
        hafter key
      rw [hafter]
      by_cases hkey : key = ⟨src, id⟩
      · have hrec : m.receptionOf key (.inbound src (.data id payload isFinal)) = some r := by
          simp [receptionOf, hr, hkey, hr']
        obtain ⟨-, hmeta, hlast⟩ := ReceiverSession.writeItems_eq m.store s items
        rw [if_pos hkey, hrec, hkey, hget, hr']
        exact .received s _ payload isFinal items _ hdecode hmeta hlast fun hasc =>
          (ReceiverSession.written_front m.store s hasc).2
      · have hrec : m.receptionOf key (.inbound src (.data id payload isFinal)) = none := by
          simp [receptionOf, hr, Ne.symm hkey, hr']
        rw [if_neg hkey, hrec]
        exact .same _ _

/-- The store changes by what is received, and by nothing else. -/
theorem store_of_handle (hm : m.Tidy) (h : m.handle input = .ok (m', out)) :
    m'.store = m.store.writeAll ((m.reception? input).elim [] Reception.written) := by
  rcases handle_cases hm h with ⟨m₁, rfl, hinput, hmove⟩ | ⟨src, message, id, rfl, hid, rfl, -, -⟩
  · obtain ⟨_, _, _, _, _, _, hrest⟩ := hmove.rest
    replace hrest : m₁ = _ := hrest
    rw [(finishTeardown_receiver m₁).1, reception?_of_isOutbound hinput, hrest]
    rfl
  · rw [(finishTeardown_receiver _).1]
    rcases onMessage_cases m src hid with ⟨metadata, rfl, hopen, -⟩ | ⟨hsame, -, hnone⟩ |
      ⟨payload, isFinal, r, rfl, hr⟩
    · rw [hopen]
      rfl
    · rw [hsame, hnone]
      rfl
    · obtain ⟨-, -, -, -, -, hstore, -⟩ := onData_of_some hr
      rw [hr]
      exact hstore

/-- A transfer completes with the reception of its final page. -/
theorem transferComplete_of_handle (hm : m.Tidy) (h : m.handle input = .ok (m', out))
    {metadata : TransferMetadata} {items bytes : Nat}
    (hevent : .event (.transferComplete id src metadata items bytes) ∈ out) :
    ∃ s payload r, input = .inbound src (.data id payload true) ∧
      m.inbound.get? ⟨src, id⟩ = some s ∧ s.metadata = metadata ∧
      m.reception? input = some r ∧ r.session = ⟨src, id⟩ ∧ r.frame = .data id payload true ∧
      r.acknowledged = true := by
  rcases handle_cases hm h with ⟨m₁, rfl, -, hmove⟩ | ⟨src', message, id', rfl, hid, rfl, rfl, -⟩
  · cases hmove.events _ hevent
  · rcases onMessage_cases m src' hid with ⟨_, rfl, -, hquiet⟩ | ⟨-, hquiet, -⟩ |
      ⟨payload, isFinal, r, rfl, hr⟩
    · exact absurd hevent (hquiet _)
    · exact absurd hevent (hquiet _)
    · obtain ⟨s, items, hget, -, hr', -, -, -, hevents⟩ := onData_of_some hr
      have hmem : _ ∈ eventsIn (m.onData src' id' payload isFinal).2 := mem_eventsIn.2 hevent
      rw [hevents] at hmem
      split at hmem
      case isFalse => cases hmem
      case isTrue hlast =>
      cases List.mem_singleton.1 hmem
      rw [Bool.and_eq_true] at hlast
      obtain ⟨hack, rfl⟩ := hlast
      exact ⟨s, payload, r, rfl, hget, rfl, hr, by rw [hr'], by rw [hr'], hack⟩

end Mover

end ReplicaRing
