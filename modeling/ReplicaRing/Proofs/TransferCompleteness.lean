import ReplicaRing.Proofs.PagePayloads
import ReplicaRing.Proofs.SentPages

/-!
What a completed transfer brings. Of the sender the pages sent are cut off the front of the range;
the receiver keeps a log of receptions of such pages. When a transfer completes, everything was
written exactly if the pages were taken in the order in which they were sent:
`Link.transferComplete_iff_inOrder`. The protocol does not see to that by itself. An
acknowledgement does not say which page it is for, so a late copy of one makes the sender leave a
page behind that was lost on the way.
-/

namespace ReplicaRing

namespace Link

open BlockCompression (Compressor)

/-! ## The invariant -/

/-- While the receiver has the session open, it is the session that was opened with it, and the
receptions are a log of its pages. -/
def ReceiverInv (o : Opening) (id : SessionId) (self : NodeId) (session : Option ReceiverSession)
    (receptions : List Reception) (pages : List (List StoreItem × Bool)) : Prop :=
  ∀ r, session = some r → o.destination = self ∧ r.metadata = o.metadata ∧
    Reception.Log (o.frame id) pages receptions ∧ r.lastKey = Reception.lastWritten receptions

/-- What holds of a link at any time. Pages are told apart by their payloads, so they have to be
legible. -/
structure Inv (id : SessionId) (l : Link) : Prop where
  sender : l.sender.Tidy
  receiver : l.receiver.Tidy
  distinct : l.sender.self ≠ l.receiver.self
  unopened : l.opened = none →
    (∀ e ∈ l.sent, e.src = l.sender.self → e.message.outboundSession? ≠ some id) ∧
      l.sender.outbound.get? id = none ∧ l.receiver.inbound.get? (l.key id) = none
  opened : ∀ o, l.opened = some o → o.compressor = l.sender.compressor
  session : ∀ o, l.opened = some o → o.Legible →
    (∀ s, l.sender.outbound.get? id = some s → l.sender.store.entries = o.store.entries) ∧
      ∃ pages rest,
        SenderInv o id l.sender.self l.sent (l.sender.outbound.get? id) pages rest ∧
          ReceiverInv o id l.receiver.self (l.receiver.inbound.get? (l.key id)) l.receptions pages

variable {id : SessionId} {l l' : Link} {out : List Mover.Output} {input : Mover.Input}

lemma inv_start {a b : NodeId} (hab : a ≠ b) (config config' : TransferConfig)
    (store store' : Store) (ids ids' : IdSource) (c c' : Compressor) :
    Inv id (start (.start a config store ids c) (.start b config' store' ids' c')) where
  sender := Mover.tidy_start a config store ids c
  receiver := Mover.tidy_start b config' store' ids' c'
  distinct := hab
  unopened := fun _ => ⟨by simp [start], SortedMap.get?_empty id, SortedMap.get?_empty _⟩
  opened := fun _ h => (nomatch h)
  session := fun _ h => (nomatch h)

/-- What the wire carries from a mover was sent by it. -/
lemma mem_sent_of_carries {src dst : NodeId} {message : Message}
    (h : l.carries src dst (.inbound src message) = true) : ⟨src, dst, message⟩ ∈ l.sent := by
  unfold carries at h
  simpa using h

lemma ReceiverInv.mono {o : Opening} {self : NodeId} {session : Option ReceiverSession}
    {receptions : List Reception} {pages pages' : List (List StoreItem × Bool)}
    (h : ReceiverInv o id self session receptions pages) (hsub : pages ⊆ pages') :
    ReceiverInv o id self session receptions pages' := by
  intro r hr
  obtain ⟨hdst, hmeta, hlog, hlast⟩ := h r hr
  exact ⟨hdst, hmeta, hlog.mono hsub, hlast⟩

/-! ## Steps of the sender -/

/-- Opening a session leaves the store alone. -/
lemma store_of_opening {m m' : Mover} {o : NodeId × TransferMetadata} (hm : m.Tidy)
    (h : m.handle input = .ok (m', out)) (ho : m.opening? input id = some o) :
    m'.store = m.store := by
  have hnone : m.reception? input = none := by
    cases input with
    | command c => rfl
    | inbound src message => cases ho
    | retry _ => rfl
  rw [Mover.store_of_handle hm h, hnone]
  rfl

/-- A session comes to be by being opened only. -/
lemma eq_none_of_step {c : Compressor} {store : Store} {self : NodeId} {frames : List Envelope}
    {session' : Option SenderSession}
    (h : Mover.SessionStep c store self id none none frames session') :
    frames = [] ∧ session' = none := by
  cases h with
  | same => exact ⟨rfl, rfl⟩

/-- While the session is open, the sender's store holds what it held. -/
lemma entries_of_mayHold {entries : SortedMap Key (Option Bytes)}
    (h : l.mayHold id entries = true) {s : SenderSession}
    (hs : l.sender.outbound.get? id = some s) : entries = l.sender.store.entries := by
  unfold mayHold at h
  simpa [SortedMap.contains, hs] using h

/-- Whatever the sender handles, the invariant stays. -/
lemma Inv.sender_handles {m : Mover} (h : Inv id l)
    (hhandle : l.sender.handle input = .ok (m, out))
    (hstore : l.mayHold id m.store.entries = true)
    (honce : l.sender.opening? input id = none ∨ l.opened = none) :
    Inv id { l with
      sender := m
      sent := l.sent ++ Mover.envelopes out
      opened := ((l.sender.opening? input id).map fun o =>
        Opening.mk o.1 o.2 l.sender.store l.sender.compressor).or l.opened } := by
  obtain ⟨hself, -, hcompressor, -⟩ := Mover.handle_rest h.sender hhandle
  have hsession := Mover.sessionStep_of_handle h.sender hhandle id
  have hkey : (⟨m.self, id⟩ : PeerSession) = l.key id := by rw [hself]; rfl
  refine ⟨Mover.tidy_of_handle h.sender hhandle, h.receiver, hself ▸ h.distinct, ?_,
    fun o ho => ?_, ?_⟩
  · -- the session is not open, so nothing is sent in it
    intro hnone
    obtain ⟨hopening, hopened⟩ := Option.or_eq_none_iff.1 hnone
    rw [Option.map_eq_none_iff] at hopening
    obtain ⟨hsent, hout, hin⟩ := h.unopened hopened
    rw [hopening, hout] at hsession
    obtain ⟨hframes, hout'⟩ := eq_none_of_step hsession
    refine ⟨fun e he hesrc hid => ?_, hout', ?_⟩
    · rcases List.mem_append.1 he with he | he
      · exact hsent e he (hesrc.trans hself) hid
      · have : e ∈ Mover.framesOf id out := Mover.mem_framesOf.2 ⟨he, hid⟩
        rw [hframes] at this
        cases this
    · show l.receiver.inbound.get? ⟨m.self, id⟩ = none
      rw [hkey, hin]
  · -- a session keeps the compressor that it was opened with, and so does the mover
    show o.compressor = m.compressor
    rw [hcompressor]
    cases hopening : l.sender.opening? input id with
    | none =>
      rw [hopening] at ho
      exact h.opened o ho
    | some opening =>
      rw [hopening] at ho
      cases ho
      rfl
  · intro o ho hlegible
    show (∀ s, m.outbound.get? id = some s → _) ∧ ∃ pages rest,
      SenderInv o id m.self _ (m.outbound.get? id) pages rest ∧
        ReceiverInv o id _ (l.receiver.inbound.get? ⟨m.self, id⟩) _ pages
    rw [hkey, hself]
    cases hopening : l.sender.opening? input id with
    | none =>
      -- the session was opened before, and takes a step of its own
      rw [hopening] at hsession ho
      obtain ⟨hentries, pages, rest, hsender, hreceiver⟩ := h.session o ho hlegible
      rw [← h.opened o ho] at hsession
      obtain ⟨pages', rest', hsub, hsender'⟩ := hsender.step hlegible hentries hsession
      refine ⟨fun s hs => ?_, pages', rest', hsender', hreceiver.mono hsub⟩
      cases hbefore : l.sender.outbound.get? id with
      | none =>
        rw [hbefore] at hsession
        rw [(eq_none_of_step hsession).2] at hs
        cases hs
      | some s₀ => exact (entries_of_mayHold hstore hbefore).trans (hentries s₀ hbefore)
    | some opening =>
      -- it is opened now, and its number was never used
      rw [hopening] at hsession ho honce
      have hopened : l.opened = none := honce.resolve_left (by simp)
      obtain ⟨hsent, hout, hin⟩ := h.unopened hopened
      cases ho
      refine ⟨fun s _ => congrArg Store.entries (store_of_opening h.sender hhandle hopening), [], _,
        SenderInv.opened hsent hsession, fun r hr => ?_⟩
      rw [hin] at hr
      cases hr

/-! ## Steps of the receiver -/

/-- A page that reaches the open session was sent in it, and its items are those of the page. -/
lemma log_reception {o : Opening} (hlegible : o.Legible)
    {pages : List (List StoreItem × Bool)} {rest : List StoreItem}
    (hsender : SenderInv o id l.sender.self l.sent (l.sender.outbound.get? id) pages rest)
    (hreceiver : ReceiverInv o id l.receiver.self (l.receiver.inbound.get? (l.key id))
      l.receptions pages)
    (hcarries : l.carries l.sender.self l.receiver.self input = true) {refused : List StoreCall}
    {r : Reception} {session' : Option ReceiverSession}
    (hstep : Mover.ReceiverStep (l.key id) refused input (l.receiver.inbound.get? (l.key id))
      (some r) session') :
    Reception.Log (o.frame id) pages (l.receptions ++ [r]) := by
  generalize hsession : l.receiver.inbound.get? (l.key id) = session at hstep hreceiver
  cases hstep with
  | received s s' payload isFinal items acknowledged hdecode hmeta hlast hack =>
    obtain ⟨hdst, hsmeta, hlog, hslast⟩ := hreceiver s rfl
    have hsent := mem_sent_of_carries hcarries
    have hframe : Message.data id payload isFinal ∈ pages.map (o.frame id) := by
      rw [← hsender.frames, List.mem_eraseDups, mem_pagesIn]
      exact ⟨by simp [Message.isPageOf], _, hsent, rfl, rfl⟩
    obtain ⟨x, hx, heq⟩ := List.mem_map.1 hframe
    have hitems : items = x.1 := by
      rw [← (Opening.eq_of_frame heq).1, hsmeta] at hdecode
      exact Page.eq_of_decode_encodeWith (hlegible.sublist (hsender.paged.sublist_page hx)) hdecode
    have hasc : Ascending items :=
      hitems ▸ hsender.paged.ascending_page o.ascending_entries hx
    obtain ⟨hfront, -⟩ := ReceiverSession.written_front ⟨∅, refused⟩ s hasc
    rw [hslast, hitems] at hfront
    refine hlog.snoc hx heq.symm ?_ ?_
    · show ReceiverSession.written refused s.lastKey items <+: _
      rw [hslast, hitems]
      exact hfront
    · show acknowledged = true ↔ ReceiverSession.written refused s.lastKey items = _
      rw [← hslast, ← hitems]
      exact hack hasc

/-- The receptions stay a log of the session's pages when the session takes a step. A handshake
opens it with what the sender brings and without a reception. -/
lemma ReceiverInv.step {o : Opening} {key : PeerSession} {refused : List StoreCall}
    {self : NodeId} {session session' : Option ReceiverSession} {receptions : List Reception}
    {received : Option Reception} {pages : List (List StoreItem × Bool)}
    (h : ReceiverInv o id self session receptions pages)
    (hstep : Mover.ReceiverStep key refused input session received session')
    (hopened : ∀ metadata, input = .inbound key.peer (.initiateTransfer key.id metadata) →
      o.destination = self ∧ metadata = o.metadata)
    (hlog : ∀ r, received = some r → Reception.Log (o.frame id) pages (receptions ++ [r])) :
    ReceiverInv o id self session'
      ((if session.isSome then receptions else []) ++ received.toList) pages := by
  intro r hr
  cases hstep with
  | same =>
    rw [hr]
    simpa using h r hr
  | opened metadata =>
    cases hr
    obtain ⟨hdst, hmeta⟩ := hopened metadata rfl
    exact ⟨hdst, hmeta, .nil, rfl⟩
  | received s s' payload isFinal items acknowledged hdecode hmeta hlast hack =>
    obtain ⟨hdst, hsmeta, -, hslast⟩ := h s rfl
    split at hr
    · -- the final page closed the session
      cases hr
    · cases hr
      refine ⟨hdst, hmeta.trans hsmeta, hlog _ rfl, ?_⟩
      rw [hlast, hslast]
      exact (Reception.lastWritten_snoc receptions
        ⟨key, .data key.id payload isFinal, _, acknowledged⟩).symm

/-- Whatever the receiver handles, the invariant stays. -/
lemma Inv.receiver_handles {m : Mover} (h : Inv id l)
    (hcarries : l.carries l.sender.self l.receiver.self input = true)
    (hhandle : l.receiver.handle input = .ok (m, out)) :
    Inv id { l with
      receiver := m
      sent := l.sent ++ Mover.envelopes out
      receptions :=
        (if l.receiver.inbound.contains (l.key id) then l.receptions else []) ++
          (l.receiver.receptionOf (l.key id) input).toList } := by
  obtain ⟨hself, -, hsrc⟩ := Mover.handle_self h.receiver hhandle
  have hstep := Mover.receiverStep_of_handle h.receiver hhandle (l.key id)
  -- the frames that go out are the receiver's own
  have hother : ∀ e ∈ Mover.envelopes out, e.src ≠ l.sender.self := fun e he =>
    hsrc e he ▸ h.distinct.symm
  refine ⟨h.sender, Mover.tidy_of_handle h.receiver hhandle, hself ▸ h.distinct, ?_, h.opened, ?_⟩
  · intro hopened
    obtain ⟨hsent, hout, hin⟩ := h.unopened hopened
    refine ⟨fun e he hesrc hid => ?_, hout, ?_⟩
    · rcases List.mem_append.1 he with he | he
      · exact hsent e he hesrc hid
      · exact hother e he hesrc
    · show m.inbound.get? (l.key id) = none
      rw [hin] at hstep
      generalize hr : l.receiver.receptionOf (l.key id) input = r at hstep
      generalize hs : m.inbound.get? (l.key id) = session' at hstep
      cases hstep with
      | same => rfl
      | opened metadata => exact absurd rfl (hsent _ (mem_sent_of_carries hcarries) rfl)
  · intro o ho hlegible
    obtain ⟨hentries, pages, rest, hsender, hreceiver⟩ := h.session o ho hlegible
    refine ⟨hentries, pages, rest, hsender.append_other _ fun e he hesrc =>
      absurd hesrc (hother e he), ?_⟩
    show ReceiverInv o id m.self (m.inbound.get? (l.key id)) _ pages
    have hopens : ∀ metadata,
        input = .inbound (l.key id).peer (.initiateTransfer (l.key id).id metadata) →
          o.destination = l.receiver.self ∧ metadata = o.metadata := by
      rintro metadata rfl
      -- a handshake that reaches the receiver was sent, so it was sent to it
      obtain ⟨hdst, hmeta⟩ := hsender.addressed _ (mem_sent_of_carries hcarries) rfl rfl
      exact ⟨hdst.symm, hmeta metadata rfl⟩
    rw [hself]
    exact hreceiver.step hstep hopens fun r hr =>
      log_reception hlegible hsender hreceiver hcarries (hr ▸ hstep)

/-! ## Runs -/

/-- What a step of the sender is made of. -/
lemma stepSender_eq_some (h : l.stepSender id input = some (l', out)) :
    ∃ m, l.sender.handle input = .ok (m, out) ∧ l.mayHold id m.store.entries = true ∧
      (l.sender.opening? input id = none ∨ l.opened = none) ∧
      l' = { l with
        sender := m
        sent := l.sent ++ Mover.envelopes out
        opened := ((l.sender.opening? input id).map fun o =>
          Opening.mk o.1 o.2 l.sender.store l.sender.compressor).or l.opened } := by
  unfold stepSender at h
  split at h
  · split at h
    · cases h
    · rename_i m out' hhandle
      simp only at h
      split at h
      · rename_i hmay
        cases h
        rw [Bool.and_eq_true] at hmay
        refine ⟨m, hhandle, hmay.1, ?_, rfl⟩
        have honce := hmay.2
        cases hopening : l.sender.opening? input id with
        | none => exact .inl rfl
        | some o =>
          rw [hopening] at honce
          exact .inr (by simpa using honce)
      · cases h
  · cases h

/-- What a step of the receiver is made of. -/
lemma stepReceiver_eq_some (h : l.stepReceiver id input = some (l', out)) :
    ∃ m, l.carries l.sender.self l.receiver.self input = true ∧
      l.receiver.handle input = .ok (m, out) ∧
      l' = { l with
        receiver := m
        sent := l.sent ++ Mover.envelopes out
        receptions :=
          (if l.receiver.inbound.contains (l.key id) then l.receptions else []) ++
            (l.receiver.receptionOf (l.key id) input).toList } := by
  unfold stepReceiver at h
  split at h
  · rename_i hcarries
    split at h
    · cases h
    · rename_i m out' hhandle
      cases h
      exact ⟨m, hcarries, hhandle, rfl⟩
  · cases h

/-- Every event keeps the invariant, the names of the movers and how the sender compresses. -/
theorem Inv.step (h : Inv id l) {event : Event} (hstep : l.step id event = some (l', out)) :
    Inv id l' ∧ l'.sender.self = l.sender.self ∧ l'.receiver.self = l.receiver.self ∧
      l'.sender.compressor = l.sender.compressor := by
  cases event with
  | sender input =>
    obtain ⟨m, hhandle, hmay, honce, rfl⟩ := stepSender_eq_some hstep
    obtain ⟨hself, -, hcompressor, -⟩ := Mover.handle_rest h.sender hhandle
    exact ⟨h.sender_handles hhandle hmay honce, hself, rfl, hcompressor⟩
  | receiver input =>
    obtain ⟨m, hcarries, hhandle, rfl⟩ := stepReceiver_eq_some hstep
    exact ⟨h.receiver_handles hcarries hhandle, rfl, (Mover.handle_self h.receiver hhandle).1, rfl⟩
  | amidSender w =>
    unfold Link.step at hstep
    simp only at hstep
    split at hstep
    · rename_i hmay
      cases hstep
      refine ⟨⟨h.sender.amid w, h.receiver, h.distinct, h.unopened, h.opened,
        fun o ho hlegible => ?_⟩, rfl, rfl, rfl⟩
      obtain ⟨hentries, hsession⟩ := h.session o ho hlegible
      exact ⟨fun s hs => (entries_of_mayHold hmay hs).trans (hentries s hs), hsession⟩
    · cases hstep
  | amidReceiver w =>
    cases hstep
    exact ⟨⟨h.sender, h.receiver.amid w, h.distinct, h.unopened, h.opened, h.session⟩,
      rfl, rfl, rfl⟩

theorem Inv.run {events : List Event} (h : Inv id l) (hrun : l.run id events = some l') :
    Inv id l' ∧ l'.sender.self = l.sender.self ∧ l'.receiver.self = l.receiver.self ∧
      l'.sender.compressor = l.sender.compressor := by
  induction events generalizing l with
  | nil =>
    cases hrun
    exact ⟨h, rfl, rfl, rfl⟩
  | cons event events ih =>
    unfold Link.run at hrun
    obtain ⟨r, hstep, hrest⟩ := Option.bind_eq_some_iff.1 hrun
    obtain ⟨hstep, hsender', hreceiver', hcompressor'⟩ := h.step hstep
    obtain ⟨hinv, hsender, hreceiver, hcompressor⟩ := ih hstep hrest
    exact ⟨hinv, hsender.trans hsender', hreceiver.trans hreceiver',
      hcompressor.trans hcompressor'⟩

/-! ## Completeness -/

/-- Every entry of the range, values and tombstones alike, was written as the sender held it. -/
def Complete (o : Opening) (receptions : List Reception) : Prop :=
  ∀ k v, o.store.entries.get? k = some v → o.metadata.range.contains k = true →
    ⟨k, v⟩ ∈ Reception.allWritten receptions

lemma complete_iff {o : Opening} {receptions : List Reception} :
    Complete o receptions ↔ ∀ i ∈ o.entries, i ∈ Reception.allWritten receptions := by
  constructor
  · intro h i hi
    obtain ⟨hget, hrange⟩ := Store.mem_matching_all.1 hi
    exact h i.key i.value hget hrange
  · intro h k v hget hrange
    exact h ⟨k, v⟩ (Store.mem_matching_all.2 ⟨hget, hrange⟩)

/-- When a transfer completes, it was opened by the sender for this receiver, nothing was written
but entries of the range, and all of them were written exactly if the pages were written in the
order in which they were sent. -/
theorem transferComplete_iff_inOrder {a b : NodeId} (hab : a ≠ b)
    {config config' : TransferConfig} {store store' : Store} {ids ids' : IdSource}
    {events : List Event} {metadata : TransferMetadata} {items bytes : Nat}
    {c c' : Compressor}
    (hrun : (start (.start a config store ids c) (.start b config' store' ids' c')).run id events =
      some l)
    (hstep : l.step id (.receiver input) = some (l', out))
    (hcomplete : .event (.transferComplete id a metadata items bytes) ∈ out)
    (hlegible : ∀ o, l.opened = some o → o.Legible) :
    ∃ s, l.opened = some ⟨b, metadata, s, c⟩ ∧
      (∀ i ∈ Reception.allWritten l'.receptions,
        s.entries.get? i.key = some i.value ∧ metadata.range.contains i.key = true) ∧
      (Complete ⟨b, metadata, s, c⟩ l'.receptions ↔
        Reception.InOrder (l'.pageFrames id) l'.receptions) := by
  obtain ⟨hinv, hself, hself', hcompressor⟩ :=
    (inv_start hab config config' store store' ids ids' c c').run hrun
  replace hself : l.sender.self = a := hself
  replace hself' : l.receiver.self = b := hself'
  replace hcompressor : l.sender.compressor = c := hcompressor
  obtain ⟨m, hcarries, hhandle, rfl⟩ := stepReceiver_eq_some hstep
  -- the event is told with the reception of a final page in the open session
  obtain ⟨s, payload, r, rfl, hget, rfl, hr, hsession, hframe, hack⟩ :=
    Mover.transferComplete_of_handle hinv.receiver hhandle hcomplete
  have hkey : l.key id = ⟨a, id⟩ := by
    unfold key
    rw [hself]
  have hrec : l.receiver.receptionOf (l.key id) (.inbound a (.data id payload true)) = some r := by
    unfold Mover.receptionOf
    rw [hr, hkey]
    simp [hsession]
  have hopen : l.receiver.inbound.get? (l.key id) = some s := by rw [hkey, hget]
  cases ho : l.opened with
  | none =>
    -- a receiver has no session that was never opened
    rw [(hinv.unopened ho).2.2] at hopen
    cases hopen
  | some o =>
    have hlegible := hlegible o ho
    obtain ⟨-, pages, rest, hsender, hreceiver⟩ := hinv.session o ho hlegible
    obtain ⟨hdst, hmeta, -, -⟩ := hreceiver s hopen
    have hreceived := Mover.receiverStep_of_handle hinv.receiver hhandle (l.key id)
    rw [hrec] at hreceived
    have hlog := log_reception hlegible hsender hreceiver hcarries hreceived
    obtain ⟨x, hx, hrx, -⟩ := hlog.split (show _ = l.receptions ++ r :: [] from rfl)
    have hfinal : x.2 = true := (Opening.eq_of_frame (hrx.symm.trans hframe)).2
    -- the receiver's own frames add no page
    have hframes := (hsender.append_other (Mover.envelopes out) fun e he hsrc =>
      absurd ((Mover.handle_self hinv.receiver hhandle).2.2 e he ▸ hsrc) hinv.distinct.symm).frames
    have hmore : (if l.receiver.inbound.contains (l.key id) then l.receptions else []) =
        l.receptions := by
      unfold SortedMap.contains
      rw [hopen]
      rfl
    have hopening : o = ⟨b, s.metadata, o.store, c⟩ := by
      rw [hmeta, ← hself', ← hdst, ← hcompressor, ← hinv.opened o ho]
    simp only [hmore, hrec, Option.toList_some]
    refine ⟨o.store, by rw [← hopening], fun i hi => ?_, ?_⟩
    · -- what is written stands on a page, and pages are cut off the range
      have hmem := hlog.mem_all hsender.paged hi
      rw [hopening] at hmem
      exact Store.mem_matching_all.1 hmem
    · rw [← hopening, complete_iff]
      unfold pageFrames
      rw [hframes]
      exact Reception.all_written_iff_inOrder (Opening.frame_injective hlegible hsender.paged) hlog
        hsender.paged o.ascending_entries hack hx hfinal hrx

/-! ## Three pages -/

namespace ThreePages

def a : NodeId := ⟨"a", 1, none⟩

def b : NodeId := ⟨"b", 1, none⟩

/-- Grants of two bytes, each for one of the items below. -/
def config : TransferConfig := { quotaBytes := 2, compression := false }

def store : Store := .ofList [([1], [9]), ([2], [9]), ([3], [9])]

def brought : Opening := ⟨b, ⟨.full, 1, false⟩, store, .run⟩

def link : Link :=
  start (.start a config store ⟨0, 0⟩ .run) (.start b config (.ofList []) ⟨0, 0⟩ .literal)

def page (k : UInt8) : Message := brought.frame 1 ([⟨[k], some [9]⟩], k == 3)

/-- The handshake, up to the first request. -/
def handshake : List Event :=
  [.sender (.command (.startSend b .full 1)),
    .receiver (.inbound a (.initiateTransfer 1 brought.metadata)),
    .sender (.inbound b (.ack 1))]

/-- A request and its grant, which is served with the next page. -/
def request : List Event :=
  [.receiver (.inbound a (.requestToSend 1)), .sender (.inbound b (.clearToSend 1 2))]

/-- A page reaches the receiver. -/
def arrival (k : UInt8) : Event := .receiver (.inbound a (page k))

/-- An acknowledgement reaches the sender, be it the first copy or another. -/
def acknowledgement : Event := .sender (.inbound b (.allReceived 1))

/-- A run, and the step in which the last page arrives. -/
def finished (events : List Event) : Option (Link × Link × List Mover.Output) :=
  (link.run 1 events).bind fun l => (l.step 1 (arrival 3)).map fun r => (l, r.1, r.2)

lemma of_finished {events : List Event} (h : finished events = some (l, l', out)) :
    link.run 1 events = some l ∧ l.step 1 (arrival 3) = some (l', out) := by
  unfold finished at h
  obtain ⟨l₀, hrun, hstep⟩ := Option.bind_eq_some_iff.1 h
  obtain ⟨r, hr, heq⟩ := Option.map_eq_some_iff.1 hstep
  cases heq
  exact ⟨hrun, hr⟩

lemma legible : brought.Legible where
  fits := Page.fits_of_length_put (by decide)
  packed _ := .inl BlockCompression.Compressor.run_lossless

/-- Every page arrives once, and so does every acknowledgement. -/
def undisturbed : List Event :=
  handshake ++ request ++ [arrival 1, acknowledgement] ++ request ++
    [arrival 2, acknowledgement] ++ request

/-- The second page is lost, and a second copy of the acknowledgement of the first is taken for
its own. -/
def disturbed : List Event :=
  handshake ++ request ++ [arrival 1, acknowledgement] ++ request ++ [acknowledgement] ++ request

end ThreePages

open ThreePages in
/-- Pages that arrive one after the other bring everything. -/
theorem transferComplete_iff_inOrder_undisturbed : ∃ l l' out,
    link.run 1 undisturbed = some l ∧ l.step 1 (arrival 3) = some (l', out) ∧
      .event (.transferComplete 1 a brought.metadata 3 6) ∈ out ∧
      Complete brought l'.receptions ∧ Reception.InOrder (l'.pageFrames 1) l'.receptions := by
  obtain ⟨⟨l, l', out⟩, h⟩ : ∃ x, finished undisturbed = some x :=
    Option.isSome_iff_exists.1 rfl
  obtain ⟨hrun, hstep⟩ := of_finished h
  have hopened : (finished undisturbed).map (fun x => x.1.opened) = some (some brought) := rfl
  have hout : (finished undisturbed).map (fun x => x.2.2) =
      some [.send ⟨b, a, .allReceived 1⟩,
        .event (.transferComplete 1 a brought.metadata 3 6)] := rfl
  have hwritten : (finished undisturbed).map (fun x => Reception.allWritten x.2.1.receptions) =
      some store.items := rfl
  rw [h, Option.map_some, Option.some_inj] at hopened hout hwritten
  have hevent : .event (.transferComplete 1 a brought.metadata 3 6) ∈ out := by
    rw [show out = _ from hout]
    simp
  obtain ⟨s, hs, -, hiff⟩ := transferComplete_iff_inOrder (by decide) hrun hstep hevent
    fun o ho => by
      rw [show l.opened = _ from hopened] at ho
      cases ho
      exact legible
  rw [show l.opened = _ from hopened] at hs
  cases hs
  have hcomplete : Complete brought l'.receptions := by
    rw [complete_iff, show Reception.allWritten l'.receptions = _ from hwritten]
    exact fun i hi => (List.mem_filter.1 hi).1
  exact ⟨l, l', out, hrun, hstep, hevent, hcomplete, hiff.1 hcomplete⟩

open ThreePages in
/-- A transfer completes without a page that was lost. -/
theorem transferComplete_disturbed : ∃ l l' out,
    link.run 1 disturbed = some l ∧ l.step 1 (arrival 3) = some (l', out) ∧
      .event (.transferComplete 1 a brought.metadata 2 4) ∈ out ∧ l.opened = some brought ∧
      ¬ Complete brought l'.receptions := by
  obtain ⟨⟨l, l', out⟩, h⟩ : ∃ x, finished disturbed = some x := Option.isSome_iff_exists.1 rfl
  obtain ⟨hrun, hstep⟩ := of_finished h
  have hopened : (finished disturbed).map (fun x => x.1.opened) = some (some brought) := rfl
  have hout : (finished disturbed).map (fun x => x.2.2) =
      some [.send ⟨b, a, .allReceived 1⟩,
        .event (.transferComplete 1 a brought.metadata 2 4)] := rfl
  have hwritten : (finished disturbed).map (fun x => Reception.allWritten x.2.1.receptions) =
      some [⟨[1], some [9]⟩, ⟨[3], some [9]⟩] := rfl
  rw [h, Option.map_some, Option.some_inj] at hopened hout hwritten
  refine ⟨l, l', out, hrun, hstep, ?_, hopened, fun hcomplete => ?_⟩
  · rw [show out = _ from hout]
    simp
  · have hmem := hcomplete [2] (some [9]) rfl rfl
    rw [show Reception.allWritten l'.receptions = _ from hwritten] at hmem
    revert hmem
    decide

end Link

end ReplicaRing
