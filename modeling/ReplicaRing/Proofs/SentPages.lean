import ReplicaRing.Proofs.TransferLink

/-!
The pages that a sender sends. It cuts the entries of the range into pages, in key order, whatever
acknowledgement it takes for the answer to which page, and it sends nothing else: `SenderInv` says
that the pages sent so far are cut off the front of the range and that the session reads on behind
them, and every step of the session keeps it.
-/

namespace ReplicaRing

/-! ## Frames sent -/

section

variable {id : SessionId} {node : NodeId} {sent more : List Envelope}

lemma Message.outboundSession?_of_isPageOf {message : Message} (h : message.isPageOf id = true) :
    message.outboundSession? = some id := by
  cases message with
  | data id' payload isFinal =>
    have : id' = id := by simpa [isPageOf] using h
    rw [this]
    rfl
  | _ => cases h

lemma mem_pagesIn {message : Message} : message ∈ pagesIn id node sent ↔
    message.isPageOf id = true ∧ ∃ e ∈ sent, e.src = node ∧ e.message = message := by
  unfold pagesIn
  rw [List.mem_map]
  constructor
  · rintro ⟨e, he, rfl⟩
    rw [List.mem_filter, Bool.and_eq_true, beq_iff_eq] at he
    exact ⟨he.2.2, e, he.1, he.2.1, rfl⟩
  · rintro ⟨hpage, e, he, hsrc, rfl⟩
    exact ⟨e, List.mem_filter.2 ⟨he, by simp [hsrc, hpage]⟩, rfl⟩

lemma pagesIn_append (sent more : List Envelope) :
    pagesIn id node (sent ++ more) = pagesIn id node sent ++ pagesIn id node more := by
  unfold pagesIn
  rw [List.filter_append, List.map_append]

/-- Sending pages again adds none. -/
lemma eraseDups_pagesIn_append
    (h : ∀ message ∈ pagesIn id node more, message ∈ pagesIn id node sent) :
    (pagesIn id node (sent ++ more)).eraseDups = (pagesIn id node sent).eraseDups := by
  have hnone : (pagesIn id node more).removeAll (pagesIn id node sent) = [] := by
    unfold List.removeAll
    rw [List.filter_eq_nil_iff]
    intro message hmem
    simp [h message hmem]
  rw [pagesIn_append, List.eraseDups_append, hnone]
  simp

/-- The pages among a mover's frames are among those of the session. -/
lemma pagesIn_envelopes (id : SessionId) (node : NodeId) (out : List Mover.Output) :
    pagesIn id node (Mover.envelopes out) = pagesIn id node (Mover.framesOf id out) := by
  unfold pagesIn Mover.framesOf
  rw [List.filter_filter]
  congr 1
  refine List.filter_congr fun e _ => ?_
  cases hpage : e.message.isPageOf id with
  | false => simp
  | true => simp [Message.outboundSession?_of_isPageOf hpage]

end

/-! ## The sender's side -/

/-- The open session, as far as the pages sent determine it. -/
structure Current (o : Opening) (node : NodeId) (sent : List Envelope)
    (pages : List (List StoreItem × Bool)) (rest : List StoreItem) (s : SenderSession) :
    Prop where
  destination : s.destination = o.destination
  metadata : s.metadata = o.metadata
  remaining : o.store.matching s.remaining .all = rest
  final : s.finalSent = true ↔ pages ≠ [] ∧ rest = []
  early : s.state = .initialising ∨ s.state = .waiting → s.finalSent = false
  inFlight : ∀ message, s.inFlight = some message → ⟨node, s.destination, message⟩ ∈ sent

/-- The pages sent are cut off the front of the range, and the session reads on behind them. -/
structure SenderInv (o : Opening) (id : SessionId) (node : NodeId) (sent : List Envelope)
    (session : Option SenderSession) (pages : List (List StoreItem × Bool))
    (rest : List StoreItem) : Prop where
  paged : Paged o.entries pages rest
  frames : (pagesIn id node sent).eraseDups = pages.map (o.frame id)
  addressed : ∀ e ∈ sent, e.src = node → e.message.outboundSession? = some id →
    e.dst = o.destination ∧ ∀ metadata, e.message = .initiateTransfer id metadata →
      metadata = o.metadata
  current : ∀ s, session = some s → Current o node sent pages rest s

section

variable {o : Opening} {id : SessionId} {node : NodeId} {sent more : List Envelope}
  {out : List Mover.Output} {session session' : Option SenderSession}
  {pages : List (List StoreItem × Bool)} {rest : List StoreItem} {s : SenderSession}

lemma Opening.ascending_entries (o : Opening) : Ascending o.entries := Store.ascending_matching

/-- What the frame of a page holds. -/
lemma Opening.eq_of_frame {page : List StoreItem × Bool} {payload : Bytes} {isFinal : Bool}
    (h : o.frame id page = .data id payload isFinal) :
    Page.encodeWith o.compressor page.1 o.metadata.compressed = payload ∧ page.2 = isFinal := by
  unfold frame at h
  injection h with _ hpayload hfinal
  exact ⟨hpayload, hfinal⟩

/-- Different pages have different frames. -/
lemma Opening.frame_injective (hlegible : o.Legible) (hpaged : Paged o.entries pages rest) :
    ∀ x ∈ pages, ∀ y ∈ pages, o.frame id x = o.frame id y → x = y := by
  intro x hx y hy heq
  obtain ⟨hpayload, hfinal⟩ := eq_of_frame heq
  have hitems := Page.encodeWith_injective (hlegible.sublist (hpaged.sublist_page hx))
    (hlegible.sublist (hpaged.sublist_page hy)) hpayload
  exact Prod.ext hitems hfinal

/-- A session that may send has not sent its final page. -/
lemma Current.finalSent_of_maySend (h : Current o node sent pages rest s) (hmay : s.MaySend) :
    s.finalSent = false := by
  rcases hmay with hstate | hstate | ⟨-, hfinal⟩
  · exact h.early (.inl hstate)
  · exact h.early (.inr hstate)
  · exact hfinal

/-- The next page is cut off the front of what is left. -/
lemma Current.paged_page {store : Store} {limit : Option Nat} {page : ScanPage}
    (hpaged : Paged o.entries pages rest) (h : Current o node sent pages rest s)
    (hmay : s.MaySend) (hstore : store.entries = o.store.entries)
    (hscan : store.scan s.remaining ⟨none, limit⟩ .all = .ok page) :
    ∃ rest', Paged o.entries (pages ++ [(page.items, !page.more)]) rest' ∧
      (page.more = true ↔ rest' ≠ []) ∧ rest = page.items ++ rest' := by
  have hpage := Store.take_of_scan hscan
  rw [Store.matching_congr hstore, h.remaining] at hpage
  obtain ⟨rest', hrest, hmore⟩ := ScanLimit.take_append ⟨none, limit⟩ 0 0 rest
  rw [← hpage] at hrest hmore
  have hempty : page.items = [] → rest = [] := by
    intro hnil
    by_contra hne
    exact ScanLimit.take_ne_nil (by simp) hne (hpage ▸ hnil)
  have hflag : (!page.more) = rest'.isEmpty := by
    cases hm : page.more with
    | false =>
      have : rest' = [] := by simpa [hm] using hmore
      simp [this]
    | true =>
      have : rest' ≠ [] := by simpa [hm] using hmore
      simpa using this
  have hfinal := h.finalSent_of_maySend hmay
  refine ⟨rest', ?_, hmore, hrest⟩
  rw [hflag]
  refine .next (hrest ▸ hpaged) (fun hpages => ?_) fun hnil => ?_
  · intro hnone
    rw [← hrest] at hnone
    rw [h.final.2 ⟨hpages, hnone⟩] at hfinal
    cases hfinal
  · have hnone := hempty hnil
    rw [hrest] at hnone
    exact (List.append_eq_nil_iff.1 hnone).2

/-- After the next page the session reads on behind it. -/
lemma matching_remaining {page : ScanPage} {rest' : List StoreItem}
    (hpaged : Paged o.entries (pages ++ [(page.items, !page.more)]) rest')
    (hremaining : o.store.matching s.remaining .all = page.items ++ rest')
    (hmetadata : s.metadata = o.metadata) {s' : SenderSession}
    (hmetadata' : s'.metadata = s.metadata)
    (hlast : s'.lastKey = (page.lastKey? <|> s.lastKey)) :
    o.store.matching s'.remaining .all = rest' := by
  cases hk : page.lastKey? with
  | none =>
    -- an empty page leaves the session where it was, and nothing was left there
    have hnil : page.items = [] := by
      unfold ScanPage.lastKey? at hk
      simpa using hk
    have hsame : s'.remaining = s.remaining := by
      unfold SenderSession.remaining
      rw [hlast, hk, hmetadata']
      rfl
    rw [hsame, hremaining, hnil]
    rfl
  | some k =>
    have hreads : s'.remaining = o.metadata.range.after k := by
      unfold SenderSession.remaining
      rw [hlast, hk, hmetadata', hmetadata]
      rfl
    rw [hreads]
    refine Store.matching_after_page hpaged.flatten ?_
    have hpage : page.items.getLast?.map StoreItem.key = some k := hk
    obtain ⟨i, hi, rfl⟩ := Option.map_eq_some_iff.1 hpage
    rw [List.flatMap_append, List.flatMap_singleton, List.getLast?_append, hi]
    rfl

/-- More frames leave the session as it is. -/
lemma Current.mono (h : Current o node sent pages rest s) (more : List Envelope) :
    Current o node (sent ++ more) pages rest s :=
  { h with inFlight := fun message hm => List.mem_append.2 (.inl (h.inFlight message hm)) }

/-- The session as the next page leaves it. -/
lemma Current.page {page : ScanPage} {rest' : List StoreItem} {s' : SenderSession}
    (h : Current o node sent pages rest s)
    (hpaged : Paged o.entries (pages ++ [(page.items, !page.more)]) rest')
    (hmore : page.more = true ↔ rest' ≠ []) (hrest : rest = page.items ++ rest')
    (hdestination : s'.destination = s.destination) (hmetadata : s'.metadata = s.metadata)
    (hlast : s'.lastKey = (page.lastKey? <|> s.lastKey)) (hfinal : s'.finalSent = !page.more)
    (hstate : s'.state = .transferring)
    (hflight : ∀ message, s'.inFlight = some message → ⟨node, s.destination, message⟩ ∈ more) :
    Current o node (sent ++ more) (pages ++ [(page.items, !page.more)]) rest' s' where
  destination := hdestination.trans h.destination
  metadata := hmetadata.trans h.metadata
  remaining := matching_remaining hpaged (h.remaining.trans hrest) h.metadata hmetadata hlast
  final := by
    rw [hfinal]
    by_cases hnone : rest' = []
    · have hm : page.more = false := by simpa [hnone] using hmore
      simp [hm, hnone]
    · have hm : page.more = true := hmore.2 hnone
      simp [hm, hnone]
  early := by simp [hstate]
  inFlight := by
    intro message hm
    rw [hdestination]
    exact List.mem_append.2 (.inr (hflight message hm))

namespace SenderInv

/-- More frames, none of them a new page, leave the pages as they are. -/
lemma append (h : SenderInv o id node sent session pages rest)
    (hpages : ∀ message ∈ pagesIn id node more, message ∈ pagesIn id node sent)
    (hmore : ∀ e ∈ more, e.src = node → e.message.outboundSession? = some id →
      e.dst = o.destination ∧ ∀ metadata, e.message = .initiateTransfer id metadata →
        metadata = o.metadata)
    (hcurrent : ∀ s, session' = some s → Current o node (sent ++ more) pages rest s) :
    SenderInv o id node (sent ++ more) session' pages rest where
  paged := h.paged
  frames := by rw [eraseDups_pagesIn_append hpages, h.frames]
  addressed := by
    intro e he hsrc hid
    rcases List.mem_append.1 he with he | he
    · exact h.addressed e he hsrc hid
    · exact hmore e he hsrc hid
  current := hcurrent

/-- Frames that do not belong to the session say nothing about it. -/
lemma append_other (h : SenderInv o id node sent session pages rest) (more : List Envelope)
    (hmore : ∀ e ∈ more, e.src = node → e.message.outboundSession? ≠ some id) :
    SenderInv o id node (sent ++ more) session pages rest := by
  refine h.append (fun message hmem => ?_) (fun e he hsrc hid => absurd hid (hmore e he hsrc))
    fun s hs => ?_
  · obtain ⟨hpage, e, he, hsrc, rfl⟩ := mem_pagesIn.1 hmem
    exact absurd (Message.outboundSession?_of_isPageOf hpage) (hmore e he hsrc)
  · exact (h.current s hs).mono more

/-- A page that was not sent before joins the pages. -/
lemma append_page (h : SenderInv o id node sent session pages rest) (hlegible : o.Legible)
    {page : List StoreItem × Bool} {rest' : List StoreItem}
    (hpaged : Paged o.entries (pages ++ [page]) rest')
    (hpages : pagesIn id node more = [o.frame id page])
    (hmore : ∀ e ∈ more, e.src = node → e.message.outboundSession? = some id →
      e.dst = o.destination ∧ ∀ metadata, e.message = .initiateTransfer id metadata →
        metadata = o.metadata)
    (hcurrent : ∀ s, session' = some s →
      Current o node (sent ++ more) (pages ++ [page]) rest' s) :
    SenderInv o id node (sent ++ more) session' (pages ++ [page]) rest' where
  paged := hpaged
  frames := by
    have hnew : o.frame id page ∉ pagesIn id node sent := by
      intro hmem
      rw [← List.mem_eraseDups, h.frames, List.mem_map] at hmem
      obtain ⟨y, hy, heq⟩ := hmem
      have : y = page := Opening.frame_injective hlegible hpaged y (by simp [hy]) page (by simp) heq
      exact hpaged.not_mem_init o.ascending_entries rfl (this ▸ hy)
    have hremove : [o.frame id page].removeAll (pagesIn id node sent) = [o.frame id page] := by
      unfold List.removeAll
      simp [hnew]
    rw [pagesIn_append, List.eraseDups_append, h.frames, hpages, hremove, List.map_append]
    rfl
  addressed := by
    intro e he hsrc hid
    rcases List.mem_append.1 he with he | he
    · exact h.addressed e he hsrc hid
    · exact hmore e he hsrc hid
  current := hcurrent

/-- A step that sends no new page leaves the pages as they are. -/
lemma keep (h : SenderInv o id node sent session pages rest)
    (hold : ∀ e ∈ Mover.framesOf id out, e.message.isPageOf id = true →
      e.message ∈ pagesIn id node sent)
    (haddressed : ∀ e ∈ Mover.framesOf id out, e.dst = o.destination ∧
      ∀ metadata, e.message = .initiateTransfer id metadata → metadata = o.metadata)
    (hcurrent : ∀ s, session' = some s →
      Current o node (sent ++ Mover.envelopes out) pages rest s) :
    SenderInv o id node (sent ++ Mover.envelopes out) session' pages rest := by
  refine h.append (fun message hmessage => ?_)
    (fun e he _ hid => haddressed e (Mover.mem_framesOf.2 ⟨he, hid⟩)) hcurrent
  rw [pagesIn_envelopes] at hmessage
  obtain ⟨hpage, e, he, -, rfl⟩ := mem_pagesIn.1 hmessage
  exact hold e he hpage

/-- The frame in flight goes out once more. -/
lemma again (h : SenderInv o id node sent (some s) pages rest) {message : Message}
    (hflight : s.inFlight = some message)
    (hframes : Mover.framesOf id out = [⟨node, s.destination, message⟩])
    (attempts : Nat) (interval : Duration) :
    SenderInv o id node (sent ++ Mover.envelopes out)
      (some { s with attempts, retryInterval := interval }) pages rest := by
  have hcurrent := h.current s rfl
  have hsent := hcurrent.inFlight message hflight
  have hframe : ∀ e ∈ Mover.framesOf id out, e = ⟨node, s.destination, message⟩ := fun e he =>
    List.mem_singleton.1 (hframes ▸ he)
  refine h.keep (fun e he hpage => ?_) (fun e he => ?_) fun s' hs' => ?_
  · rw [hframe e he] at hpage ⊢
    exact mem_pagesIn.2 ⟨hpage, _, hsent, rfl, rfl⟩
  · -- it was addressed as the session's frames are when it went out first
    have hid := (Mover.mem_framesOf.1 he).2
    rw [hframe e he] at hid ⊢
    exact h.addressed _ hsent rfl hid
  · cases hs'
    exact { hcurrent.mono _ with }

/-- The session asks for a grant. -/
lemma ask (h : SenderInv o id node sent (some s) pages rest) (hmay : s.MaySend)
    (hframes : Mover.framesOf id out = [⟨node, s.destination, .requestToSend id⟩])
    (interval : Duration) :
    SenderInv o id node (sent ++ Mover.envelopes out)
      (some { s with
        state := .waiting
        inFlight := some (.requestToSend id)
        attempts := 1
        retryInterval := interval }) pages rest := by
  have hcurrent := h.current s rfl
  have hframe : ∀ e ∈ Mover.framesOf id out, e = ⟨node, s.destination, .requestToSend id⟩ :=
    fun e he => List.mem_singleton.1 (hframes ▸ he)
  refine h.keep (fun e he hpage => ?_) (fun e he => ?_) fun s' hs' => ?_
  · rw [hframe e he] at hpage
    cases hpage
  · rw [hframe e he]
    exact ⟨hcurrent.destination, fun _ h => (nomatch h)⟩
  · cases hs'
    have hfinal := hcurrent.finalSent_of_maySend hmay
    refine { hcurrent.mono (Mover.envelopes out) with
      early := fun _ => hfinal
      inFlight := fun message hm => ?_ }
    cases hm
    exact List.mem_append.2 (.inr (Mover.mem_framesOf.1 (hframes ▸ List.mem_singleton.2 rfl)).1)

/-- Whatever step the session takes, the pages sent stay cut off the front of the range. -/
theorem step (h : SenderInv o id node sent session pages rest) (hlegible : o.Legible)
    {store : Store} (hstore : ∀ s, session = some s → store.entries = o.store.entries)
    (hstep : Mover.SessionStep o.compressor store node id none session (Mover.framesOf id out)
      session') :
    ∃ pages' rest', pages ⊆ pages' ∧
      SenderInv o id node (sent ++ Mover.envelopes out) session' pages' rest' := by
  generalize hframes : Mover.framesOf id out = frames at hstep
  cases hstep with
  | same =>
    exact ⟨pages, rest, List.Subset.refl _, h.keep (by simp [hframes]) (by simp [hframes])
      fun s hs => (h.current s hs).mono _⟩
  | gone s =>
    exact ⟨pages, rest, List.Subset.refl _, h.keep (by simp [hframes]) (by simp [hframes])
      fun s hs => (nomatch hs)⟩
  | queue s quota =>
    refine ⟨pages, rest, List.Subset.refl _, h.keep (by simp [hframes]) (by simp [hframes])
      fun s' hs' => ?_⟩
    cases hs'
    exact { (h.current s rfl).mono _ with }
  | again s message interval hflight _ =>
    exact ⟨pages, rest, List.Subset.refl _, h.again hflight hframes _ interval⟩
  | ask s interval hmay _ =>
    exact ⟨pages, rest, List.Subset.refl _, h.ask hmay hframes interval⟩
  | page s quota grants interval page hmay hscan =>
    have hcurrent := h.current s rfl
    obtain ⟨rest', hpaged, hmore, hrest⟩ :=
      hcurrent.paged_page h.paged hmay (hstore s rfl) hscan
    have hframe : ∀ e ∈ Mover.envelopes out, e.message.outboundSession? = some id →
        e = ⟨node, s.destination,
          .data id (Page.encodeWith o.compressor page.items s.metadata.compressed)
            (!page.more)⟩ := fun e he hid =>
      List.mem_singleton.1 (hframes ▸ Mover.mem_framesOf.2 ⟨he, hid⟩)
    refine ⟨pages ++ [(page.items, !page.more)], rest', List.subset_append_left _ _,
      h.append_page hlegible hpaged ?_ (fun e he _ hid => ?_) fun s' hs' => ?_⟩
    · rw [pagesIn_envelopes, hframes]
      unfold pagesIn Opening.frame
      simp [Message.isPageOf, hcurrent.metadata]
    · rw [hframe e he hid]
      exact ⟨hcurrent.destination, fun _ h => (nomatch h)⟩
    · cases hs'
      refine hcurrent.page hpaged hmore hrest rfl rfl rfl rfl rfl fun message hm => ?_
      cases hm
      exact (Mover.mem_framesOf.1 (hframes ▸ List.mem_singleton.2 rfl)).1

/-- A session that is opened has all of its range before it. -/
theorem opened {destination : NodeId} {metadata : TransferMetadata} {store : Store}
    {c : BlockCompression.Compressor} {old : Option SenderSession}
    (hfresh : ∀ e ∈ sent, e.src = node → e.message.outboundSession? ≠ some id)
    (hstep : Mover.SessionStep c store node id (some (destination, metadata)) old
      (Mover.framesOf id out) session') :
    SenderInv ⟨destination, metadata, store, c⟩ id node (sent ++ Mover.envelopes out) session' []
      (Opening.mk destination metadata store c).entries := by
  generalize hframes : Mover.framesOf id out = frames at hstep
  cases hstep with
  | opened _ _ _ interval =>
    -- the handshake is all that was sent in it
    have haddressed : ∀ e ∈ sent ++ Mover.envelopes out, e.src = node →
        e.message.outboundSession? = some id →
        e = ⟨node, destination, .initiateTransfer id metadata⟩ := by
      intro e he hsrc hid
      rcases List.mem_append.1 he with he | he
      · exact absurd hid (hfresh e he hsrc)
      · exact List.mem_singleton.1 (hframes ▸ Mover.mem_framesOf.2 ⟨he, hid⟩)
    refine ⟨.start, ?_, fun e he hsrc hid => ?_, fun s hs => ?_⟩
    · have hnone : pagesIn id node (sent ++ Mover.envelopes out) = [] := by
        rw [List.eq_nil_iff_forall_not_mem]
        intro message hmessage
        obtain ⟨hpage, e, he, hsrc, rfl⟩ := mem_pagesIn.1 hmessage
        rw [haddressed e he hsrc (Message.outboundSession?_of_isPageOf hpage)] at hpage
        cases hpage
      rw [hnone]
      rfl
    · rw [haddressed e he hsrc hid]
      exact ⟨rfl, fun _ h => by injection h with _ h; exact h.symm⟩
    · cases hs
      refine ⟨rfl, rfl, rfl, by simp [SenderSession.start], fun _ => rfl, fun message hm => ?_⟩
      cases hm
      exact List.mem_append.2 (.inr (Mover.mem_framesOf.1 (hframes ▸ List.mem_singleton.2 rfl)).1)

end SenderInv

end

end ReplicaRing
