import ReplicaRing.Proofs.PagePayloads
import ReplicaRing.Proofs.TransferEnds

/-!
A transfer over a wire that loses nothing. The two ends move in rounds: a request, a grant, a page
within it, an acknowledgement. Before each round both ends agree on what was brought so far, which
is a front part of the range, and each round makes it longer until the final page brings the rest.
`Exchange.bring_complete` puts this together: after finitely many frames the receiver holds the
range as the sender does, both ends have told so with the same counts, and both have forgotten the
session.
-/

namespace ReplicaRing

open BlockCompression (Compressor)

/-! ## Rounds -/

/-- A transfer to be made between two movers, under the number of a session. -/
structure Errand where
  source : NodeId
  destination : NodeId
  id : SessionId
  metadata : TransferMetadata
  /-- What the receiver grants at a time. -/
  quota : Nat
  /-- The sender's store. -/
  store : Store
  /-- The receiver's store as it was before. -/
  before : Store
  /-- How the sender compresses. -/
  compressor : Compressor

namespace Errand

/-- The entries to be brought. -/
def entries (t : Errand) : List StoreItem := t.store.matching t.metadata.range .all

def limit (t : Errand) : ScanLimit := ⟨none, some (UInt64.ofNat t.quota).toNat⟩

/-- The two ends are different nodes, and neither store refuses a call. -/
structure Possible (t : Errand) : Prop where
  distinct : t.source ≠ t.destination
  scan : t.store.refused.contains .scan = false
  put : t.before.refused.contains .put = false
  delete : t.before.refused.contains .delete = false

/-- A page whose lengths fit the words that they are written in, also when it is compressed. -/
def Portable (t : Errand) (page : ScanPage) : Prop :=
  Page.Fits page.items ∧
    (t.metadata.compressed = true → (Wire.put page.items : Bytes).length < 2 ^ 32)

/-- A page of less than `2 ^ 32` bytes does, compressed or not. -/
lemma portable_of_short {t : Errand} {page : ScanPage}
    (h : (Wire.put page.items : Bytes).length < 2 ^ 32) : t.Portable page :=
  ⟨Page.fits_of_length_put (by omega), fun _ => h⟩

/-- Both ends agree on what was brought, and the sender has asked for a grant. -/
structure Asking (t : Errand) (m m' : Mover) (done : List StoreItem) : Prop where
  sending : ∃ s, Mover.Sending m t.source t.store t.compressor t.id s ∧
    Mover.Brought s t.destination t.metadata done ∧ s.state = .waiting
  receiving : Mover.Receiving m' t.destination t.quota ⟨t.source, t.id⟩ t.metadata t.before done

/-- Everything was brought, and neither end keeps the session. -/
structure Done (t : Errand) (m m' : Mover) : Prop where
  sender : m.store = t.store
  forgot : m.Forgot t.id t.destination
  receiver : m'.store = t.before.writeAll t.entries
  closed : m'.inbound.get? ⟨t.source, t.id⟩ = none

/-- What the ends tell in the end. -/
def told (t : Errand) : List (NodeId × MoverEvent) :=
  [(t.destination, .transferComplete t.id t.source t.metadata t.entries.length
      (StoreItem.totalSize t.entries)),
    (t.source, .sendFinished t.id t.destination t.entries.length
      (StoreItem.totalSize t.entries))]

section

variable {t : Errand} {m m' : Mover} {done rest : List StoreItem} {page : ScanPage}

/-- The request is granted, and the grant is served with the next page. -/
lemma Asking.reaches_page (h : t.Asking m m' done) (now : Duration) (ht : t.Possible)
    (hrest : t.entries = done ++ rest) (hpage : page = t.limit.take 0 0 rest) :
    ∃ m₁ m₁' s, Exchange.Reaches
        ⟨[m, m'], [⟨t.source, t.destination, .requestToSend t.id⟩], now⟩ []
        ⟨[m₁, m₁'], [⟨t.source, t.destination,
          .data t.id (Page.encodeWith t.compressor page.items t.metadata.compressed)
            (!page.more)⟩], now⟩ ∧
      Mover.Receiving m₁' t.destination t.quota ⟨t.source, t.id⟩ t.metadata t.before done ∧
      Mover.Sending m₁ t.source t.store t.compressor t.id s ∧
      Mover.Brought s t.destination t.metadata (done ++ page.items) ∧
      s.state = .transferring ∧ s.finalSent = !page.more := by
  obtain ⟨⟨s, hsending, hbrought, hstate⟩, hreceiving⟩ := h
  have hgrant := Exchange.reaches_second hsending.self hreceiving.self ht.distinct
    (.requestToSend t.id) ((hreceiving.atInstant now).onRequestToSend)
  have hreceiving₁ := (hreceiving.atInstant now).finishTeardown
  obtain ⟨m₁, s₁, hserve, hsending₁, hbrought₁, hstate₁⟩ :=
    (hsending.atInstant now).onClearToSend hbrought hstate ht.scan hrest hpage
  have hdata := Exchange.reaches_first hsending.self hreceiving₁.self ht.distinct
    (.clearToSend t.id (UInt64.ofNat t.quota)) hserve
  rw [Mover.finishTeardown_of_nil hsending₁.teardown] at hdata
  exact ⟨m₁, _, s₁, hgrant.trans hdata, hreceiving₁, hsending₁, hbrought₁, hstate₁⟩

/-- A page that is not the last takes a round, after which the sender asks again. -/
lemma Asking.reaches_next (h : t.Asking m m' done) (now : Duration) (ht : t.Possible)
    (hrest : t.entries = done ++ rest) (hpage : page = t.limit.take 0 0 rest)
    (hportable : t.Portable page)
    (hasc : Ascending (done ++ page.items)) (hmore : page.more = true) :
    ∃ m₁ m₁', Exchange.Reaches
        ⟨[m, m'], [⟨t.source, t.destination, .requestToSend t.id⟩], now⟩ []
        ⟨[m₁, m₁'], [⟨t.source, t.destination, .requestToSend t.id⟩], now⟩ ∧
      t.Asking m₁ m₁' (done ++ page.items) := by
  obtain ⟨m₁, m₁', s, hdata, hreceiving, hsending, hbrought, hstate, hfinal⟩ :=
    h.reaches_page now ht hrest hpage
  rw [hmore, Bool.not_true] at hdata hfinal
  obtain ⟨m₂', hwrite, hreceiving₂⟩ := (hreceiving.atInstant now).onData ht.put ht.delete hasc
    (Page.decode_encodeWith t.compressor hportable.1 hportable.2)
  have hack := Exchange.reaches_second hsending.self hreceiving.self ht.distinct
    (.data t.id (Page.encodeWith t.compressor page.items t.metadata.compressed) false) hwrite
  obtain ⟨m₂, s₂, hask, hsending₂, hbrought₂, hstate₂⟩ :=
    (hsending.atInstant now).onAllReceived hbrought hstate hfinal
  have hrequest := Exchange.reaches_first hsending.self hreceiving₂.finishTeardown.self
    ht.distinct (.allReceived t.id) hask
  rw [Mover.finishTeardown_of_nil hsending₂.teardown] at hrequest
  exact ⟨m₂, _, (hdata.trans hack).trans hrequest, ⟨s₂, hsending₂, hbrought₂, hstate₂⟩,
    hreceiving₂.finishTeardown⟩

/-- The last page brings the rest. -/
lemma Asking.reaches_end (h : t.Asking m m' done) (now : Duration) (ht : t.Possible)
    (hrest : t.entries = done ++ rest) (hpage : page = t.limit.take 0 0 rest)
    (hportable : t.Portable page)
    (hall : t.entries = done ++ page.items) (hmore : page.more = false) :
    ∃ m₁ m₁', Exchange.Reaches
        ⟨[m, m'], [⟨t.source, t.destination, .requestToSend t.id⟩], now⟩ t.told
        ⟨[m₁, m₁'], [], now⟩ ∧ t.Done m₁ m₁' := by
  obtain ⟨m₁, m₁', s, hdata, hreceiving, hsending, hbrought, hstate, hfinal⟩ :=
    h.reaches_page now ht hrest hpage
  rw [hmore, Bool.not_false] at hdata hfinal
  have hasc : Ascending (done ++ page.items) := hall ▸ Store.ascending_matching
  obtain ⟨m₂', hwrite, hself, hstore, hclosed⟩ :=
    (hreceiving.atInstant now).onData_final ht.put ht.delete hasc
      (Page.decode_encodeWith t.compressor hportable.1 hportable.2)
  have hack := Exchange.reaches_second hsending.self hreceiving.self ht.distinct
    (.data t.id (Page.encodeWith t.compressor page.items t.metadata.compressed) true) hwrite
  obtain ⟨m₂, hdone, hstore₂, hforgot⟩ :=
    (hsending.atInstant now).onAllReceived_final hbrought hstate hfinal
  have hfinished := Exchange.reaches_first hsending.self hself ht.distinct
    (.allReceived t.id) hdone
  rw [← hall] at hack hfinished hstore
  exact ⟨m₂.finishTeardown, _, (hdata.trans hack).trans hfinished, hstore₂, hforgot, hstore,
    hclosed⟩

/-- Round by round everything is brought. -/
theorem Asking.reaches_done (h : t.Asking m m' done) (now : Duration) (ht : t.Possible)
    (hrest : t.entries = done ++ rest) {range : KeyRange}
    (hrange : t.store.matching range .all = rest)
    (hportable : ∀ n, ∀ page ∈ t.store.pages t.limit .all n range, t.Portable page) :
    ∃ m₁ m₁', Exchange.Reaches
        ⟨[m, m'], [⟨t.source, t.destination, .requestToSend t.id⟩], now⟩ t.told
        ⟨[m₁, m₁'], [], now⟩ ∧ t.Done m₁ m₁' := by
  -- the induction is on how much is left; a page that is not the last takes something away
  induction hlen : rest.length using Nat.strong_induction_on generalizing done rest range m m' with
  | _ n ih =>
    subst hlen
    obtain ⟨page, hpage⟩ : ∃ page, page = t.limit.take 0 0 rest := ⟨_, rfl⟩
    have hread : t.store.page range t.limit .all = page := by
      rw [Store.page_eq, hrange, hpage]
    have hfirst := hportable 1 page (Store.mem_pages hread 0)
    obtain ⟨rest', hsplit, hleft⟩ := ScanLimit.take_append t.limit 0 0 rest
    rw [← hpage] at hsplit hleft
    cases hmore : page.more with
    | false =>
      have hnone : rest' = [] := by
        by_contra hne
        rw [hleft.2 hne] at hmore
        cases hmore
      rw [hnone, List.append_nil] at hsplit
      exact h.reaches_end now ht hrest hpage hfirst (hsplit ▸ hrest) hmore
    | true =>
      have hentries : t.entries = done ++ page.items ++ rest' := by
        rw [hrest, List.append_assoc, ← hsplit]
      have hasc : Ascending (done ++ page.items ++ rest') := hentries ▸ Store.ascending_matching
      obtain ⟨m₁, m₁', hround, hasking⟩ :=
        h.reaches_next now ht hrest hpage hfirst hasc.append.1 hmore
      -- the page holds something, so less is left, and reading goes on behind its last key
      have hitems : page.items ≠ [] := by
        rw [hpage]
        refine ScanLimit.take_ne_nil (by simp [limit]) fun hnil => ?_
        rw [hnil] at hsplit
        exact hleft.1 hmore (List.append_eq_nil_iff.1 hsplit.symm).2
      obtain ⟨k, hk⟩ := ScanPage.exists_lastKey_iff.2 hitems
      have hless : rest'.length < rest.length := by
        have := List.length_pos_iff.2 hitems
        rw [hsplit, List.length_append]
        omega
      have hrange' : t.store.matching (range.after k) .all = rest' :=
        Store.matching_after_page (hrange.trans hsplit) hk
      obtain ⟨m₂, m₂', hrounds, hdone⟩ := ih rest'.length hless hasking hentries hrange'
        (fun n page' hmem => hportable (n + 1) page' (by
          rw [Store.pages_of_more hread hmore hk]
          exact List.mem_cons_of_mem _ hmem)) rfl
      exact ⟨m₂, m₂', hround.trans hrounds, hdone⟩

/-! ## The whole transfer -/

/-- Before the transfer: the next number of the source stands for no session of either end. -/
structure Begins (t : Errand) (m m' : Mover) : Prop where
  source : m.self = t.source
  destination : m'.self = t.destination
  id : m.ids.next.1 = t.id
  compression : m.config.compression = t.metadata.compressed
  quota : m'.config.quotaBytes = t.quota
  store : m.store = t.store
  compressor : m.compressor = t.compressor
  before : m'.store = t.before
  teardown : m.teardown = []
  outbound : m.outbound.get? t.id = none
  finished : m.finished.contains t.id = false
  inbound : m'.inbound.contains ⟨t.source, t.id⟩ = false
  completed : m'.completed.contains ⟨t.source, t.id⟩ = false

/-- Movers that were just started have no sessions. -/
lemma begins_start (a b : NodeId) (config config' : TransferConfig) (store store' : Store)
    (ids ids' : IdSource) (c c' : Compressor) (range : KeyRange) (viewId : UInt64) :
    Begins
      ⟨a, b, ids.next.1, ⟨range, viewId, config.compression⟩, config'.quotaBytes, store, store', c⟩
      (.start a config store ids c) (.start b config' store' ids' c') :=
  ⟨rfl, rfl, rfl, rfl, rfl, rfl, rfl, rfl, rfl, SortedMap.get?_empty _, rfl, rfl, rfl⟩

/-- The handshake, up to the first request. -/
lemma Begins.reaches_request (h : t.Begins m m') (now : Duration) (ht : t.Possible) :
    ∃ x opened m₁ m₁', (⟨[m, m'], [], now⟩ : Exchange).handle t.source
        (.command (.startSend t.destination t.metadata.range t.metadata.viewId)) =
          .ok (x, opened) ∧ opened.events.map Prod.snd = [] ∧
      Exchange.Reaches x []
        ⟨[m₁, m₁'], [⟨t.source, t.destination, .requestToSend t.id⟩], now⟩ ∧
      t.Asking m₁ m₁' [] := by
  obtain ⟨m₁, s₁, hstart, hsending, hbrought, hstate⟩ :=
    Mover.startSend_sending (m := m.atInstant now) h.source h.store h.compressor h.teardown h.id
      h.outbound h.finished h.compression t.destination
  have hcommand : (m.atInstant now).handle
      (.command (.startSend t.destination t.metadata.range t.metadata.viewId)) =
        .ok (m₁, [.send ⟨t.source, t.destination, .initiateTransfer t.id t.metadata⟩]) := by
    show Except.ok (((m.atInstant now).startSend _ _ _).1.finishTeardown,
      ((m.atInstant now).startSend _ _ _).2) = _
    rw [hstart, Mover.finishTeardown_of_nil hsending.teardown]
  have hopen := Exchange.handle_first h.source h.destination ht.distinct [] hcommand
  obtain ⟨m₂', hinitiate, hreceiving⟩ := Mover.onInitiate_receiving (m := m'.atInstant now)
    h.inbound h.completed t.metadata
  replace hreceiving : m₂'.Receiving t.destination t.quota ⟨t.source, t.id⟩ t.metadata t.before
      [] := by
    rw [← h.destination, ← h.quota, ← h.before]
    exact hreceiving
  have hack := Exchange.reaches_second hsending.self h.destination ht.distinct
    (.initiateTransfer t.id t.metadata) hinitiate
  obtain ⟨m₂, s₂, hask, hsending₂, hbrought₂, hstate₂⟩ :=
    (hsending.atInstant now).onAck hbrought hstate
  have hrequest := Exchange.reaches_first hsending.self hreceiving.finishTeardown.self
    ht.distinct (.ack t.id) hask
  rw [Mover.finishTeardown_of_nil hsending₂.teardown] at hrequest
  replace hack : Exchange.Reaches _ _
    ⟨_, [⟨m'.self, t.source, .ack t.id⟩], now⟩ := hack
  rw [h.destination] at hack
  exact ⟨_, _, m₂, _, hopen, rfl, hack.trans hrequest, ⟨s₂, hsending₂, hbrought₂, hstate₂⟩,
    hreceiving.finishTeardown⟩

/-- A range that was written over a store: an entry that the range brought, or the one before. -/
lemma get?_writeAll_matching (store before : Store) (range : KeyRange) (k : Key) :
    (before.writeAll (store.matching range .all)).entries.get? k =
      if range.contains k then (store.entries.get? k).or (before.entries.get? k)
      else before.entries.get? k := by
  rw [Store.writeAll_get?]
  by_cases hin : range.contains k = true
  · rw [if_pos hin]
    cases hget : store.entries.get? k with
    | none =>
      rw [Store.lastFor_of_ne fun i hi heq => ?_]
      have hmem := (Store.mem_matching_all.1 hi).1
      rw [heq, hget] at hmem
      cases hmem
    | some v =>
      have hmem : (⟨k, v⟩ : StoreItem) ∈ store.matching range .all :=
        Store.mem_matching_all.2 ⟨hget, hin⟩
      rw [Store.lastFor_of_mem Store.ascending_matching hmem]
  · rw [if_neg hin, Store.lastFor_of_ne fun i hi heq => ?_]
    · rfl
    · exact hin (heq ▸ (Store.mem_matching_all.1 hi).2)

end

end Errand

namespace Exchange

/-- A mover is to bring a range to another, and frames are delivered in order until none is left,
at most so many. -/
def bring (x : Exchange) (source destination : NodeId) (range : KeyRange) (viewId : UInt64)
    (frames : Nat) : Step := do
  let (x, opened) ← x.handle source (.command (.startSend destination range viewId))
  let (x, rest) ← pump frames x
  return (x, opened ++ rest)

/-- A transfer over a wire that delivers every frame once and in order ends after finitely many
frames. The receiver has told that it is complete and the sender that it is finished, once each
and with the count and size of the entries of the range; the receiver's store holds the sender's
entries in the range and is otherwise as it was; and neither end keeps the session. -/
theorem bring_complete {t : Errand} {m m' : Mover} (h : t.Begins m m') (now : Duration)
    (ht : t.Possible)
    (hportable : ∀ n, ∀ page ∈ t.store.pages t.limit .all n t.metadata.range,
      t.Portable page) :
    ∃ frames m₁ m₁' trace,
      (∀ n, frames ≤ n → bring ⟨[m, m'], [], now⟩ t.source t.destination t.metadata.range
        t.metadata.viewId n = .ok (⟨[m₁, m₁'], [], now⟩, trace)) ∧
      trace.events.map Prod.snd = t.told ∧ m₁.store = t.store ∧
      (∀ k, m₁'.store.entries.get? k =
        if t.metadata.range.contains k then
          (t.store.entries.get? k).or (t.before.entries.get? k)
        else t.before.entries.get? k) ∧
      m₁.Forgot t.id t.destination ∧ m₁'.inbound.get? ⟨t.source, t.id⟩ = none := by
  obtain ⟨x, opened, m₀, m₀', hopen, hquiet, hrequest, hasking⟩ :=
    h.reaches_request now ht
  obtain ⟨m₁, m₁', hrounds, hdone⟩ := hasking.reaches_done now ht rfl rfl hportable
  obtain ⟨frames, trace, hevents, hpump⟩ := (hrequest.trans hrounds).stable rfl
  refine ⟨frames, m₁, m₁', opened ++ trace, fun n hn => ?_, ?_, hdone.sender, fun k => ?_,
    hdone.forgot, hdone.closed⟩
  · unfold bring
    simp only [hopen, bind, Except.bind, hpump n hn]
    rfl
  · rw [Trace.events_append, List.map_append, hquiet, hevents]
    rfl
  · rw [hdone.receiver]
    exact Errand.get?_writeAll_matching t.store t.before t.metadata.range k

namespace ThreeRounds

def a : NodeId := ⟨"a", 1, none⟩

def b : NodeId := ⟨"b", 1, none⟩

/-- Grants of two bytes, each for one of the items below. -/
def config : TransferConfig := { quotaBytes := 2, compression := true }

/-- Two live entries around a tombstone. -/
def store : Store := (Store.ofList [([1], [9]), ([3], [9])]).write [2] none

/-- A live entry for the tombstone to remove, and one beyond the range. -/
def before : Store := .ofList [([2], [7]), ([5], [8])]

def errand : Errand := ⟨a, b, 1, ⟨.halfOpen [1] [4], 1, true⟩, 2, store, before, .run⟩

def sender : Mover := .start a config store ⟨0, 0⟩ .run

def receiver : Mover := .start b config before ⟨0, 0⟩ .literal

lemma possible : errand.Possible := ⟨by decide, rfl, rfl, rfl⟩

/-- There are three pages, however many might be read. -/
lemma portable (n : Nat) : ∀ page ∈ errand.store.pages errand.limit .all n errand.metadata.range,
    errand.Portable page := by
  have hpages : ∀ page ∈ errand.store.pages errand.limit .all n errand.metadata.range,
      page ∈ [⟨[⟨[1], some [9]⟩], 2, true⟩, ⟨[⟨[2], none⟩], 1, true⟩,
        ⟨[⟨[3], some [9]⟩], 2, false⟩] := by
    match n with
    | 0 => decide
    | 1 => decide
    | 2 => decide
    | n + 3 => exact fun page hpage => hpage
  intro page hpage
  have hpage := hpages page hpage
  simp only [List.mem_cons, List.not_mem_nil, or_false] at hpage
  obtain rfl | rfl | rfl := hpage
  all_goals exact Errand.portable_of_short (by decide)

end ThreeRounds

open ThreeRounds in
/-- Three entries, one of them a tombstone, are brought in three pages. -/
theorem bring_complete_three : ∃ frames m₁ m₁' trace,
    (∀ n, frames ≤ n → bring ⟨[sender, receiver], [], 0⟩ a b (.halfOpen [1] [4]) 1 n =
      .ok (⟨[m₁, m₁'], [], 0⟩, trace)) ∧
    trace.events.map Prod.snd = [(b, .transferComplete 1 a ⟨.halfOpen [1] [4], 1, true⟩ 3 5),
      (a, .sendFinished 1 b 3 5)] ∧
    m₁'.store.entries.get? [1] = some (some [9]) ∧ m₁'.store.entries.get? [2] = some none ∧
    m₁'.store.entries.get? [5] = some (some [8]) := by
  obtain ⟨frames, m₁, m₁', trace, hpump, hevents, -, hentries, -, -⟩ :=
    bring_complete (t := errand)
      (Errand.begins_start a b config config store before ⟨0, 0⟩ ⟨0, 0⟩ .run .literal
        (.halfOpen [1] [4]) 1)
      0 possible portable
  exact ⟨frames, m₁, m₁', trace, hpump, hevents, hentries [1], hentries [2], hentries [5]⟩

end Exchange

end ReplicaRing
