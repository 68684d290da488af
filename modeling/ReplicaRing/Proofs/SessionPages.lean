import ReplicaRing.Proofs.MoverRuns
import ReplicaRing.Proofs.PagePayloads
import ReplicaRing.Proofs.TransferEnds

/-!
The pages of an outbound session. Grants come early, late and more than once, and the store changes
from page to page; still each page answers one grant, in the order in which they came, and starts
above the page before it. `PageAccount` says what a session has sent since it was opened and
what it keeps for later, and every turn of the session keeps it.
-/

namespace ReplicaRing

/-! ## The room of a page -/

/-- What joins a page that holds something fits the limit on bytes. -/
lemma ScanLimit.take_fits {maxBytes count : Nat} (bytes : Nat) (hcount : 0 < count)
    (l : List StoreItem) :
    (take ⟨none, some maxBytes⟩ count bytes l).items = [] ∨
      bytes + StoreItem.totalSize (take ⟨none, some maxBytes⟩ count bytes l).items ≤ maxBytes := by
  induction l generalizing count bytes with
  | nil => exact .inl rfl
  | cons i l ih =>
    unfold take
    by_cases hfull : full ⟨none, some maxBytes⟩ count bytes i = true
    · rw [if_pos hfull]
      exact .inl rfl
    · rw [if_neg hfull]
      have hroom : bytes + i.size ≤ maxBytes := by
        simpa [full, hcount] using hfull
      refine .inr ?_
      show bytes + StoreItem.totalSize (i :: _) ≤ maxBytes
      rw [StoreItem.totalSize_cons, ← Nat.add_assoc]
      rcases ih (bytes + i.size) (Nat.succ_pos count) with hnone | hfits
      · rw [hnone]
        exact hroom
      · exact hfits

/-- What a scan of a range within a quota reads. -/
structure ReadWithin (store : Store) (range : KeyRange) (quota : UInt64) (page : ScanPage) :
    Prop where
  mem : ∀ i ∈ page.items,
    store.entries.get? i.key = some i.value ∧ range.contains i.key = true
  ascending : Ascending page.items
  room : StoreItem.totalSize page.items ≤ quota.toNat ∨ page.items.length = 1
  empty : page.items = [] → page.more = false

lemma Store.readWithin_of_scan {store : Store} {range : KeyRange} {quota : UInt64}
    {page : ScanPage} (h : store.scan range ⟨none, some quota.toNat⟩ .all = .ok page) :
    ReadWithin store range quota page := by
  obtain rfl := take_of_scan h
  obtain ⟨rest, hsplit, hmore⟩ :=
    ScanLimit.take_append ⟨none, some quota.toNat⟩ 0 0 (store.matching range .all)
  refine ⟨fun i hi => mem_matching_all.1 ?_, ?_, ?_, fun hnil => ?_⟩
  · rw [hsplit]
    exact List.mem_append_left _ hi
  · have hasc : Ascending (store.matching range .all) := Store.ascending_matching
    rw [hsplit] at hasc
    exact hasc.append.1
  · generalize store.matching range .all = l
    cases l with
    | nil => exact .inl (Nat.zero_le _)
    | cons i l =>
      -- the first item is always let in; what follows it fits
      show StoreItem.totalSize (i :: (ScanLimit.take _ 1 (0 + i.size) l).items) ≤ _ ∨
        (i :: (ScanLimit.take _ 1 (0 + i.size) l).items).length = 1
      rcases ScanLimit.take_fits (0 + i.size) Nat.one_pos l with hnone | hfits
      · rw [hnone]
        exact .inr rfl
      · rw [StoreItem.totalSize_cons]
        exact .inl (by omega)
  · have hempty : store.matching range .all = [] := by
      by_contra hne
      exact ScanLimit.take_ne_nil (by simp) hne hnil
    rw [hempty]
    rfl

/-- A session reads on in its range, above the last key. -/
lemma SenderSession.contains_remaining {s : SenderSession} {k : Key} :
    s.remaining.contains k = true ↔
      s.metadata.range.contains k = true ∧ ReceiverSession.above s.lastKey k = true := by
  unfold remaining
  cases s.lastKey with
  | none => simp [ReceiverSession.above]
  | some l =>
    rw [ReceiverSession.above_some_iff]
    exact KeyRange.contains_after

/-! ## Pages as they are sent -/

/-- A page that a session has sent, with the grant that it answers. -/
structure SentPage where
  quota : UInt64
  items : List StoreItem
  isFinal : Bool
  /-- How often it was sent again. -/
  repeats : Nat

namespace SentPage

/-- The items of some pages, in order. -/
def allItems (pages : List SentPage) : List StoreItem := pages.flatMap items

/-- The pages of a range: their keys ascend, each holds one item or what its grant has room for,
and only the last is final. -/
structure Paginated (range : KeyRange) (pages : List SentPage) : Prop where
  inside : ∀ p ∈ pages, ∀ i ∈ p.items, range.contains i.key = true
  ascending : Ascending (allItems pages)
  room : ∀ p ∈ pages, StoreItem.totalSize p.items ≤ p.quota.toNat ∨ p.items.length = 1
  empty : ∀ p ∈ pages, p.items = [] → p.isFinal = true
  final : ∀ p ∈ pages.dropLast, p.isFinal = false

lemma allItems_concat (pages : List SentPage) (p : SentPage) :
    allItems (pages ++ [p]) = allItems pages ++ p.items := by
  unfold allItems
  rw [List.flatMap_append, List.flatMap_singleton]

/-- What holds of each page still does when the last one counts another copy. -/
lemma forall_mem_again {P : SentPage → Prop} {pages : List SentPage} {p : SentPage}
    {repeats : Nat} (h : ∀ q ∈ pages ++ [p], P q) (hp : P p → P { p with repeats }) :
    ∀ q ∈ pages ++ [{ p with repeats }], P q := by
  obtain ⟨hfront, hlast⟩ := List.forall_mem_append.1 h
  refine List.forall_mem_append.2 ⟨hfront, List.forall_mem_singleton.2 ?_⟩
  exact hp (hlast p (List.mem_singleton_self p))

namespace Paginated

variable {range : KeyRange} {pages : List SentPage} {p : SentPage}

lemma nil (range : KeyRange) : Paginated range [] :=
  ⟨by simp, List.Pairwise.nil, by simp, by simp, by simp⟩

/-- A further page may follow pages that are not final. -/
lemma concat (h : Paginated range pages) (hfinal : ∀ q ∈ pages, q.isFinal = false)
    (hinside : ∀ i ∈ p.items, range.contains i.key = true)
    (hascending : Ascending (allItems pages ++ p.items))
    (hroom : StoreItem.totalSize p.items ≤ p.quota.toNat ∨ p.items.length = 1)
    (hempty : p.items = [] → p.isFinal = true) : Paginated range (pages ++ [p]) := by
  refine ⟨?_, ?_, ?_, ?_, ?_⟩
  · exact List.forall_mem_append.2 ⟨h.inside, List.forall_mem_singleton.2 hinside⟩
  · rw [allItems_concat]
    exact hascending
  · exact List.forall_mem_append.2 ⟨h.room, List.forall_mem_singleton.2 hroom⟩
  · exact List.forall_mem_append.2 ⟨h.empty, List.forall_mem_singleton.2 hempty⟩
  · rw [List.dropLast_concat]
    exact hfinal

/-- The last page may be sent again. -/
lemma again (h : Paginated range (pages ++ [p])) (repeats : Nat) :
    Paginated range (pages ++ [{ p with repeats }]) where
  inside := forall_mem_again h.inside id
  ascending := by
    have hall := h.ascending
    rw [allItems_concat] at hall ⊢
    exact hall
  room := forall_mem_again h.room id
  empty := forall_mem_again h.empty id
  final := by
    have hfinal := h.final
    rw [List.dropLast_concat] at hfinal ⊢
    exact hfinal

end Paginated

end SentPage

/-- The terms of a session: who sends, to whom, under which number, what, and how it is
compressed. -/
structure SessionTerms where
  id : SessionId
  source : NodeId
  destination : NodeId
  metadata : TransferMetadata
  compressor : BlockCompression.Compressor

namespace SessionTerms

def message (t : SessionTerms) (p : SentPage) : Message :=
  .data t.id (Page.encodeWith t.compressor p.items t.metadata.compressed) p.isFinal

/-- The frames that a page was sent in, all alike. -/
def copies (t : SessionTerms) (p : SentPage) : List Envelope :=
  List.replicate (p.repeats + 1) ⟨t.source, t.destination, t.message p⟩

lemma isPageOf_message (t : SessionTerms) (p : SentPage) :
    (t.message p).isPageOf t.id = true := by
  simp [message, Message.isPageOf]

lemma filter_message (t : SessionTerms) (p : SentPage) :
    [(⟨t.source, t.destination, t.message p⟩ : Envelope)].filter
      (fun e => e.message.isPageOf t.id) = [⟨t.source, t.destination, t.message p⟩] :=
  List.filter_cons_of_pos (t.isPageOf_message p)

end SessionTerms

namespace Mover

/-- The grant that the destination of a session gives it. -/
def Moment.clearance? (x : Moment) (destination : NodeId) (id : SessionId) : Option UInt64 :=
  match x.happening with
  | .input (.inbound src (.clearToSend id' quota)) =>
    if src = destination ∧ id' = id then some quota else none
  | _ => none

/-- The grants that the destination of a session gives it in a run, in the order in which they
come. -/
def clearances (destination : NodeId) (id : SessionId) (moments : List Moment) : List UInt64 :=
  moments.filterMap fun x => x.clearance? destination id

lemma clearances_concat (destination : NodeId) (id : SessionId) (past : List Moment) (x : Moment) :
    clearances destination id (past ++ [x]) =
      clearances destination id past ++ (x.clearance? destination id).toList := by
  unfold clearances
  rw [List.filterMap_append]
  rfl

/-- The grants for an open session are those of its destination. -/
lemma grant?_eq_clearance? {x : Moment} {id : SessionId} {s : SenderSession}
    (hget : x.before.outbound.get? id = some s) (hs : s.stopped = false)
    (hunfinished : x.before.finished.contains id = false) :
    x.grant? id = x.clearance? s.destination id := by
  unfold Moment.grant? Moment.clearance?
  cases x.happening with
  | amid w => rfl
  | input input =>
    cases input with
    | command c => rfl
    | retry id' => rfl
    | inbound src message =>
      cases message with
      | clearToSend id' quota =>
        have hactive : (x.before.activeSession? src id).isSome = true ↔ src = s.destination := by
          unfold activeSession?
          rw [hunfinished, hget, if_neg Bool.false_ne_true, Option.isSome_filter, Option.any_some,
            hs, Bool.not_false, Bool.true_and, beq_iff_eq, eq_comm]
        simp only [grant?, hactive, and_comm]
      | _ => rfl

/-! ## What a session has sent -/

/-- An open session that has sent some pages: what it has counted, the grants that it keeps, and
what it waits for. -/
structure Dispatched (t : SessionTerms) (moments : List Moment) (pages : List SentPage)
    (s : SenderSession) : Prop where
  destination : s.destination = t.destination
  metadata : s.metadata = t.metadata
  grants : clearances t.destination t.id moments = pages.map SentPage.quota ++ s.grants
  items : s.itemsSent = (SentPage.allItems pages).length
  bytes : s.bytesSent = StoreItem.totalSize (SentPage.allItems pages)
  last : s.lastKey = StoreItem.lastKey? (SentPage.allItems pages)
  quiet : toldIn t.id moments = []
  /-- Its last page is in flight, or a frame that is no page, before and between pages. -/
  phase :
    (s.state = .transferring ∧ ∃ front p, pages = front ++ [p] ∧ s.finalSent = p.isFinal ∧
      s.inFlight = some (t.message p)) ∨
    ((s.state = .initialising ∨ s.state = .waiting ∧ s.grants = []) ∧
      (∀ p ∈ pages, p.isFinal = false) ∧
      ∀ message, s.inFlight = some message → message.isPageOf t.id = false)

/-- What a session has sent since it was opened, and where it stands if it is still open. -/
structure PageAccount (t : SessionTerms) (moments : List Moment) (pages : List SentPage)
    (o : Option SenderSession) : Prop where
  paginated : SentPage.Paginated t.metadata.range pages
  read : ∀ p ∈ pages, ∃ x ∈ moments, ∀ i ∈ p.items,
    x.before.store.entries.get? i.key = some i.value
  frames : (framesIn t.id moments).filter (fun e => e.message.isPageOf t.id) =
    pages.flatMap t.copies
  closing : ∀ front p, pages = front ++ [p] → p.isFinal = true →
    ∃ earlier, framesIn t.id moments = earlier ++ t.copies p
  answers : pages.map SentPage.quota <+: clearances t.destination t.id moments
  told : ∀ destination items bytes,
    .sendFinished t.id destination items bytes ∈ toldIn t.id moments →
      items = (SentPage.allItems pages).length ∧
      bytes = StoreItem.totalSize (SentPage.allItems pages)
  session : ∀ s, o = some s → Dispatched t moments pages s

section

variable {t : SessionTerms} {past : List Moment} {y : Moment} {pages front : List SentPage}
  {p : SentPage} {o o' : Option SenderSession} {s s' : SenderSession} {granted : Option UInt64}

/-- A session that may send has not sent a final page. -/
lemma Dispatched.not_final (h : Dispatched t past pages s)
    (hpages : SentPage.Paginated t.metadata.range pages) (hmay : s.MaySend) :
    ∀ p ∈ pages, p.isFinal = false := by
  rcases h.phase with ⟨hstate, front, p, rfl, hfinal, -⟩ | ⟨-, hnone, -⟩
  · have hfront := hpages.final
    rw [List.dropLast_concat] at hfront
    refine List.forall_mem_append.2 ⟨hfront, List.forall_mem_singleton.2 ?_⟩
    rw [SenderSession.MaySend, hstate] at hmay
    simpa [hfinal] using hmay
  · exact hnone

lemma PageAccount.read_concat (h : PageAccount t past pages o) (y : Moment) :
    ∀ p ∈ pages, ∃ x ∈ past ++ [y], ∀ i ∈ p.items,
      x.before.store.entries.get? i.key = some i.value := by
  intro p hp
  obtain ⟨x, hx, hread⟩ := h.read p hp
  exact ⟨x, List.mem_append_left _ hx, hread⟩

/-- A moment in which no page is sent. -/
lemma PageAccount.extend (h : PageAccount t past pages o)
    (hframes : ∀ e ∈ framesOf t.id y.out, e.message.isPageOf t.id = false)
    (hclosing : framesOf t.id y.out = [] ∨ ∀ p ∈ pages, p.isFinal = false)
    (htold : ∀ destination items bytes,
      .sendFinished t.id destination items bytes ∈ toldOf t.id y.out →
        items = (SentPage.allItems pages).length ∧
        bytes = StoreItem.totalSize (SentPage.allItems pages))
    (hsession : ∀ s, o' = some s → Dispatched t (past ++ [y]) pages s) :
    PageAccount t (past ++ [y]) pages o' := by
  refine ⟨h.paginated, h.read_concat y, ?_, fun front p hsplit hfinal => ?_, ?_,
    fun destination items bytes hmem => ?_, hsession⟩
  · have hnone : (framesOf t.id y.out).filter (fun e => e.message.isPageOf t.id) = [] :=
      List.filter_eq_nil_iff.2 fun e he => by simp [hframes e he]
    rw [framesIn_concat, List.filter_append, h.frames, hnone, List.append_nil]
  · rcases hclosing with hnone | hopen
    · rw [framesIn_concat, hnone, List.append_nil]
      exact h.closing front p hsplit hfinal
    · rw [hopen p (by simp [hsplit])] at hfinal
      cases hfinal
  · rw [clearances_concat]
    exact h.answers.trans (List.prefix_append _ _)
  · rw [toldIn_concat, List.mem_append] at hmem
    rcases hmem with hmem | hmem
    · exact h.told destination items bytes hmem
    · exact htold destination items bytes hmem

/-- The account of a session that is open: its pages answer the first of its grants, and it has
told nothing yet. -/
lemma PageAccount.of_dispatched (hpaginated : SentPage.Paginated t.metadata.range pages)
    (hread : ∀ p ∈ pages, ∃ x ∈ past, ∀ i ∈ p.items,
      x.before.store.entries.get? i.key = some i.value)
    (hframes : (framesIn t.id past).filter (fun e => e.message.isPageOf t.id) =
      pages.flatMap t.copies)
    (hclosing : ∀ front p, pages = front ++ [p] → p.isFinal = true →
      ∃ earlier, framesIn t.id past = earlier ++ t.copies p)
    (hsession : Dispatched t past pages s) : PageAccount t past pages (some s) := by
  refine ⟨hpaginated, hread, hframes, hclosing, ?_, fun destination items bytes hmem => ?_,
    fun _ hs => ?_⟩
  · rw [hsession.grants]
    exact List.prefix_append _ _
  · rw [hsession.quiet] at hmem
    cases hmem
  · cases hs
    exact hsession

/-- The last page is sent again. -/
lemma PageAccount.again (h : PageAccount t past (front ++ [p]) (some s))
    (hframes : framesOf t.id y.out = [⟨t.source, t.destination, t.message p⟩])
    (hsession : Dispatched t (past ++ [y]) (front ++ [{ p with repeats := p.repeats + 1 }]) s') :
    PageAccount t (past ++ [y]) (front ++ [{ p with repeats := p.repeats + 1 }]) (some s') := by
  have hcopies : t.copies { p with repeats := p.repeats + 1 } =
      t.copies p ++ [⟨t.source, t.destination, t.message p⟩] := List.replicate_succ'
  refine .of_dispatched (h.paginated.again _) (SentPage.forall_mem_again (h.read_concat y) id) ?_
    (fun front' p' hsplit hfinal => ?_) hsession
  · rw [framesIn_concat, List.filter_append, h.frames, hframes, t.filter_message,
      List.flatMap_append, List.flatMap_append, List.flatMap_singleton, List.flatMap_singleton,
      hcopies, List.append_assoc]
  · obtain ⟨rfl, heq⟩ := List.append_inj' hsplit rfl
    obtain rfl := List.singleton_inj.1 heq
    obtain ⟨earlier, hearlier⟩ := h.closing front p rfl hfinal
    exact ⟨earlier, by rw [framesIn_concat, hearlier, hframes, hcopies, List.append_assoc]⟩

/-- A further page is sent. -/
lemma PageAccount.next (h : PageAccount t past pages (some s))
    (hpaginated : SentPage.Paginated t.metadata.range (pages ++ [p]))
    (hread : ∀ i ∈ p.items, y.before.store.entries.get? i.key = some i.value)
    (hfirst : p.repeats = 0)
    (hframes : framesOf t.id y.out = [⟨t.source, t.destination, t.message p⟩])
    (hsession : Dispatched t (past ++ [y]) (pages ++ [p]) s') :
    PageAccount t (past ++ [y]) (pages ++ [p]) (some s') := by
  have hcopies : t.copies p = [⟨t.source, t.destination, t.message p⟩] := by
    unfold SessionTerms.copies
    rw [hfirst]
    rfl
  refine .of_dispatched hpaginated ?_ ?_ (fun front' p' hsplit hfinal => ?_) hsession
  · exact List.forall_mem_append.2
      ⟨h.read_concat y, List.forall_mem_singleton.2 ⟨y, by simp, hread⟩⟩
  · rw [framesIn_concat, List.filter_append, h.frames, hframes, t.filter_message,
      List.flatMap_append, List.flatMap_singleton, hcopies]
  · obtain ⟨-, heq⟩ := List.append_inj' hsplit rfl
    obtain rfl := List.singleton_inj.1 heq
    exact ⟨framesIn t.id past, by rw [framesIn_concat, hframes, hcopies]⟩

/-! ## Turns -/

/-- The grants so far are those that were served, those that were kept, and the one that comes. -/
lemma Dispatched.grants_concat (h : Dispatched t past pages s)
    (hgranted : y.clearance? t.destination t.id = granted) :
    clearances t.destination t.id (past ++ [y]) =
      pages.map SentPage.quota ++ (s.grants ++ granted.toList) := by
  rw [clearances_concat, h.grants, hgranted, List.append_assoc]

lemma Dispatched.quiet_concat (h : Dispatched t past pages s) (htold : toldOf t.id y.out = []) :
    toldIn t.id (past ++ [y]) = [] := by
  rw [toldIn_concat, h.quiet, htold, List.append_nil]

/-- The page that is read next follows those sent before, and the session counts it. -/
lemma PageAccount.page {quota : UInt64} {grants : List UInt64} {interval : Duration}
    {page : ScanPage} (h : PageAccount t past pages (some s))
    (hframes : framesOf t.id y.out = [⟨t.source, s.destination,
      .data t.id (Page.encodeWith t.compressor page.items s.metadata.compressed) (!page.more)⟩])
    (htold : toldOf t.id y.out = [])
    (hgranted : y.clearance? t.destination t.id = granted)
    (hmay : s.MaySend) (hserves : s.Serves granted quota grants)
    (hscan : y.before.store.scan s.remaining ⟨none, some quota.toNat⟩ .all = .ok page) :
    PageAccount t (past ++ [y]) (pages ++ [⟨quota, page.items, !page.more, 0⟩])
      (some { s with
        state := .transferring
        grants
        finalSent := !page.more
        bytesSent := s.bytesSent + page.bytes
        itemsSent := s.itemsSent + page.items.length
        lastKey := page.lastKey? <|> s.lastKey
        inFlight := some (.data t.id
          (Page.encodeWith t.compressor page.items s.metadata.compressed) (!page.more))
        attempts := 1
        retryInterval := interval }) := by
  have hd := h.session s rfl
  have hread := Store.readWithin_of_scan hscan
  have hremaining := fun i hi => SenderSession.contains_remaining.1 (hread.mem i hi).2
  rw [hd.destination, hd.metadata] at hframes
  have hpaginated : SentPage.Paginated t.metadata.range
      (pages ++ [⟨quota, page.items, !page.more, 0⟩]) := by
    refine h.paginated.concat (hd.not_final h.paginated hmay) (fun i hi => ?_) ?_ hread.room
      fun hnil => by simp [hread.empty hnil]
    · rw [← hd.metadata]
      exact (hremaining i hi).1
    · refine ReceiverSession.ascending_append h.paginated.ascending hread.ascending fun i hi => ?_
      have habove := (hremaining i hi).2
      rw [hd.last] at habove
      exact habove
  have hkept : s.grants ++ granted.toList = quota :: grants := by
    rcases hserves with ⟨rfl, hstate, rfl⟩ | ⟨rfl, hgrants⟩
    · -- a grant was waited for, so none was kept
      rcases hd.phase with ⟨hother, -⟩ | ⟨hother | ⟨-, hnone⟩, -⟩
      · rw [hstate] at hother
        cases hother
      · rw [hstate] at hother
        cases hother
      · rw [hnone]
        rfl
    · rw [hgrants]
      simp
  refine h.next hpaginated (fun i hi => (hread.mem i hi).1) rfl hframes ?_
  refine ⟨hd.destination, hd.metadata, ?_, ?_, ?_, ?_, hd.quiet_concat htold,
    .inl ⟨rfl, pages, _, rfl, rfl, ?_⟩⟩
  · rw [hd.grants_concat hgranted, hkept, List.map_append, List.append_assoc]
    rfl
  · rw [SentPage.allItems_concat, List.length_append, ← hd.items]
  · rw [SentPage.allItems_concat, StoreItem.totalSize_append, ← hd.bytes,
      Store.bytes_of_scan hscan]
  · rw [SentPage.allItems_concat, StoreItem.lastKey?_append, ← hd.last]
    show _ = Option.or page.lastKey? s.lastKey
    cases page.lastKey? with
    | none => rfl
    | some k => rfl
  · rw [hd.metadata]
    rfl

/-- The frame in flight is sent again, be it a page or not. -/
lemma PageAccount.resend {message : Message} {attempts : Nat} {interval : Duration}
    (h : PageAccount t past pages (some s)) (hflight : s.inFlight = some message)
    (hframes : framesOf t.id y.out = [⟨t.source, s.destination, message⟩])
    (htold : toldOf t.id y.out = []) (hgranted : y.clearance? t.destination t.id = none) :
    ∃ pages', PageAccount t (past ++ [y]) pages'
      (some { s with attempts, retryInterval := interval }) := by
  have hd := h.session s rfl
  have hgrants := hd.grants_concat hgranted
  rw [Option.toList_none, List.append_nil] at hgrants
  rcases hd.phase with ⟨hstate, front, p, rfl, hfinal, hmessage⟩ | ⟨hstate, hnone, hother⟩
  · obtain rfl : t.message p = message := Option.some_inj.1 (hmessage.symm.trans hflight)
    rw [hd.destination] at hframes
    refine ⟨_, h.again hframes ?_⟩
    have hitems : SentPage.allItems (front ++ [{ p with repeats := p.repeats + 1 }]) =
        SentPage.allItems (front ++ [p]) := by
      rw [SentPage.allItems_concat, SentPage.allItems_concat]
    refine ⟨hd.destination, hd.metadata, ?_, ?_, ?_, ?_, hd.quiet_concat htold,
      .inl ⟨hstate, front, _, rfl, hfinal, hmessage⟩⟩
    · rw [hgrants, List.map_append, List.map_append]
      rfl
    · rw [hitems]
      exact hd.items
    · rw [hitems]
      exact hd.bytes
    · rw [hitems]
      exact hd.last
  · refine ⟨pages, h.extend (by simp [hframes, hother message hflight]) (.inr hnone)
      (by simp [htold]) fun _ hs => ?_⟩
    cases hs
    exact { hd with
      grants := hgrants, quiet := hd.quiet_concat htold, phase := .inr ⟨hstate, hnone, hother⟩ }

/-- Whatever turn a session takes, its account goes on. -/
lemma PageAccount.turn (h : PageAccount t past pages o)
    (hturn : SessionTurn t.compressor y.before.store t.source t.id none granted o
      (framesOf t.id y.out) (toldOf t.id y.out) o')
    (hgranted : o ≠ none → y.clearance? t.destination t.id = granted) :
    ∃ pages', PageAccount t (past ++ [y]) pages' o' := by
  generalize hframes : framesOf t.id y.out = frames, htold : toldOf t.id y.out = told at hturn
  cases hturn with
  | same =>
    refine ⟨pages, h.extend (by simp [hframes]) (.inl hframes) (by simp [htold]) fun s hs => ?_⟩
    have hd := h.session s hs
    have hgrants := hd.grants_concat (hgranted (by simp [hs]))
    exact { hd with grants := by simpa using hgrants, quiet := hd.quiet_concat htold }
  | late s quota hstate =>
    -- a session that is done is no longer there
    rcases (h.session s rfl).phase with ⟨hother, -⟩ | ⟨hother | ⟨hother, -⟩, -⟩
    all_goals
      rw [hstate] at hother
      cases hother
  | queue s quota hstate =>
    have hd := h.session s rfl
    have hgrants := hd.grants_concat (hgranted (Option.some_ne_none s))
    refine ⟨pages, h.extend (by simp [hframes]) (.inl hframes) (by simp [htold]) fun _ hs => ?_⟩
    cases hs
    refine { hd with grants := hgrants, quiet := hd.quiet_concat htold, phase := ?_ }
    rcases hd.phase with hpage | ⟨hbefore | ⟨hwaiting, -⟩, hrest⟩
    · exact .inl hpage
    · exact .inr ⟨.inl hbefore, hrest⟩
    · exact absurd hwaiting hstate
  | again s message interval hflight =>
    exact h.resend hflight hframes htold (hgranted (Option.some_ne_none s))
  | ask s interval hmay hnone =>
    have hd := h.session s rfl
    have hopen := hd.not_final h.paginated hmay
    have hgrants := hd.grants_concat (hgranted (Option.some_ne_none s))
    rw [Option.toList_none, List.append_nil] at hgrants
    refine ⟨pages, h.extend ?_ (.inr hopen) (by simp [htold]) fun _ hs => ?_⟩
    · rw [hframes, List.forall_mem_singleton]
      rfl
    · cases hs
      refine { hd with
        grants := hgrants, quiet := hd.quiet_concat htold
        phase := .inr ⟨.inr ⟨rfl, hnone⟩, hopen, fun message hmessage => ?_⟩ }
      cases hmessage
      rfl
  | page s granted quota grants interval page hmay hserves hscan =>
    exact ⟨_, h.page hframes htold (hgranted (Option.some_ne_none s)) hmay hserves hscan⟩
  | finished s =>
    have hd := h.session s rfl
    refine ⟨pages, h.extend (by simp [hframes]) (.inl hframes)
      (fun destination items bytes hmem => ?_) fun _ hs => nomatch hs⟩
    rw [htold, List.mem_singleton] at hmem
    cases hmem
    exact ⟨hd.items, hd.bytes⟩
  | failed s granted reason =>
    exact ⟨pages, h.extend (by simp [hframes]) (.inl hframes) (by simp [htold])
      fun _ hs => nomatch hs⟩
  | stopped s =>
    exact ⟨pages, h.extend (by simp [hframes]) (.inl hframes) (by simp [htold])
      fun _ hs => nomatch hs⟩

/-! ## Runs -/

/-- A mover that heeds what comes for a session as long as that is open. -/
def Heeds (m : Mover) (id : SessionId) : Prop :=
  ∀ s, m.outbound.get? id = some s → s.stopped = false ∧ m.finished.contains id = false

lemma Heeds.of_meet {m : Mover} {x : Moment} {h : Happening} {id : SessionId} (hm : m.Tidy)
    (hheeds : m.Heeds id) (hx : m.meet h = .ok x) (hdrawn : x.drawn? ≠ some id) :
    x.after.Heeds id := by
  intro s hs
  have hturn := sessionTurn_of_meet hm hx id
  have hopening := Moment.opening?_eq_none_iff.2 hdrawn
  rw [hs, hopening] at hturn
  refine ⟨hturn.active (fun s hs => (hheeds s hs).1) rfl, ?_⟩
  by_contra hfinished
  rw [Bool.not_eq_false] at hfinished
  rcases ended_of_meet hm hx hfinished with hbefore | ⟨-, hgone⟩
  · -- it was open before, so it was not remembered as ended then
    cases hget : m.outbound.get? id with
    | none =>
      rw [hget] at hturn
      cases hturn.of_none.1
    | some s' =>
      rw [(hheeds s' hget).2] at hbefore
      cases hbefore
  · rw [hgone hopening] at hs
    cases hs

/-- A session is opened by a command, not by a grant. -/
lemma clearance?_of_opening {x : Moment} {id id' : SessionId} {o : NodeId × TransferMetadata}
    (h : x.opening? id = some o) (destination : NodeId) : x.clearance? destination id' = none := by
  unfold Moment.opening? at h
  unfold Moment.clearance?
  cases hx : x.happening with
  | amid w => rfl
  | input input =>
    rw [hx] at h
    cases input with
    | command c => rfl
    | retry id => rfl
    | inbound src message => cases h

/-- The account of a session begins with its opening. -/
lemma PageAccount.opened {x : Moment} {h : Happening} (htidy : x.before.Tidy)
    (hself : x.before.self = t.source) (hmeet : x.before.meet h = .ok x)
    (hopening : x.opening? t.id = some (t.destination, t.metadata)) :
    PageAccount t [x] [] (x.after.outbound.get? t.id) := by
  have hturn := sessionTurn_of_meet htidy hmeet t.id
  rw [hopening, hself] at hturn
  obtain ⟨hframes, htold, interval, hget⟩ := hturn.of_opening
  have hnone : PageAccount t [] [] none :=
    ⟨.nil _, by simp, rfl, by simp, List.nil_prefix, by simp, fun _ hs => nomatch hs⟩
  refine hnone.extend ?_ (.inr (by simp)) (by simp [htold]) fun s hs => ?_
  · rw [hframes, List.forall_mem_singleton]
    rfl
  · rw [hget, Option.some_inj] at hs
    rw [← hs]
    refine ⟨rfl, rfl, ?_, rfl, rfl, rfl, ?_, .inr ⟨.inl rfl, by simp, fun message hm => ?_⟩⟩
    · rw [clearances_concat, clearance?_of_opening hopening]
      rfl
    · rw [toldIn_concat, htold]
      rfl
    · cases hm
      rfl

/-- The account of a session goes on while its number is not drawn again. -/
lemma PageAccount.course {m : Mover} {x : Moment} {later : List Moment}
    {happenings : List Happening} (h : PageAccount t [x] [] (m.outbound.get? t.id))
    (hm : m.Tidy) (hself : m.self = t.source) (hcompressor : m.compressor = t.compressor)
    (hheeds : m.Heeds t.id)
    (hrun : m.course happenings = .ok later) (hlater : t.id ∉ numbers later) :
    ∃ pages, PageAccount t (x :: later) pages ((m.final later).outbound.get? t.id) := by
  refine ((course_induction
    (motive := fun past m' => m'.Tidy ∧ m'.self = t.source ∧ m'.compressor = t.compressor ∧
      (t.id ∉ numbers past → m'.Heeds t.id ∧
        ∃ pages, PageAccount t (x :: past) pages (m'.outbound.get? t.id)))
    ⟨hm, hself, hcompressor, fun _ => ⟨hheeds, [], h⟩⟩
    (fun past y h ⟨htidy, hself, hcompressor, ih⟩ hmeet => ?_) hrun).2.2.2 hlater).2
  refine ⟨tidy_of_meet htidy hmeet, (self_of_meet htidy hmeet).trans hself,
    (compressor_of_meet htidy hmeet).trans hcompressor, fun hdrawn => ?_⟩
  rw [numbers_concat, List.mem_append, not_or, Option.mem_toList] at hdrawn
  obtain ⟨hheeds, pages, haccount⟩ := ih hdrawn.1
  have hturn := sessionTurn_of_meet htidy hmeet t.id
  rw [Moment.opening?_eq_none_iff.2 hdrawn.2, hself, hcompressor] at hturn
  refine ⟨hheeds.of_meet htidy hmeet hdrawn.2, haccount.turn hturn fun hopen => ?_⟩
  obtain ⟨s, hget⟩ := Option.ne_none_iff_exists'.1 hopen
  obtain ⟨hs, hunfinished⟩ := hheeds s hget
  rw [grant?_eq_clearance? hget hs hunfinished, (haccount.session s hget).destination]

/-- Whatever happens to a mover and its store, a session whose number is drawn once sends pages
of its range: their keys ascend within and across pages, what is sent again is the last page as it
was, each page was read from the store as it stood and answers one grant of the destination, in the
order in which the grants came, and nothing follows a final page. The session counts what the pages
hold, and tells that count when it finishes. -/
theorem session_pages {config : TransferConfig} {store : Store} {ids : IdSource}
    {happenings : List Happening} {x : Moment} {later : List Moment}
    (hrun : (start t.source config store ids t.compressor).course happenings =
      .ok (past ++ x :: later))
    (hopening : x.opening? t.id = some (t.destination, t.metadata))
    (hpast : t.id ∉ numbers past) (hlater : t.id ∉ numbers later) :
    ∃ pages, SentPage.Paginated t.metadata.range pages ∧
      (framesIn t.id (x :: later)).filter (fun e => e.message.isPageOf t.id) =
        pages.flatMap t.copies ∧
      (∀ p ∈ pages, ∃ y ∈ x :: later, ∀ i ∈ p.items,
        y.before.store.entries.get? i.key = some i.value) ∧
      pages.map SentPage.quota <+: clearances t.destination t.id (x :: later) ∧
      (∀ front p, pages = front ++ [p] → p.isFinal = true →
        ∃ earlier, framesIn t.id (x :: later) = earlier ++ t.copies p) ∧
      (∀ s, (x.after.final later).outbound.get? t.id = some s →
        s.itemsSent = (SentPage.allItems pages).length ∧
        s.bytesSent = StoreItem.totalSize (SentPage.allItems pages)) ∧
      ∀ destination items bytes,
        .sendFinished t.id destination items bytes ∈ toldIn t.id (x :: later) →
          items = (SentPage.allItems pages).length ∧
          bytes = StoreItem.totalSize (SentPage.allItems pages) := by
  have hstart := orderly_start t.source config store ids t.compressor
  have hbefore := orderly_of_course hstart hrun
  obtain ⟨hself, hcompressor⟩ := kept_of_course hstart.tidy hrun
  replace hself : x.before.self = t.source := hself
  replace hcompressor : x.before.compressor = t.compressor := hcompressor
  obtain ⟨-, -, ⟨h, hmeet⟩, _, hrest⟩ := course_split hrun
  -- before its number is drawn, the session is neither open nor remembered as ended
  have hheeds : x.after.Heeds t.id := by
    intro s hs
    have hturn := sessionTurn_of_meet hbefore.tidy hmeet t.id
    rw [hopening, hs] at hturn
    obtain ⟨-, -, interval, hget⟩ := hturn.of_opening
    rw [Option.some_inj.1 hget]
    refine ⟨rfl, ?_⟩
    by_contra hfinished
    rw [Bool.not_eq_false] at hfinished
    refine hpast (hbefore.known t.id ?_)
    exact (ended_of_meet hbefore.tidy hmeet hfinished).symm.imp_left And.left
  obtain ⟨pages, haccount⟩ := (PageAccount.opened hbefore.tidy hself hmeet hopening).course
    (tidy_of_meet hbefore.tidy hmeet) ((self_of_meet hbefore.tidy hmeet).trans hself)
    ((compressor_of_meet hbefore.tidy hmeet).trans hcompressor) hheeds hrest hlater
  exact ⟨pages, haccount.paginated, haccount.frames, haccount.read, haccount.answers,
    haccount.closing, fun s hs => ⟨(haccount.session s hs).items, (haccount.session s hs).bytes⟩,
    haccount.told⟩

end

namespace EarlyGrants

def terms : SessionTerms :=
  ⟨1, ⟨"a", 1, none⟩, ⟨"b", 1, none⟩, ⟨.full, 1, true⟩, .run⟩

def mover : Mover :=
  start terms.source {} (.ofList [([1], [9]), ([2], [9]), ([3], [9])]) ⟨0, 0⟩ terms.compressor

/-- What the store holds after the first page was sent. -/
def changed : Store := .ofList [([0], [9]), ([2], [9]), ([3], [9]), ([4], [9])]

/-- Two grants come before the handshake is acknowledged, a third when it is asked for. -/
def happenings : List Happening :=
  [.input (.command (.startSend terms.destination .full 1)),
    .input (.inbound terms.destination (.clearToSend 1 2)),
    .input (.inbound terms.destination (.clearToSend 1 0)),
    .input (.inbound terms.destination (.ack 1)), .amid ⟨changed, ⟨0, 1⟩, ∅, 0⟩,
    .input (.inbound terms.destination (.allReceived 1)),
    .input (.inbound terms.destination (.allReceived 1)),
    .input (.inbound terms.destination (.clearToSend 1 100)),
    .input (.inbound terms.destination (.allReceived 1))]

end EarlyGrants

open EarlyGrants in
/-- Three grants are answered by three pages, with four items from a store that changed on the
way. -/
theorem session_pages_early : ∃ opened later pages,
    mover.course happenings = .ok (opened :: later) ∧
      opened.opening? terms.id = some (terms.destination, terms.metadata) ∧
      terms.id ∉ numbers later ∧ SentPage.Paginated .full pages ∧
      (framesIn terms.id (opened :: later)).filter (fun e => e.message.isPageOf terms.id) =
        pages.flatMap terms.copies ∧
      pages.map SentPage.quota <+: [2, 0, 100] ∧ (SentPage.allItems pages).length = 4 := by
  obtain ⟨moments, hrun⟩ : ∃ moments, mover.course happenings = .ok moments := ⟨_, rfl⟩
  obtain ⟨opened, later, rfl, hopened, -⟩ := course_cons hrun
  have hopening : (mover.course happenings).toOption.map (fun moments =>
      moments.head?.bind fun x => x.opening? 1) =
      some (some (terms.destination, terms.metadata)) := rfl
  have hnumbers : (mover.course happenings).toOption.map (fun moments => numbers moments.tail) =
      some [] := rfl
  have hgrants : (mover.course happenings).toOption.map (clearances terms.destination 1) =
      some [2, 0, 100] := rfl
  have htold : (mover.course happenings).toOption.map (toldIn 1) =
      some [.sendFinished 1 terms.destination 4 8] := rfl
  rw [hrun] at hopening hnumbers hgrants htold
  simp only [Except.toOption, Option.map_some, Option.some_inj, List.head?_cons, Option.bind_some,
    List.tail_cons] at hopening hnumbers hgrants htold
  have hlater : terms.id ∉ numbers later := by
    rw [hnumbers]
    exact List.not_mem_nil
  have hfirst : mover.course happenings = .ok ([] ++ opened :: later) := hrun
  obtain ⟨pages, hpaginated, hframes, -, hanswers, -, -, hcount⟩ :=
    session_pages (t := terms) hfirst hopening List.not_mem_nil hlater
  have htold' : toldIn terms.id (opened :: later) = [.sendFinished 1 terms.destination 4 8] :=
    htold
  refine ⟨opened, later, pages, hrun, hopening, hlater, hpaginated, hframes, ?_, ?_⟩
  · rw [← hgrants]
    exact hanswers
  · exact (hcount terms.destination 4 8 (by rw [htold']; exact List.mem_singleton.2 rfl)).1.symm

end Mover

end ReplicaRing
