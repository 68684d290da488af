import ReplicaRing.Proofs.FinalPages
import ReplicaRing.Proofs.MoverRuns
import ReplicaRing.Proofs.TransferEnds

/-!
The inbound sessions of a mover, whatever its peers send. `InboundTurn` lists what may happen to one
session while the mover handles an input, together with the entries that it writes and with what is
told of it; the runs below read off it that a session writes in key order, counts what it wrote,
and that a session which is remembered as completed is left alone.
-/

namespace ReplicaRing

/-- The inbound session that an event tells of. -/
def MoverEvent.inboundSession? : MoverEvent → Option PeerSession
  | transferComplete id source _ _ _ => some ⟨source, id⟩
  | sendFinished .. | sendFailed .. => none

lemma MoverEvent.inboundSession?_of_isOutbound {e : MoverEvent} (h : e.IsOutbound) :
    e.inboundSession? = none := by
  cases e with
  | transferComplete => cases h
  | sendFinished => rfl
  | sendFailed => rfl

namespace ReceiverSession

/-- Entries that a session may write next: in key order, above its last key. -/
def Continues (s : ReceiverSession) (entries : List StoreItem) : Prop :=
  Ascending entries ∧ ∀ i ∈ entries, above s.lastKey i.key = true

/-- A session after it wrote some entries. -/
def wrote (s : ReceiverSession) (entries : List StoreItem) : ReceiverSession :=
  { s with
    lastKey := lastAfter s.lastKey entries
    items := s.items + entries.length
    bytes := s.bytes + StoreItem.totalSize entries }

/-- A session counts what it writes of a page. -/
lemma writeItems_wrote (store : Store) (s : ReceiverSession) (items : List StoreItem) :
    (writeItems store s items).2.1 = s.wrote (written store.refused s.lastKey items) := by
  induction items generalizing store s with
  | nil => rfl
  | cons i rest ih =>
    unfold written
    cases habove : above s.lastKey i.key with
    | false =>
      rw [writeItems_skip habove, if_pos rfl]
      exact ih store s
    | true =>
      rw [if_neg (by simp)]
      cases hr : store.refused.contains i.writeCall with
      | true =>
        rw [writeItems_refused habove hr, if_pos rfl]
        rfl
      | false =>
        rw [writeItems_write habove hr, if_neg (by simp), ih]
        have hlast : lastAfter (some i.key) (written store.refused (some i.key) rest) =
            lastAfter s.lastKey (i :: written store.refused (some i.key) rest) := by
          unfold lastAfter
          rw [List.getLast?_cons]
          cases (written store.refused (some i.key) rest).getLast? with
          | none => rfl
          | some j => rfl
        show wrote _ (written store.refused (some i.key) rest) = _
        unfold wrote
        rw [← hlast, List.length_cons, StoreItem.totalSize_cons]
        simp only [Nat.add_assoc, Nat.add_comm 1]

end ReceiverSession

namespace Mover

/-- The entries that an input makes an inbound session write. -/
def entriesOf (m : Mover) (key : PeerSession) (input : Input) : List StoreItem :=
  (m.receptionOf key input).elim [] Reception.written

/-- The events among the outputs that tell of an inbound session. -/
def completionsOf (key : PeerSession) (out : List Output) : List MoverEvent :=
  (eventsIn out).filter fun e => e.inboundSession? == some key

/-- The inbound sessions that are told to be complete. -/
def closedBy (out : List Output) : List PeerSession :=
  (eventsIn out).filterMap MoverEvent.inboundSession?

/-- What may happen to the inbound session of one key, remembered as completed or not, with the
entries that it writes and what is told of it. -/
inductive InboundTurn (key : PeerSession) (completed : Bool) :
    Option ReceiverSession → List StoreItem → List MoverEvent → Option ReceiverSession → Prop
  | same (o) : InboundTurn key completed o [] [] o
  | opened (metadata) : completed = false →
      InboundTurn key completed none [] [] (some (.start metadata))
  | wrote (s entries) : s.Continues entries →
      InboundTurn key completed (some s) entries [] (some (s.wrote entries))
  | closed (s entries) : s.Continues entries →
      InboundTurn key completed (some s) entries
        [.transferComplete key.id key.peer s.metadata (s.wrote entries).items
          (s.wrote entries).bytes] none

section

variable {m m' : Mover} {input : Input} {out : List Output} {key : PeerSession} {src : NodeId}
  {id : SessionId} {e : MoverEvent}

lemma mem_completionsOf :
    e ∈ completionsOf key out ↔ .event e ∈ out ∧ e.inboundSession? = some key := by
  unfold completionsOf
  rw [List.mem_filter, mem_eventsIn, beq_iff_eq]

lemma mem_closedBy :
    key ∈ closedBy out ↔ ∃ e, .event e ∈ out ∧ e.inboundSession? = some key := by
  unfold closedBy
  rw [List.mem_filterMap]
  exact exists_congr fun e => and_congr_left fun _ => mem_eventsIn

lemma closedBy_of_quiet (h : ∀ e, .event e ∉ out) : closedBy out = [] := by
  rw [List.eq_nil_iff_forall_not_mem]
  intro key hmem
  obtain ⟨e, he, -⟩ := mem_closedBy.1 hmem
  exact h e he

lemma completionsOf_of_not_mem (h : key ∉ closedBy out) : completionsOf key out = [] := by
  rw [List.eq_nil_iff_forall_not_mem]
  exact fun e he => h (mem_closedBy.2 ⟨e, mem_completionsOf.1 he⟩)

/-- An input writes what its page brings to the session that receives it. -/
lemma entriesOf_of_some {r : Reception} (h : m.reception? input = some r) (key : PeerSession) :
    m.entriesOf key input = if r.session = key then r.written else [] := by
  unfold entriesOf receptionOf
  rw [h, Option.filter_some]
  by_cases hkey : r.session = key
  · rw [if_pos (by rwa [beq_iff_eq]), if_pos hkey]
    rfl
  · rw [if_neg (by rwa [beq_iff_eq]), if_neg hkey]
    rfl

lemma entriesOf_of_none (h : m.reception? input = none) (key : PeerSession) :
    m.entriesOf key input = [] := by
  unfold entriesOf receptionOf
  rw [h]
  rfl

/-- What a sender puts out tells of no inbound session. -/
lemma SenderMove.closedBy {opening : SessionId → Option (NodeId × TransferMetadata)}
    {granted : SessionId → Option UInt64} {r : Mover × List Output}
    (h : SenderMove m opening granted r) : closedBy r.2 = [] := by
  rw [List.eq_nil_iff_forall_not_mem]
  intro key hmem
  obtain ⟨e, he, hkey⟩ := mem_closedBy.1 hmem
  rw [MoverEvent.inboundSession?_of_isOutbound (h.events e he)] at hkey
  cases hkey

/-- No input completes two sessions. -/
lemma closedBy_eq (hm : m.Tidy) (h : m.handle input = .ok (m', out)) (hmem : key ∈ closedBy out) :
    closedBy out = [key] := by
  rcases handle_cases hm h with ⟨m₁, rfl, -, hmove⟩ | ⟨src, message, id, rfl, hid, rfl, rfl, -⟩
  · rw [hmove.closedBy] at hmem
    cases hmem
  · rcases onMessage_cases m src hid with ⟨_, -, -, hquiet⟩ | ⟨-, hquiet, -⟩ |
      ⟨payload, isFinal, r, rfl, hr⟩
    · rw [closedBy_of_quiet hquiet] at hmem
      cases hmem
    · rw [closedBy_of_quiet hquiet] at hmem
      cases hmem
    · obtain ⟨s, items, -, -, -, -, -, -, hevents⟩ := onData_of_some hr
      have hclosed : closedBy (m.onMessage src (.data id payload isFinal)).2 =
          (eventsIn (m.onData src id payload isFinal).2).filterMap MoverEvent.inboundSession? := rfl
      rw [hclosed, hevents] at hmem ⊢
      split at hmem
      · rename_i hlast
        rw [if_pos hlast, List.mem_singleton.1 hmem]
        rfl
      · cases hmem

/-- The sessions that are told to be complete are those that join the memory of them. -/
lemma completed_of_handle (hm : m.Tidy) (h : m.handle input = .ok (m', out)) :
    m'.completed = (closedBy out).foldl RecentSet.insert m.completed := by
  rcases handle_cases hm h with ⟨m₁, rfl, -, hmove⟩ | ⟨src, message, id, rfl, hid, rfl, rfl, -⟩
  · obtain ⟨_, _, _, _, _, _, hrest⟩ := hmove.rest
    replace hrest : m₁ = _ := hrest
    rw [(finishTeardown_receiver m₁).2.2, hrest, hmove.closedBy]
    rfl
  · rw [(finishTeardown_receiver _).2.2]
    rcases onMessage_cases m src hid with ⟨_, -, hopen, hquiet⟩ | ⟨hsame, hquiet, -⟩ |
      ⟨payload, isFinal, r, rfl, hr⟩
    · rw [closedBy_of_quiet hquiet, hopen]
      rfl
    · rw [closedBy_of_quiet hquiet, hsame]
      rfl
    · obtain ⟨s, items, -, -, -, -, -, hcompleted, hevents⟩ := onData_of_some hr
      show (m.onData src id payload isFinal).1.completed = _
      unfold Mover.closedBy
      show _ = ((eventsIn (m.onData src id payload isFinal).2).filterMap _).foldl _ _
      rw [hcompleted, hevents]
      split
      · rfl
      · rfl

/-- A page is received by its own session, and by no other. -/
lemma inboundTurn_onData {payload : Bytes} {isFinal : Bool} {r : Reception}
    (hr : m.reception? (.inbound src (.data id payload isFinal)) = some r) (key : PeerSession) :
    InboundTurn key (m.completed.contains key) (m.inbound.get? key)
      (m.entriesOf key (.inbound src (.data id payload isFinal)))
      (completionsOf key (m.onData src id payload isFinal).2)
      ((m.onData src id payload isFinal).1.inbound.get? key) := by
  obtain ⟨s, items, hget, -, hr', -, hafter, -, hevents⟩ := onData_of_some hr
  have hsession : r.session = ⟨src, id⟩ := by rw [hr']
  have hwritten : ReceiverSession.written m.store.refused s.lastKey items = r.written := by
    rw [hr']
  unfold completionsOf
  rw [entriesOf_of_some hr, hevents, hafter, ReceiverSession.writeItems_wrote, hwritten, hsession]
  by_cases hkey : key = ⟨src, id⟩
  · have hcontinues : s.Continues r.written :=
      hwritten ▸ ReceiverSession.ascending_written m.store.refused s.lastKey items
    rw [if_pos hkey.symm, if_pos hkey, hkey, hget]
    split
    · rw [List.filter_cons_of_pos (by simp [MoverEvent.inboundSession?])]
      exact .closed s r.written hcontinues
    · exact .wrote s r.written hcontinues
  · rw [if_neg (Ne.symm hkey), if_neg hkey]
    split
    · rw [List.filter_cons_of_neg (by simp [MoverEvent.inboundSession?, Ne.symm hkey])]
      exact .same _
    · exact .same _

/-- Whatever a mover handles, each of its inbound sessions takes one of the turns. -/
theorem inboundTurn_of_handle (hm : m.Tidy) (h : m.handle input = .ok (m', out))
    (key : PeerSession) :
    InboundTurn key (m.completed.contains key) (m.inbound.get? key) (m.entriesOf key input)
      (completionsOf key out) (m'.inbound.get? key) := by
  rcases handle_cases hm h with ⟨m₁, rfl, hinput, hmove⟩ | ⟨src, message, id, rfl, hid, rfl, rfl, -⟩
  · obtain ⟨_, _, _, _, _, _, hrest⟩ := hmove.rest
    replace hrest : m₁ = _ := hrest
    have htold : completionsOf key out = [] :=
      completionsOf_of_not_mem (hmove.closedBy ▸ List.not_mem_nil)
    rw [entriesOf_of_none (reception?_of_isOutbound hinput), htold, (finishTeardown_receiver m₁).2.1,
      hrest]
    exact .same _
  · rw [(finishTeardown_receiver _).2.1]
    rcases onMessage_cases m src hid with ⟨metadata, rfl, hopen, hquiet⟩ | ⟨hsame, hquiet, hnone⟩ |
      ⟨payload, isFinal, r, rfl, hr⟩
    · have htold : completionsOf key (m.onMessage src (.initiateTransfer id metadata)).2 = [] :=
        completionsOf_of_not_mem (closedBy_of_quiet hquiet ▸ List.not_mem_nil)
      rw [hopen, htold, entriesOf_of_none rfl]
      simp only
      split
      · exact .same _
      · rename_i hclosed
        rw [SortedMap.get?_insert]
        by_cases hkey : key = ⟨src, id⟩
        · -- a handshake opens the session if it is neither open nor completed
          rw [Bool.or_eq_true, not_or, Bool.not_eq_true, Bool.not_eq_true, ← hkey] at hclosed
          have hget : m.inbound.get? key = none := by
            simpa [SortedMap.contains] using hclosed.1
          rw [if_pos hkey, hget]
          exact .opened metadata hclosed.2
        · rw [if_neg hkey]
          exact .same _
    · have htold : completionsOf key (m.onMessage src message).2 = [] :=
        completionsOf_of_not_mem (closedBy_of_quiet hquiet ▸ List.not_mem_nil)
      rw [hsame, htold, entriesOf_of_none hnone]
      exact .same _
    · exact inboundTurn_onData hr key

/-! ## Frames that change nothing -/

/-- A page that does not decode is dropped by an open session. -/
lemma handle_undecodable (hm : m.Tidy) {s : ReceiverSession}
    (hget : m.inbound.get? ⟨src, id⟩ = some s) (hcompleted : m.completed.contains ⟨src, id⟩ = false)
    {payload : Bytes} {fault : Fault}
    (hdecode : Page.decode payload s.metadata.compressed = .error fault) (isFinal : Bool) :
    m.handle (.inbound src (.data id payload isFinal)) = .ok (m, []) := by
  have hdrop : m.onMessage src (.data id payload isFinal) = (m, []) := by
    show m.onData src id payload isFinal = _
    unfold onData
    simp only [hcompleted, hget, hdecode]
    rfl
  unfold handle
  simp only [hdrop, pure, Except.pure, bind, Except.bind, finishTeardown_of_nil hm.teardown]

/-- A session that is remembered as completed is left alone by its frames. -/
lemma handle_completed (hm : m.Tidy) {message : Message}
    (hid : message.outboundSession? = some id) (hcompleted : m.completed.contains ⟨src, id⟩ = true)
    (h : m.handle (.inbound src message) = .ok (m', out)) : m' = m := by
  have hsame : (m.onMessage src message).1 = m := by
    rcases onMessage_cases m src hid with ⟨metadata, rfl, hopen, -⟩ | ⟨hsame, -, -⟩ |
      ⟨payload, isFinal, r, rfl, hr⟩
    · rw [hopen, hcompleted, Bool.or_true]
      rfl
    · exact hsame
    · unfold reception? at hr
      simp only [hcompleted, if_pos] at hr
      cases hr
  cases h
  show (m.onMessage src message).1.finishTeardown = m
  rw [hsame, finishTeardown_of_nil hm.teardown]

end

/-! ## Moments -/

/-- The entries that an inbound session writes at a moment. -/
def Moment.entries (x : Moment) (key : PeerSession) : List StoreItem :=
  match x.happening with
  | .input input => x.before.entriesOf key input
  | .amid _ => []

/-- The entries that an inbound session writes in a run. -/
def entriesIn (key : PeerSession) (moments : List Moment) : List StoreItem :=
  moments.flatMap fun x => x.entries key

/-- The inbound sessions that complete in a run. -/
def closedIn (moments : List Moment) : List PeerSession := moments.flatMap fun x => closedBy x.out

/-- The events of a run that tell of an inbound session. -/
def completionsIn (key : PeerSession) (moments : List Moment) : List MoverEvent :=
  moments.flatMap fun x => completionsOf key x.out

/-- A mover that knows its open inbound sessions from those that are completed. -/
structure Receptive (m : Mover) : Prop where
  tidy : m.Tidy
  valid : m.completed.Valid
  capacity : m.completed.capacity = recentSessions
  apart : ∀ key, m.inbound.get? key ≠ none → m.completed.contains key = false

section

variable {m : Mover} {x opened : Moment} {front back life moments : List Moment} {h : Happening}
  {happenings : List Happening} {key : PeerSession}

lemma entriesIn_concat (key : PeerSession) (past : List Moment) (x : Moment) :
    entriesIn key (past ++ [x]) = entriesIn key past ++ x.entries key := by
  unfold entriesIn
  rw [List.flatMap_append, List.flatMap_singleton]

lemma closedIn_concat (past : List Moment) (x : Moment) :
    closedIn (past ++ [x]) = closedIn past ++ closedBy x.out := by
  unfold closedIn
  rw [List.flatMap_append, List.flatMap_singleton]

/-- Whatever happens, each inbound session takes one of the turns. -/
lemma inboundTurn_of_meet (hm : m.Tidy) (hx : m.meet h = .ok x) (key : PeerSession) :
    InboundTurn key (m.completed.contains key) (m.inbound.get? key) (x.entries key)
      (completionsOf key x.out) (x.after.inbound.get? key) := by
  unfold Moment.entries
  obtain ⟨hbefore, hhappening, ⟨input, rfl, hhandle⟩ | ⟨w, rfl, hafter, hout⟩⟩ := meet_cases hx
  · rw [hhappening, hbefore]
    exact inboundTurn_of_handle hm hhandle key
  · rw [hhappening, hafter, hout]
    exact .same _

lemma completed_of_meet (hm : m.Tidy) (hx : m.meet h = .ok x) :
    x.after.completed = (closedBy x.out).foldl RecentSet.insert m.completed := by
  obtain ⟨-, -, ⟨input, -, hhandle⟩ | ⟨w, -, hafter, hout⟩⟩ := meet_cases hx
  · exact completed_of_handle hm hhandle
  · rw [hafter, hout]
    rfl

lemma receptive_start (self : NodeId) (config : TransferConfig) (store : Store) (ids : IdSource)
    (c : BlockCompression.Compressor) : (start self config store ids c).Receptive :=
  ⟨tidy_start self config store ids c, RecentSet.valid_empty _, rfl,
    fun key hkey => absurd (SortedMap.get?_empty key) hkey⟩

lemma receptive_of_meet (hm : m.Receptive) (hx : m.meet h = .ok x) : x.after.Receptive := by
  have hcompleted := completed_of_meet hm.tidy hx
  refine ⟨tidy_of_meet hm.tidy hx, ?_, ?_, fun key hopen => ?_⟩
  · rw [hcompleted]
    exact hm.valid.foldl_insert _
  · rw [hcompleted, RecentSet.capacity_foldl_insert, hm.capacity]
  · -- a session that is open afterwards was not told to be complete
    have hturn := inboundTurn_of_meet hm.tidy hx key
    have hquiet : completionsOf key x.out = [] ∧ m.completed.contains key = false := by
      generalize hgiven : m.completed.contains key = completed, hbefore : m.inbound.get? key = o,
        x.entries key = entries, completionsOf key x.out = told,
        hafter : x.after.inbound.get? key = o' at hturn
      have hopen' : o ≠ none → completed = false := fun ho =>
        hgiven.symm.trans (hm.apart key (hbefore ▸ ho))
      cases hturn with
      | same => exact ⟨rfl, hopen' (hafter ▸ hopen)⟩
      | opened metadata hcompleted => exact ⟨rfl, hcompleted⟩
      | wrote s => exact ⟨rfl, hopen' (Option.some_ne_none s)⟩
      | closed s => exact absurd hafter hopen
    rw [hcompleted, ← Bool.not_eq_true]
    intro hcontains
    rcases RecentSet.contains_of_foldl_insert hcontains with hmem | hbefore
    · obtain ⟨e, he⟩ := mem_closedBy.1 hmem
      have htold := mem_completionsOf.2 he
      rw [hquiet.1] at htold
      cases htold
    · rw [hquiet.2] at hbefore
      cases hbefore

/-- A mover is receptive before each moment of a run. -/
lemma receptive_of_course (hm : m.Receptive) (hrun : m.course happenings = .ok (front ++ x :: back)) :
    x.before.Receptive := by
  obtain ⟨⟨earlier, hearlier⟩, hbefore, -, -⟩ := course_split hrun
  rw [hbefore]
  exact course_induction (motive := fun _ m' => m'.Receptive) hm
    (fun _ _ _ hm hmeet => receptive_of_meet hm hmeet) hearlier

/-- The memory of completed sessions took those that completed in a run. -/
lemma completed_of_course (hm : m.Tidy) (hrun : m.course happenings = .ok moments) :
    (m.final moments).completed = (closedIn moments).foldl RecentSet.insert m.completed := by
  refine (course_induction (motive := fun past m' => m'.Tidy ∧
    m'.completed = (closedIn past).foldl RecentSet.insert m.completed) ⟨hm, rfl⟩
    (fun past x h ⟨htidy, ih⟩ hmeet => ⟨tidy_of_meet htidy hmeet, ?_⟩) hrun).2
  rw [closedIn_concat, List.foldl_append, ← ih]
  exact completed_of_meet htidy hmeet

/-! ## The life of a session -/

/-- The moments of an inbound session, from its opening on. -/
structure InboundLife (key : PeerSession) (opened : Moment) (life : List Moment) : Prop where
  unopened : opened.before.inbound.get? key = none
  opens : opened.after.inbound.get? key ≠ none
  live : ∀ x ∈ life, x.before.inbound.get? key ≠ none

/-- What a session keeps of the entries that it wrote. -/
structure Recorded (s : ReceiverSession) (entries : List StoreItem) : Prop where
  last : s.lastKey = StoreItem.lastKey? entries
  items : s.items = entries.length
  bytes : s.bytes = StoreItem.totalSize entries

lemma recorded_start (metadata : TransferMetadata) : Recorded (.start metadata) [] := ⟨rfl, rfl, rfl⟩

/-- What continues a session comes behind all that it wrote. -/
lemma Recorded.wrote {s : ReceiverSession} {entries more : List StoreItem}
    (hasc : Ascending entries) (h : Recorded s entries) (hmore : s.Continues more) :
    Ascending (entries ++ more) ∧ Recorded (s.wrote more) (entries ++ more) := by
  obtain ⟨hascending, habove⟩ := hmore
  rw [h.last] at habove
  refine ⟨ReceiverSession.ascending_append hasc hascending habove, ?_, ?_, ?_⟩
  · show ReceiverSession.lastAfter s.lastKey more = _
    rw [StoreItem.lastKey?_append, h.last]
    rfl
  · rw [List.length_append, ← h.items]
    rfl
  · rw [StoreItem.totalSize_append, ← h.bytes]
    rfl

/-- A session is opened without entries. -/
lemma started_of_meet (hm : m.Tidy) (hx : m.meet h = .ok x) (hbefore : m.inbound.get? key = none)
    (hafter : x.after.inbound.get? key ≠ none) :
    ∃ metadata, x.after.inbound.get? key = some (.start metadata) := by
  have hturn := inboundTurn_of_meet hm hx key
  rw [hbefore] at hturn
  generalize x.entries key = entries, completionsOf key x.out = told,
    x.after.inbound.get? key = o' at hturn hafter
  cases hturn with
  | same => exact absurd rfl hafter
  | opened metadata => exact ⟨metadata, rfl⟩

/-- While a session is open it writes in key order, and keeps count. -/
lemma recorded_of_life (hm : m.Tidy) {metadata : TransferMetadata}
    (hopen : m.inbound.get? key = some (.start metadata)) (hrun : m.course happenings = .ok life)
    (hlive : ∀ x ∈ life, x.before.inbound.get? key ≠ none) :
    Ascending (entriesIn key life) ∧
      ∀ s, (m.final life).inbound.get? key = some s → Recorded s (entriesIn key life) := by
  refine (course_induction (motive := fun past m' => m'.Tidy ∧
    ((∀ x ∈ past, x.before.inbound.get? key ≠ none) → Ascending (entriesIn key past) ∧
      ∀ s, m'.inbound.get? key = some s → Recorded s (entriesIn key past)))
    ⟨hm, fun _ => ⟨List.Pairwise.nil, fun s hs => ?_⟩⟩
    (fun past x h ⟨htidy, ih⟩ hmeet => ⟨tidy_of_meet htidy hmeet, fun hlive => ?_⟩) hrun).2 hlive
  · rw [hopen, Option.some_inj] at hs
    exact hs ▸ recorded_start metadata
  · obtain ⟨hpast, hlast⟩ := List.forall_mem_append.1 hlive
    obtain ⟨hasc, hrecorded⟩ := ih hpast
    obtain ⟨s, hget⟩ := Option.ne_none_iff_exists'.1 (hlast x List.mem_cons_self)
    have hs := hrecorded s hget
    have hturn := inboundTurn_of_meet htidy hmeet key
    rw [hget] at hturn
    rw [entriesIn_concat]
    generalize x.entries key = entries, completionsOf key x.out = told,
      x.after.inbound.get? key = o' at hturn
    cases hturn with
    | same =>
      rw [List.append_nil]
      exact ⟨hasc, fun _ hs' => Option.some_inj.1 hs' ▸ hs⟩
    | wrote s _ hcontinues =>
      obtain ⟨hall, hwrote⟩ := hs.wrote hasc hcontinues
      exact ⟨hall, fun _ hs' => Option.some_inj.1 hs' ▸ hwrote⟩
    | closed s _ hcontinues =>
      exact ⟨(hs.wrote hasc hcontinues).1, fun _ hs' => nomatch hs'⟩

/-- A session that is open was opened, and has been open since. -/
lemma exists_life (hclosed : m.inbound.get? key = none)
    (hrun : m.course happenings = .ok moments)
    (hopen : (m.final moments).inbound.get? key ≠ none) :
    ∃ past opened life, moments = past ++ opened :: life ∧ InboundLife key opened life := by
  refine course_induction (motive := fun past m' => m'.inbound.get? key ≠ none →
    ∃ earlier opened life, past = earlier ++ opened :: life ∧ InboundLife key opened life)
    (fun h => absurd hclosed h) (fun past x h ih hmeet hafter => ?_) hrun hopen
  by_cases hbefore : x.before.inbound.get? key = none
  · exact ⟨past, x, [], rfl, hbefore, hafter, fun _ hy => nomatch hy⟩
  · obtain ⟨earlier, opened, life, rfl, hlife⟩ := ih hbefore
    refine ⟨earlier, opened, life ++ [x], by simp, hlife.unopened, hlife.opens, ?_⟩
    exact List.forall_mem_append.2 ⟨hlife.live, List.forall_mem_singleton.2 hbefore⟩

/-- In a run a session writes in key order while it is open, and keeps count. -/
lemma recorded_of_course (hm : m.Receptive)
    (hrun : m.course happenings = .ok (front ++ opened :: (life ++ back)))
    (hlife : InboundLife key opened life) :
    Ascending (entriesIn key life) ∧
      ∀ s, (opened.after.final life).inbound.get? key = some s → Recorded s (entriesIn key life) := by
  have htidy := (receptive_of_course hm hrun).tidy
  obtain ⟨-, -, ⟨h, hmeet⟩, later, hlater⟩ := course_split hrun
  obtain ⟨metadata, hopen⟩ := started_of_meet htidy hmeet hlife.unopened hlife.opens
  obtain ⟨earlier, hearlier⟩ := course_front hlater
  exact recorded_of_life (tidy_of_meet htidy hmeet) hopen hearlier hlife.live

/-- A session that is told to be complete was open, wrote what the page brought, and is closed. -/
lemma closed_of_meet (hm : m.Tidy) (hx : m.meet h = .ok x) (htold : completionsOf key x.out ≠ []) :
    ∃ s, m.inbound.get? key = some s ∧ s.Continues (x.entries key) ∧
      x.after.inbound.get? key = none ∧ completionsOf key x.out =
        [.transferComplete key.id key.peer s.metadata (s.wrote (x.entries key)).items
          (s.wrote (x.entries key)).bytes] := by
  have hturn := inboundTurn_of_meet hm hx key
  generalize m.inbound.get? key = o, x.entries key = entries, completionsOf key x.out = told,
    x.after.inbound.get? key = o' at hturn htold
  cases hturn with
  | same => exact absurd rfl htold
  | opened => exact absurd rfl htold
  | wrote => exact absurd rfl htold
  | closed s _ hcontinues => exact ⟨s, rfl, hcontinues, rfl, rfl⟩

/-- What is told of a session when it completes is what it wrote since it was opened. -/
lemma counted_of_course (hm : m.Receptive) (hclosed : m.inbound.get? key = none)
    (hrun : m.course happenings = .ok (front ++ x :: back)) {metadata : TransferMetadata}
    {items bytes : Nat}
    (htold : .event (.transferComplete key.id key.peer metadata items bytes) ∈ x.out) :
    ∃ past opened life, front = past ++ opened :: life ∧ InboundLife key opened (life ++ [x]) ∧
      items = (entriesIn key (life ++ [x])).length ∧
      bytes = StoreItem.totalSize (entriesIn key (life ++ [x])) := by
  have htidy := (receptive_of_course hm hrun).tidy
  obtain ⟨⟨earlier, hearlier⟩, hbefore, ⟨h, hmeet⟩, -⟩ := course_split hrun
  have hmem : _ ∈ completionsOf key x.out := mem_completionsOf.2 ⟨htold, rfl⟩
  obtain ⟨s, hget, hcontinues, -, hevent⟩ := closed_of_meet htidy hmeet (List.ne_nil_of_mem hmem)
  have hopen : (m.final front).inbound.get? key ≠ none := by
    rw [← hbefore, hget]
    exact Option.some_ne_none s
  obtain ⟨past, opened, life, rfl, hlife⟩ := exists_life hclosed hearlier hopen
  have hfront : m.course earlier = .ok (past ++ opened :: (life ++ [])) := by
    rw [List.append_nil]
    exact hearlier
  obtain ⟨hasc, hrecorded⟩ := recorded_of_course hm hfront hlife
  rw [hbefore, final_append_cons] at hget
  obtain ⟨-, hwrote⟩ := (hrecorded s hget).wrote hasc hcontinues
  rw [hevent, List.mem_singleton] at hmem
  cases hmem
  rw [← entriesIn_concat] at hwrote
  refine ⟨past, opened, life, rfl, ⟨hlife.unopened, hlife.opens, ?_⟩, hwrote.items, hwrote.bytes⟩
  refine List.forall_mem_append.2 ⟨hlife.live, List.forall_mem_singleton.2 ?_⟩
  rw [hbefore]
  exact hopen

/-- A session that completed is remembered until as many others complete as the memory holds. -/
lemma remembered_of_course (hm : m.Receptive) (hx : m.meet h = .ok x)
    (htold : completionsOf key x.out ≠ []) (hrun : x.after.course happenings = .ok moments)
    (hfew : (closedIn moments).length < recentSessions) :
    (x.after.final moments).completed.contains key = true := by
  obtain ⟨s, hget, -, -, -⟩ := closed_of_meet hm.tidy hx htold
  have hnew := hm.apart key (by rw [hget]; exact Option.some_ne_none s)
  have hafter := receptive_of_meet hm hx
  have hclosed : closedBy x.out = [key] := by
    obtain ⟨-, -, ⟨input, -, hhandle⟩ | ⟨w, -, -, hout⟩⟩ := meet_cases hx
    · obtain ⟨e, he⟩ := List.exists_mem_of_ne_nil _ htold
      exact closedBy_eq hm.tidy hhandle (mem_closedBy.2 ⟨e, mem_completionsOf.1 he⟩)
    · rw [hout] at htold
      exact absurd rfl htold
  have haged : x.after.completed.Aged key 0 := by
    rw [completed_of_meet hm.tidy hx, hclosed]
    exact RecentSet.aged_insert_self hnew (by rw [hm.capacity]; decide)
  rw [completed_of_course hafter.tidy hrun]
  refine (haged.foldl_insert ?_).contains (hafter.valid.foldl_insert _)
  rw [hafter.capacity, Nat.zero_add]
  exact hfew

/-- While a session is remembered as completed, nothing more is told of it, it is not opened again,
and its frames change nothing. -/
lemma ignored_of_meet (hm : m.Tidy) (hx : m.meet h = .ok x) (hclosed : m.inbound.get? key = none)
    (hcontains : m.completed.contains key = true) :
    completionsOf key x.out = [] ∧ x.after.inbound.get? key = none ∧
      ∀ message, x.happening = .input (.inbound key.peer message) →
        message.outboundSession? = some key.id → x.after = m := by
  have hturn := inboundTurn_of_meet hm hx key
  rw [hclosed, hcontains] at hturn
  generalize x.entries key = entries, htold : completionsOf key x.out = told,
    hafter : x.after.inbound.get? key = o' at hturn
  cases hturn with
  | same =>
    refine ⟨rfl, rfl, fun message hinput hid => ?_⟩
    obtain ⟨-, hhappening, ⟨input, rfl, hhandle⟩ | ⟨w, rfl, -, -⟩⟩ := meet_cases hx
    · rw [hinput] at hhappening
      cases hhappening
      exact handle_completed hm hid hcontains hhandle
    · rw [hinput] at hhappening
      cases hhappening
  | opened _ hnew => cases hnew

/-- From its completion on a session is ignored, as long as it is remembered. -/
lemma ignored_of_course (hm : m.Receptive) (hclosed : m.inbound.get? key = none)
    (hrun : m.course happenings = .ok (moments ++ back))
    (hcontains : ∀ x ∈ moments, x.before.completed.contains key = true) :
    completionsIn key moments = [] ∧ ∀ x ∈ moments, x.after.inbound.get? key = none ∧
      ∀ message, x.happening = .input (.inbound key.peer message) →
        message.outboundSession? = some key.id → x.after = x.before := by
  obtain ⟨earlier, hearlier⟩ := course_front hrun
  refine ((course_induction (motive := fun past m' => m'.Tidy ∧
    ((∀ x ∈ past, x.before.completed.contains key = true) → m'.inbound.get? key = none ∧
      completionsIn key past = [] ∧ ∀ x ∈ past, x.after.inbound.get? key = none ∧
        ∀ message, x.happening = .input (.inbound key.peer message) →
          message.outboundSession? = some key.id → x.after = x.before))
    ⟨hm.tidy, fun _ => ⟨hclosed, rfl, fun _ hx => nomatch hx⟩⟩
    (fun past x h ⟨htidy, ih⟩ hmeet => ⟨tidy_of_meet htidy hmeet, fun hcontains => ?_⟩)
    hearlier).2 hcontains).2
  obtain ⟨hpast, hlast⟩ := List.forall_mem_append.1 hcontains
  obtain ⟨hnone, hquiet, hall⟩ := ih hpast
  obtain ⟨htold, hgone, hframes⟩ :=
    ignored_of_meet htidy hmeet hnone (hlast x List.mem_cons_self)
  refine ⟨hgone, ?_, List.forall_mem_append.2 ⟨hall, List.forall_mem_singleton.2 ⟨hgone, hframes⟩⟩⟩
  unfold completionsIn at hquiet ⊢
  rw [List.flatMap_append, hquiet, List.flatMap_singleton, htold, List.append_nil]

/-- Only the session that a page belongs to writes, and the store changes by what it writes. -/
lemma store_of_meet (hm : m.Tidy) (hx : m.meet h = .ok x) {input : Input}
    (hinput : x.happening = .input input) :
    ∃ key, x.after.store = m.store.writeAll (x.entries key) ∧
      ∀ key' ≠ key, x.entries key' = [] := by
  obtain ⟨hbefore, hhappening, ⟨input', rfl, hhandle⟩ | ⟨w, rfl, -, -⟩⟩ := meet_cases hx
  · rw [hhappening] at hinput
    cases hinput
    have hentries : ∀ key, x.entries key = m.entriesOf key input := by
      intro key
      unfold Moment.entries
      rw [hhappening, hbefore]
    rw [store_of_handle hm hhandle]
    cases hr : m.reception? input with
    | none =>
      refine ⟨⟨m.self, 0⟩, ?_, fun key' _ => ?_⟩
      · rw [hentries, entriesOf_of_none hr]
        rfl
      · rw [hentries, entriesOf_of_none hr]
    | some r =>
      refine ⟨r.session, ?_, fun key' hkey => ?_⟩
      · rw [hentries, entriesOf_of_some hr, if_pos rfl]
        rfl
      · rw [hentries, entriesOf_of_some hr, if_neg (Ne.symm hkey)]
  · rw [hhappening] at hinput
    cases hinput

/-- A page for an open session that does not decode changes nothing and is not answered. -/
lemma undecodable_of_meet (hm : m.Receptive) (hx : m.meet h = .ok x) {s : ReceiverSession}
    {payload : Bytes} {isFinal : Bool} {fault : Fault} (hget : m.inbound.get? key = some s)
    (hinput : x.happening = .input (.inbound key.peer (.data key.id payload isFinal)))
    (hdecode : Page.decode payload s.metadata.compressed = .error fault) :
    x.after = m ∧ x.out = [] := by
  have hnew := hm.apart key (by rw [hget]; exact Option.some_ne_none s)
  have hdrop := handle_undecodable hm.tidy hget hnew hdecode isFinal
  obtain ⟨-, hhappening, ⟨input, rfl, hhandle⟩ | ⟨w, rfl, -, -⟩⟩ := meet_cases hx
  · rw [hinput] at hhappening
    cases hhappening
    rw [hdrop, Except.ok.injEq, Prod.mk.injEq] at hhandle
    exact ⟨hhandle.1.symm, hhandle.2.symm⟩
  · rw [hinput] at hhappening
    cases hhappening

/-- What inbound sessions do, whatever is sent to a mover. The store changes by what the sessions
write, and while a session is open it writes in key order. What is told of it when it completes are
the number and the size of the entries that it wrote since it was opened. A page for an open session
that does not decode changes nothing and is not answered. From its completion on, until as many
others have completed as the memory holds, a session is remembered as completed; and while it is
remembered nothing more is told of it, it is not opened again, and its frames change nothing. -/
theorem inbound_sessions {self : NodeId} {config : TransferConfig} {store : Store} {ids : IdSource}
    {c : BlockCompression.Compressor}
    (hrun : (start self config store ids c).course happenings = .ok moments) (key : PeerSession) :
    (∀ x ∈ moments, ∀ input, x.happening = .input input →
      ∃ key', x.after.store = x.before.store.writeAll (x.entries key') ∧
        ∀ key'' ≠ key', x.entries key'' = []) ∧
    (∀ past opened life later, moments = past ++ opened :: (life ++ later) →
      InboundLife key opened life → Ascending (entriesIn key life)) ∧
    (∀ front x back metadata items bytes, moments = front ++ x :: back →
      .event (.transferComplete key.id key.peer metadata items bytes) ∈ x.out →
        ∃ past opened life, front = past ++ opened :: life ∧
          InboundLife key opened (life ++ [x]) ∧
          items = (entriesIn key (life ++ [x])).length ∧
          bytes = StoreItem.totalSize (entriesIn key (life ++ [x]))) ∧
    (∀ x ∈ moments, ∀ s payload isFinal fault, x.before.inbound.get? key = some s →
      x.happening = .input (.inbound key.peer (.data key.id payload isFinal)) →
        Page.decode payload s.metadata.compressed = .error fault → x.after = x.before ∧ x.out = []) ∧
    ∀ front x since back, moments = front ++ x :: (since ++ back) → completionsOf key x.out ≠ [] →
      ((closedIn since).length < recentSessions →
        (x.after.final since).completed.contains key = true) ∧
      ((∀ y ∈ since, y.before.completed.contains key = true) →
        (completionsIn key (x :: since)).length = 1 ∧
        ∀ y ∈ since, y.after.inbound.get? key = none ∧
          ∀ message, y.happening = .input (.inbound key.peer message) →
            message.outboundSession? = some key.id → y.after = y.before) := by
  have hstart := receptive_start self config store ids c
  refine ⟨fun x hx input hinput => ?_, fun past opened life later hsplit hlife => ?_,
    fun front x back metadata items bytes hsplit htold => ?_,
    fun x hx s payload isFinal fault hget hinput hdecode => ?_,
    fun front x since back hsplit htold => ?_⟩
  · obtain ⟨front, back, rfl⟩ := List.append_of_mem hx
    obtain ⟨-, -, ⟨h, hmeet⟩, -⟩ := course_split hrun
    exact store_of_meet (receptive_of_course hstart hrun).tidy hmeet hinput
  · subst hsplit
    exact (recorded_of_course hstart hrun hlife).1
  · subst hsplit
    exact counted_of_course hstart (SortedMap.get?_empty key) hrun htold
  · obtain ⟨front, back, rfl⟩ := List.append_of_mem hx
    obtain ⟨-, -, ⟨h, hmeet⟩, -⟩ := course_split hrun
    exact undecodable_of_meet (receptive_of_course hstart hrun) hmeet hget hinput hdecode
  · subst hsplit
    have hm := receptive_of_course hstart hrun
    obtain ⟨-, -, ⟨h, hmeet⟩, later, hlater⟩ := course_split hrun
    obtain ⟨earlier, hearlier⟩ := course_front hlater
    refine ⟨remembered_of_course hm hmeet htold hearlier, fun hcontains => ?_⟩
    obtain ⟨s, -, -, hclosed, hevent⟩ := closed_of_meet hm.tidy hmeet htold
    obtain ⟨hquiet, hall⟩ :=
      ignored_of_course (receptive_of_meet hm hmeet) hclosed hlater hcontains
    refine ⟨?_, hall⟩
    unfold completionsIn at hquiet ⊢
    rw [List.flatMap_cons, hquiet, hevent]
    rfl

end

namespace Replayed

def key : PeerSession := ⟨⟨"a", 1, none⟩, 1⟩

def mover : Mover := start ⟨"b", 1, none⟩ { compression := false } (.ofList []) ⟨0, 0⟩

def handshake : Happening := .input (.inbound key.peer (.initiateTransfer key.id ⟨.full, 1, false⟩))

def page (items : List StoreItem) (isFinal : Bool) : Happening :=
  .input (.inbound key.peer (.data key.id (Page.encode items false) isFinal))

/-- A page that does not decode comes between two pages, of which the second repeats an item. -/
def pages : List Happening :=
  [page [⟨[1], some [9]⟩, ⟨[2], some [9]⟩] false,
    .input (.inbound key.peer (.data key.id [7] true)),
    page [⟨[2], some [8]⟩, ⟨[3], some [9]⟩] true]

/-- After its last page everything comes again. -/
def happenings : List Happening := handshake :: pages ++ handshake :: pages

end Replayed

open Replayed in
/-- Three items are written and told once, and what comes again changes nothing. -/
theorem inbound_sessions_replayed : ∃ opened first corrupt last since,
    mover.course happenings = .ok (opened :: first :: corrupt :: last :: since) ∧
      Ascending (entriesIn key [first, corrupt, last]) ∧
      corrupt.after = corrupt.before ∧ corrupt.out = [] ∧
      completionsIn key [opened, first, corrupt, last] =
        [.transferComplete key.id key.peer ⟨.full, 1, false⟩ 3 6] ∧
      (completionsIn key (last :: since)).length = 1 ∧
      ∀ y ∈ since, y.after.inbound.get? key = none := by
  obtain ⟨moments, hrun⟩ : ∃ moments, mover.course happenings = .ok moments := ⟨_, rfl⟩
  obtain ⟨opened, _, rfl, -, hrest⟩ := course_cons hrun
  obtain ⟨first, _, rfl, hfirst, hrest⟩ := course_cons hrest
  obtain ⟨corrupt, _, rfl, hcorrupt, hrest⟩ := course_cons hrest
  obtain ⟨last, since, rfl, hlast, -⟩ := course_cons hrest
  have hopen : (mover.course happenings).toOption.map (fun moments => (moments.take 4).map
      fun x => (x.before.inbound.get? key).map ReceiverSession.metadata) =
      some [none, some ⟨.full, 1, false⟩, some ⟨.full, 1, false⟩, some ⟨.full, 1, false⟩] := rfl
  have htold : (mover.course happenings).toOption.map (fun moments =>
      (moments.take 4).map fun x => completionsOf key x.out) =
      some [[], [], [], [.transferComplete key.id key.peer ⟨.full, 1, false⟩ 3 6]] := rfl
  have hcontains : (mover.course happenings).toOption.map (fun moments =>
      (moments.drop 4).all fun x => x.before.completed.contains key) = some true := rfl
  rw [hrun] at hopen htold hcontains
  simp only [Except.toOption, Option.map_some, Option.some_inj, List.take_succ_cons, List.take_zero,
    List.map_cons, List.map_nil, List.cons.injEq, and_true, List.drop_succ_cons, List.drop_zero,
    List.all_eq_true] at hopen htold hcontains
  obtain ⟨hunopened, hopen1, hopen2, hopen3⟩ := hopen
  obtain ⟨htold0, htold1, htold2, htold3⟩ := htold
  have hne : ∀ (o : Option ReceiverSession) metadata,
      o.map ReceiverSession.metadata = some metadata → o ≠ none := by
    rintro _ _ h rfl
    cases h
  have hlife : InboundLife key opened [first, corrupt, last] := by
    refine ⟨Option.map_eq_none_iff.1 hunopened, ?_, ?_⟩
    · rw [← (meet_cases hfirst).1]
      exact hne _ _ hopen1
    · simp only [List.forall_mem_cons]
      exact ⟨hne _ _ hopen1, hne _ _ hopen2, hne _ _ hopen3, fun _ hx => nomatch hx⟩
  obtain ⟨s, hs, hmetadata⟩ := Option.map_eq_some_iff.1 hopen2
  obtain ⟨fault, hdecode⟩ : ∃ fault, Page.decode [7] false = .error fault := ⟨_, rfl⟩
  obtain ⟨-, hascending, -, hundecoded, hcompleted⟩ := inbound_sessions hrun key
  obtain ⟨hsame, hsilent⟩ := hundecoded corrupt (by simp) s [7] true fault hs
    (meet_cases hcorrupt).2.1 (by rw [hmetadata]; exact hdecode)
  obtain ⟨-, hignored⟩ := hcompleted [opened, first, corrupt] last since [] (by simp)
    (by rw [htold3]; simp)
  obtain ⟨honce, hgone⟩ := hignored hcontains
  refine ⟨opened, first, corrupt, last, since, hrun,
    hascending [] opened [first, corrupt, last] since rfl hlife, hsame, hsilent, ?_, honce,
    fun y hy => (hgone y hy).1⟩
  simp only [completionsIn, List.flatMap_cons, List.flatMap_nil, htold0, htold1, htold2, htold3,
    List.nil_append, List.append_nil]

end Mover

end ReplicaRing
