import ReplicaRing.Proofs.RouterSteps

/-!
A caller whose range is asked for page by page. It waits under one number at a time, and under which
one it is known by, `OnlyEntry`. What a router handles for others leaves it waiting as it was and
gives it no answer, `Router.spares_handle`; a page that says what remains makes it wait under a
fresh number, `Router.respond_more`, and the last page is given to it with all items before it,
`Router.respond_last`.
-/

namespace ReplicaRing

/-! ## Outputs -/

namespace Router

/-- The operation that an output submits. -/
def Output.submitted? : Output → Option Operation
  | .submit op => some op
  | .send _ | .answer _ _ | .report _ => none

/-- The answer that an output gives, and where it goes. -/
def Output.given? : Output → Option (ReplyTo × Answer)
  | .answer ticket a => some (.caller ticket, a)
  | .send ⟨_, dst, .reply a⟩ => some (.remote dst, a)
  | .send _ | .submit _ | .report _ => none

/-- The operations that some outputs submit. -/
def submittedIn (out : List Output) : List Operation := out.filterMap Output.submitted?

/-- The answers that some outputs give. -/
def givenIn (out : List Output) : List (ReplyTo × Answer) := out.filterMap Output.given?

@[simp] lemma submittedIn_deliver (r : Router) (reply : ReplyTo) (a : Answer) :
    submittedIn [r.deliver reply a] = [] := by
  cases reply with
  | caller ticket => rfl
  | remote n => rfl

@[simp] lemma givenIn_deliver (r : Router) (reply : ReplyTo) (a : Answer) :
    givenIn [r.deliver reply a] = [(reply, a)] := by
  cases reply with
  | caller ticket => rfl
  | remote n => rfl

end Router

/-! ## One entry for a caller -/

/-- The entry of a caller among those that wait: the only one with its number, or none. -/
def OnlyEntry (pending : SortedMap OperationId PendingOperation) (q : OperationId)
    (entry : Option (OperationId × PendingOperation)) : Prop :=
  ∀ n p, (pending.get? n = some p ∧ p.origin = q) ↔ entry = some (n, p)

/-- Where nobody waits, a caller has no entry. -/
lemma onlyEntry_empty (q : OperationId) : OnlyEntry ∅ q none :=
  fun n p => ⟨fun h => (by cases h.1), fun h => (by cases h)⟩

namespace OnlyEntry

variable {pending : SortedMap OperationId PendingOperation} {q : OperationId}
  {entry : Option (OperationId × PendingOperation)}

lemma get? {n : OperationId} {p : PendingOperation} (h : OnlyEntry pending q (some (n, p))) :
    pending.get? n = some p := ((h n p).2 rfl).1

lemma origin {n : OperationId} {p : PendingOperation} (h : OnlyEntry pending q (some (n, p))) :
    p.origin = q := ((h n p).2 rfl).2

/-- An entry of another caller has another origin. -/
lemma origin_ne (h : OnlyEntry pending q entry) {n : OperationId} {p : PendingOperation}
    (hget : pending.get? n = some p) (hother : ∀ p', entry ≠ some (n, p')) : p.origin ≠ q :=
  fun horigin => hother p ((h n p).1 ⟨hget, horigin⟩)

/-- A caller that comes or goes on under another number leaves the entry alone. -/
lemma insert (h : OnlyEntry pending q entry) {n : OperationId} {p : PendingOperation}
    (horigin : p.origin ≠ q) (hother : ∀ p', entry ≠ some (n, p')) :
    OnlyEntry (pending.insert n p) q entry := by
  intro m p'
  rw [SortedMap.get?_insert, ← h m p']
  by_cases hm : m = n
  · subst hm
    rw [if_pos rfl]
    constructor
    · rintro ⟨heq, hq⟩
      exact absurd (Option.some.inj heq ▸ hq) horigin
    · intro hentry
      exact absurd ((h m p').1 hentry) (hother p')
  · rw [if_neg hm]

lemma erase (h : OnlyEntry pending q entry) {n : OperationId}
    (hother : ∀ p', entry ≠ some (n, p')) : OnlyEntry (pending.erase n) q entry := by
  intro m p'
  rw [SortedMap.get?_erase, ← h m p']
  by_cases hm : m = n
  · subst hm
    rw [if_pos rfl]
    constructor
    · rintro ⟨heq, -⟩
      cases heq
    · intro hentry
      exact absurd ((h m p').1 hentry) (hother p')
  · rw [if_neg hm]

lemma filter (h : OnlyEntry pending q entry) {keep : OperationId → PendingOperation → Bool}
    (hkeep : ∀ n p, entry = some (n, p) → keep n p = true) :
    OnlyEntry (pending.filter keep) q entry := by
  intro m p'
  rw [SortedMap.get?_filter, Option.filter_eq_some_iff, ← h m p']
  constructor
  · rintro ⟨⟨hget, -⟩, hq⟩
    exact ⟨hget, hq⟩
  · rintro ⟨hget, hq⟩
    exact ⟨⟨hget, hkeep m p' ((h m p').1 ⟨hget, hq⟩)⟩, hq⟩

/-- The entry itself is taken away. -/
lemma erase_self {n : OperationId} {p : PendingOperation}
    (h : OnlyEntry pending q (some (n, p))) : OnlyEntry (pending.erase n) q none := by
  intro m p'
  rw [SortedMap.get?_erase]
  by_cases hm : m = n
  · simp [hm]
  · rw [if_neg hm, h m p']
    simp [Ne.symm hm]

/-- Where a caller has no entry, it gets one. -/
lemma insert_self (h : OnlyEntry pending q none) (n : OperationId) {p : PendingOperation}
    (horigin : p.origin = q) : OnlyEntry (pending.insert n p) q (some (n, p)) := by
  intro m p'
  rw [SortedMap.get?_insert]
  by_cases hm : m = n
  · subst hm
    rw [if_pos rfl]
    constructor
    · rintro ⟨heq, -⟩
      rw [Option.some.inj heq]
    · intro heq
      obtain ⟨-, rfl⟩ := Prod.mk.inj (Option.some.inj heq)
      exact ⟨rfl, horigin⟩
  · rw [if_neg hm, h m p']
    simp [Ne.symm hm]

end OnlyEntry

namespace Router

variable {r : Router} {q : OperationId} {entry : Option (OperationId × PendingOperation)}

/-! ## What is handled for others -/

/-- A caller waits as before, is not answered, and nothing is submitted under its number. -/
structure Spares (q : OperationId) (entry : Option (OperationId × PendingOperation))
    (result : Router × List Output) : Prop where
  waits : OnlyEntry result.1.pending q entry
  given : ∀ g ∈ givenIn result.2, g.2.id ≠ q
  submitted : ∀ op ∈ submittedIn result.2, ∀ p, entry ≠ some (op.id, p)

/-- What changes no entry and says nothing. -/
lemma Spares.silent (h : OnlyEntry r.pending q entry) : Spares q entry (r, []) :=
  ⟨h, fun g hg => (by cases hg), fun op hop => (by cases hop)⟩

/-- An answer to somebody else. -/
lemma Spares.deliver {r' : Router} (h : OnlyEntry r'.pending q entry) (r : Router)
    (reply : ReplyTo) {a : Answer} (ha : a.id ≠ q) :
    Spares q entry (r', [r.deliver reply a]) := by
  refine ⟨h, ?_, ?_⟩
  · rw [givenIn_deliver]
    intro g hg
    rw [List.mem_singleton.1 hg]
    exact ha
  · rw [submittedIn_deliver]
    exact fun op hop => (by cases hop)

lemma Spares.refuse {r' : Router} (h : OnlyEntry r'.pending q entry) (r : Router)
    (reply : ReplyTo) {id : OperationId} (hid : id ≠ q) (reason : String) :
    Spares q entry (r', [r.refuse reply id reason]) :=
  .deliver h r reply (a := .unchanged id (.unavailable reason)) hid

lemma spares_request (h : OnlyEntry r.pending q entry) {op : Operation} (hop : op.id ≠ q)
    (reply : ReplyTo) : Spares q entry (r.request op reply) := by
  have houtcome := r.requested op reply
  generalize r.request op reply = result at houtcome ⊢
  -- a number that nobody waits for is not that of the entry
  have hother : r.pending.contains op.id = false → ∀ p, entry ≠ some (op.id, p) := by
    rintro hnew p heq
    unfold SortedMap.contains at hnew
    rw [((h op.id p).2 heq).1] at hnew
    cases hnew
  have hwaits : r.pending.contains op.id = false → ∀ p : PendingOperation, p.origin = op.id →
      OnlyEntry (r.pending.insert op.id p) q entry := by
    intro hnew p horigin
    exact h.insert (by rwa [horigin]) (hother hnew)
  cases houtcome with
  | dropped _ => exact .silent h
  | refused reason _ =>
    have hsame : OnlyEntry ({ r with stats := r.stats.recordOperation } : Router).pending q
        entry := h
    exact .refuse hsame r reply hop reason
  | submitted paginate hnew =>
    refine ⟨hwaits hnew _ rfl, fun g hg => (by cases hg), fun op' hop' => ?_⟩
    rw [List.mem_singleton.1 hop']
    exact hother hnew
  | forwarded peer draws hnew _ =>
    exact ⟨hwaits hnew _ rfl, fun g hg => (by cases hg), fun op' hop' => (by cases hop')⟩

lemma spares_respond (h : OnlyEntry r.pending q entry) {a : Answer}
    (ha : ∀ p, entry ≠ some (a.id, p))
    (hdrawn : ∀ old new, r.renewedBy a = some (old, new) → ∀ p, entry ≠ some (new, p)) :
    Spares q entry (r.respond a) := by
  have houtcome := r.responded a
  generalize r.respond a = result at houtcome ⊢
  cases houtcome with
  | unknown _ => exact .silent h
  | @continued p items rest hp hresponse hpaginate =>
    -- the range goes on under a number that was drawn
    have hnew : ∀ p', entry ≠ some (r.ids.next.1, p') :=
      hdrawn a.id _ (by simp [renewedBy, hp, hresponse, hpaginate])
    have horigin : p.origin ≠ q := h.origin_ne hp ha
    refine ⟨(h.erase ha).insert horigin hnew, fun g hg => (by cases hg), fun op hop => ?_⟩
    rw [List.mem_singleton.1 hop]
    exact hnew
  | answered response hp _ => exact .deliver (h.erase ha) r _ (h.origin_ne hp ha)

lemma spares_forwardTimeoutFired (h : OnlyEntry r.pending q entry)
    (hlocal : ∀ n p, entry = some (n, p) → p.forwardedTo = none) (id : OperationId) :
    Spares q entry (r.forwardTimeoutFired id) := by
  have houtcome := r.timedOut id
  generalize r.forwardTimeoutFired id = result at houtcome ⊢
  cases houtcome with
  | nothing _ => exact .silent h
  | @refused p peer hp hpeer =>
    have hother : ∀ p', entry ≠ some (id, p') := by
      intro p' heq
      have hget := ((h id p').2 heq).1
      rw [hp] at hget
      obtain rfl := Option.some.inj hget
      rw [hlocal id p heq] at hpeer
      cases hpeer
    exact .refuse (h.erase hother) r _ (h.origin_ne hp hother) _

lemma spares_suspect (h : OnlyEntry r.pending q entry)
    (hlocal : ∀ n p, entry = some (n, p) → p.forwardedTo = none) (peer : NodeId) :
    Spares q entry (r.suspect peer) := by
  have hout : ∀ o ∈ (r.suspect peer).2, ∃ n p, r.pending.get? n = some p ∧
      p.forwardedTo = some peer ∧
      o = r.refuse p.reply p.origin (peer.render ++ " is suspected") := by
    intro o ho
    obtain ⟨p, hp, rfl⟩ := List.mem_map.1 ho
    obtain ⟨⟨n, _⟩, hentry, rfl⟩ := List.mem_map.1 hp
    obtain ⟨hmem, hpeer⟩ := List.mem_filter.1 hentry
    exact ⟨n, _, SortedMap.get?_eq_some_iff.2 hmem, by simpa using hpeer, rfl⟩
  refine ⟨h.filter fun n p heq => by simp [hlocal n p heq], fun g hg => ?_, fun op hop => ?_⟩
  · obtain ⟨o, ho, hgiven⟩ := List.mem_filterMap.1 hg
    obtain ⟨n, p, hget, hpeer, rfl⟩ := hout o ho
    have hother : ∀ p', entry ≠ some (n, p') := fun p' heq => by
      have hget' := ((h n p').2 heq).1
      rw [hget] at hget'
      obtain rfl := Option.some.inj hget'
      rw [hlocal n p heq] at hpeer
      cases hpeer
    have hin : g ∈ givenIn [r.refuse p.reply p.origin (peer.render ++ " is suspected")] :=
      List.mem_filterMap.2 ⟨_, List.mem_singleton_self _, hgiven⟩
    unfold refuse at hin
    rw [givenIn_deliver] at hin
    rw [List.mem_singleton.1 hin]
    exact h.origin_ne hget hother
  · obtain ⟨o, ho, hsubmitted⟩ := List.mem_filterMap.1 hop
    obtain ⟨n, p, -, -, rfl⟩ := hout o ho
    have hin : op ∈ submittedIn [r.refuse p.reply p.origin (peer.render ++ " is suspected")] :=
      List.mem_filterMap.2 ⟨_, List.mem_singleton_self _, hsubmitted⟩
    unfold refuse at hin
    rw [submittedIn_deliver] at hin
    cases hin

/-- A caller that waits for this replica is spared by every input that does not want an operation
run under its own number, brings no answer under the number that it waits under, and draws another
one if any. -/
theorem spares_handle (h : OnlyEntry r.pending q entry)
    (hlocal : ∀ n p, entry = some (n, p) → p.forwardedTo = none) (input : Input)
    (hwanted : ∀ op reply, input.wanted? = some (op, reply) → op.id ≠ q)
    (hanswer : ∀ a, input.answer? = some a → ∀ p, entry ≠ some (a.id, p))
    (hdrawn : ∀ old new, r.renews? input = some (old, new) → ∀ p, entry ≠ some (new, p)) :
    Spares q entry (r.handle input) := by
  cases input with
  | request op reply => exact spares_request h (hwanted op reply rfl) reply
  | message m =>
    cases m with
    | forward op replyTo => exact spares_request h (hwanted op (.remote replyTo) rfl) _
    | reply a => exact spares_respond h (hanswer a rfl) hdrawn
    | _ => exact .silent h
  | liveness report =>
    cases report with
    | suspect peer request => exact spares_suspect h hlocal peer
    | restore peer request => exact .silent h
  | engine event =>
    cases event with
    | viewInstalled view responsibility state => exact .silent h
    | synced v => exact .silent h
    | response a =>
      exact spares_respond (r := { r with stats := r.stats.recordDelta a.delta }) h
        (hanswer a rfl) hdrawn
  | statsTick => exact ⟨h, fun g hg => (by cases hg), fun op hop => (by cases hop)⟩
  | forwardTimeout id => exact spares_forwardTimeoutFired h hlocal id

/-! ## The caller's own pages -/

/-- A router that serves a range submits a query for it, and the caller waits. -/
lemma request_range (h : OnlyEntry r.pending q none) (hactive : r.state = .active)
    {range : KeyRange} (hinside : r.responsibility.any (·.covers range) = true)
    (hnew : r.pending.get? q = none) (reply : ReplyTo) :
    let result := r.request ⟨q, .rangeQuery range none⟩ reply
    OnlyEntry result.1.pending q (some (q, ⟨q, reply, true, [], none⟩)) ∧
      submittedIn result.2 = [⟨q, .rangeQuery range none⟩] ∧ givenIn result.2 = [] := by
  have hcontains : r.pending.contains q = false := by
    unfold SortedMap.contains
    rw [hnew]
    rfl
  have hserves : ({ r with stats := r.stats.recordOperation } : Router).isInside
      ⟨q, .rangeQuery range none⟩ = true := hinside
  unfold request
  simp only
  rw [if_neg (by rw [hcontains]; simp), if_pos hserves]
  simp only [hactive]
  exact ⟨h.insert_self q rfl, rfl, rfl⟩

variable {n : OperationId} {p : PendingOperation}

/-- A page that says what remains is kept, and the rest is asked for under a fresh number. -/
theorem respond_more (h : OnlyEntry r.pending q (some (n, p))) (hpaginate : p.paginate = true)
    (items : List (Key × Bytes)) (rest : KeyRange) (delta : SizeDelta) :
    let result := r.respond ⟨n, .range items (some rest), delta⟩
    OnlyEntry result.1.pending q
        (some (r.ids.next.1, { p with collected := p.collected ++ items })) ∧
      submittedIn result.2 = [⟨r.ids.next.1, .rangeQuery rest none⟩] ∧ givenIn result.2 = [] := by
  unfold respond
  simp only [h.get?, hpaginate]
  exact ⟨h.erase_self.insert_self _ h.origin, rfl, rfl⟩

/-- The number that the rest is asked for under was drawn for it. -/
lemma renewedBy_more (h : OnlyEntry r.pending q (some (n, p))) (hpaginate : p.paginate = true)
    (items : List (Key × Bytes)) (rest : KeyRange) (delta : SizeDelta) :
    r.renewedBy ⟨n, .range items (some rest), delta⟩ = some (n, r.ids.next.1) := by
  unfold renewedBy
  simp [h.get?, hpaginate]

/-- The last page is given to the caller, behind all items that were kept. -/
theorem respond_last (h : OnlyEntry r.pending q (some (n, p))) (items : List (Key × Bytes))
    (delta : SizeDelta) :
    let result := r.respond ⟨n, .range items none, delta⟩
    OnlyEntry result.1.pending q none ∧ submittedIn result.2 = [] ∧
      givenIn result.2 = [(p.reply, ⟨q, .range (p.collected ++ items) none, delta⟩)] := by
  unfold respond
  simp only [h.get?, h.origin]
  exact ⟨h.erase_self, submittedIn_deliver _ _ _, givenIn_deliver _ _ _⟩

end Router

end ReplicaRing
