import Mathlib.Tactic.Common
import ReplicaRing.Routing.Router

/-!
What one input does to the callers that wait at a router. What may come of a request, of an answer
and of a timeout is said once, by `Router.requested`, `Router.responded` and `Router.timedOut`;
nothing else about them has to be read off the code of the router again. A caller is accepted unless
its number is waited for already; it is answered at once or comes to wait; and while it waits it is
answered, goes on under another number, or is given up. `Router.changes_handle` says so for every
input. Where a live member is picked it may be any of them, `Router.exists_draws_iff`.
-/

namespace ReplicaRing

/-- A caller, by the number that it knows its operation by and the place its answer goes to. -/
abbrev Call := OperationId × ReplyTo

def PendingOperation.call (p : PendingOperation) : Call := (p.origin, p.reply)

namespace Router

/-! ## Inputs -/

inductive Input where
  | request (operation : Operation) (reply : ReplyTo)
  /-- A frame of the client lane. -/
  | message (message : Message)
  | liveness (report : LivenessReport)
  | engine (event : EngineEvent)
  | statsTick
  /-- The forward timeout of an operation. -/
  | forwardTimeout (id : OperationId)

def handle (r : Router) : Input → Router × List Output
  | .request op reply => r.request op reply
  | .message m => r.message m
  | .liveness report => r.liveness report
  | .engine event => r.engineEvent event
  | .statsTick => r.statsTick r.timers.now
  | .forwardTimeout id => r.forwardTimeoutFired id

/-- The operation that an input wants run, and where its answer goes. -/
def Input.wanted? : Input → Option (Operation × ReplyTo)
  | .request op reply => some (op, reply)
  | .message (.forward op replyTo) => some (op, .remote replyTo)
  | _ => none

/-- The answer that an input brings. -/
def Input.answer? : Input → Option Answer
  | .message (.reply a) | .engine (.response a) => some a
  | _ => none

/-- The caller that an input brings, unless its number is waited for already. -/
def accepts? (r : Router) (input : Input) : Option Call :=
  (input.wanted?.map fun w => (w.1.id, w.2)).filter fun c => !r.pending.contains c.1

/-- The number that the range of a caller goes on under with an answer, and the one it had. -/
def renewedBy (r : Router) (a : Answer) : Option (OperationId × OperationId) := do
  let p ← r.pending.get? a.id
  match a.response with
  | .range _ (some _) => if p.paginate then some (a.id, r.ids.next.1) else none
  | _ => none

def renews? (r : Router) (input : Input) : Option (OperationId × OperationId) :=
  input.answer?.bind r.renewedBy

/-- The caller that an output answers. -/
def Output.answered? : Output → Option Call
  | .answer ticket a => some (a.id, .caller ticket)
  | .send ⟨_, dst, .reply a⟩ => some (a.id, .remote dst)
  | .send _ | .submit _ | .report _ => none

/-- The callers that some outputs answer. -/
def answeredIn (out : List Output) : List Call := out.filterMap Output.answered?

@[simp] lemma answeredIn_deliver (r : Router) (reply : ReplyTo) (a : Answer) :
    answeredIn [r.deliver reply a] = [(a.id, reply)] := by
  cases reply with
  | caller ticket => rfl
  | remote n => rfl

/-! ## Live members -/

section

variable {r : Router} {n : NodeId}

lemma mem_liveMembers (h : r.liveMember? = some n) : n ∈ r.liveMembers := List.mem_of_getElem? h

/-- One is picked unless there are none. -/
theorem liveMember?_eq_none_iff : r.liveMember? = none ↔ r.liveMembers = [] := by
  unfold liveMember?
  rw [List.getElem?_eq_none_iff, ← List.length_eq_zero_iff]
  constructor
  · intro hle
    by_contra hne
    exact absurd (Nat.mod_lt (r.draws 0) (Nat.pos_of_ne_zero hne)) (Nat.not_lt.2 hle)
  · intro hzero
    rw [hzero]
    exact Nat.zero_le _

/-- Chance may pick any of them, and no other node. -/
theorem exists_draws_iff :
    (∃ draws, ({ r with draws } : Router).liveMember? = some n) ↔ n ∈ r.liveMembers := by
  constructor
  · rintro ⟨draws, hpick⟩
    exact mem_liveMembers (r := { r with draws }) hpick
  · intro hlive
    obtain ⟨i, hi⟩ := List.mem_iff_getElem?.1 hlive
    have hlt : i < r.liveMembers.length := (List.getElem?_eq_some_iff.1 hi).1
    refine ⟨fun _ => i, ?_⟩
    show r.liveMembers[i % r.liveMembers.length]? = some n
    rw [Nat.mod_eq_of_lt hlt, hi]

end

/-! ## Outcomes -/

/-- What may come of a request. A router that knows its number drops it; one that came from another
node it passes on to its owner only, and one of a caller of its own perhaps to a live member. -/
inductive Requested (r : Router) (op : Operation) (reply : ReplyTo) :
    Router × List Output → Prop
  | dropped : r.pending.contains op.id = true →
      Requested r op reply ({ r with stats := r.stats.recordOperation }, [])
  | refused (reason) : r.pending.contains op.id = false →
      Requested r op reply
        ({ r with stats := r.stats.recordOperation }, [r.refuse reply op.id reason])
  | submitted (paginate) : r.pending.contains op.id = false →
      Requested r op reply
        ({ r with
            stats := r.stats.recordOperation
            pending := r.pending.insert op.id ⟨op.id, reply, paginate, [], none⟩ }, [.submit op])
  | forwarded (peer draws) : r.pending.contains op.id = false →
      (r.placementOwner op = .ok (some peer) ∧ peer ≠ r.self ∨
        (∃ ticket, reply = .caller ticket) ∧ peer ∈ r.liveMembers) →
      Requested r op reply
        (forward { r with stats := r.stats.recordOperation, draws } peer op reply)

lemma requested (r : Router) (op : Operation) (reply : ReplyTo) :
    Requested r op reply (r.request op reply) := by
  unfold request
  simp only
  by_cases hwaits : r.pending.contains op.id = true
  · rw [if_pos hwaits]
    exact .dropped hwaits
  · rw [if_neg hwaits]
    rw [Bool.not_eq_true] at hwaits
    split
    · split
      · exact .submitted _ hwaits
      · exact .refused _ hwaits
      · split
        · rename_i peer hpeer
          exact .forwarded peer _ hwaits (.inr ⟨⟨_, rfl⟩, mem_liveMembers hpeer⟩)
        · exact .refused _ hwaits
    · split
      · exact .refused _ hwaits
      · exact .refused _ hwaits
      · rename_i owner howner
        split
        · exact .refused _ hwaits
        · rename_i hother
          exact .forwarded owner _ hwaits (.inl ⟨howner, hother⟩)

/-- What may come of an answer. A range of which more is to come goes on under a fresh number; any
other answer is brought to its caller. -/
inductive Responded (r : Router) (a : Answer) : Router × List Output → Prop
  | unknown : r.pending.get? a.id = none → Responded r a (r, [])
  | continued {p items rest} : r.pending.get? a.id = some p →
      a.response = .range items (some rest) → p.paginate = true →
      Responded r a
        ({ r with
            ids := r.ids.next.2
            pending := (r.pending.erase a.id).insert r.ids.next.1
              { p with collected := p.collected ++ items }
            timers := if p.forwardedTo.isSome then r.timers.cancel a.id else r.timers },
          [.submit ⟨r.ids.next.1, .rangeQuery rest none⟩])
  | answered {p} (response) : r.pending.get? a.id = some p → r.renewedBy a = none →
      Responded r a
        ({ r with
            pending := r.pending.erase a.id
            timers := if p.forwardedTo.isSome then r.timers.cancel a.id else r.timers },
          [r.deliver p.reply ⟨p.origin, response, a.delta⟩])

lemma responded (r : Router) (a : Answer) : Responded r a (r.respond a) := by
  unfold respond
  cases hp : r.pending.get? a.id with
  | none => exact .unknown hp
  | some p =>
    cases hresponse : a.response with
    | range items remaining =>
      cases remaining with
      | none => exact .answered _ hp (by simp [renewedBy, hp, hresponse])
      | some rest =>
        cases hpaginate : p.paginate with
        | false =>
          simp only [hpaginate]
          exact .answered _ hp (by simp [renewedBy, hp, hresponse, hpaginate])
        | true =>
          -- more is to come, and it is asked for under a fresh number
          have hcontinued := Responded.continued hp hresponse hpaginate
          rw [hpaginate] at hcontinued
          simp only [hpaginate]
          exact hcontinued
    | _ => exact .answered _ hp (by simp [renewedBy, hp, hresponse])

/-- What may come of a forward timeout: a caller whose operation was forwarded is refused. -/
inductive TimedOut (r : Router) (id : OperationId) : Router × List Output → Prop
  | nothing : (∀ p, r.pending.get? id = some p → p.forwardedTo = none) → TimedOut r id (r, [])
  | refused {p peer} : r.pending.get? id = some p → p.forwardedTo = some peer →
      TimedOut r id ({ r with pending := r.pending.erase id },
        [r.refuse p.reply p.origin ("no answer from " ++ peer.render)])

lemma timedOut (r : Router) (id : OperationId) : TimedOut r id (r.forwardTimeoutFired id) := by
  unfold forwardTimeoutFired
  cases hp : r.pending.get? id with
  | none => exact .nothing fun p h => by simp [hp] at h
  | some p =>
    simp only
    cases hpeer : p.forwardedTo with
    | none =>
      apply TimedOut.nothing
      intro p' h
      rw [hp] at h
      cases h
      exact hpeer
    | some peer => exact .refused hp hpeer

/-! ## What may happen to the callers -/

/-- What may happen to the callers that wait and to the forward timeouts: the caller that is
accepted, those that are answered, and the number that a range goes on under. -/
inductive Change (timeout : Duration) (pending : SortedMap OperationId PendingOperation)
    (timers : Timers OperationId OperationId) :
    Option Call → List Call → Option (OperationId × OperationId) →
      SortedMap OperationId PendingOperation → Timers OperationId OperationId → Prop
  | quiet : Change timeout pending timers none [] none pending timers
  | refused (c : Call) : Change timeout pending timers (some c) [c] none pending timers
  | submitted (id reply paginate) : pending.contains id = false →
      Change timeout pending timers (some (id, reply)) [] none
        (pending.insert id ⟨id, reply, paginate, [], none⟩) timers
  | forwarded (id reply peer) : pending.contains id = false →
      Change timeout pending timers (some (id, reply)) [] none
        (pending.insert id ⟨id, reply, false, [], some peer⟩) (timers.once id timeout id)
  | answered (id p) : pending.get? id = some p →
      Change timeout pending timers none [p.call] none (pending.erase id)
        (if p.forwardedTo.isSome then timers.cancel id else timers)
  | continued (id p next collected) : pending.get? id = some p → p.paginate = true →
      Change timeout pending timers none [] (some (id, next))
        ((pending.erase id).insert next { p with collected })
        (if p.forwardedTo.isSome then timers.cancel id else timers)
  | givenUp (id p) : pending.get? id = some p → p.forwardedTo.isSome = true →
      Change timeout pending timers none [p.call] none (pending.erase id) timers
  | suspected (n : NodeId) :
      Change timeout pending timers none
        ((pending.filter fun _ p => p.forwardedTo == some n).values.map PendingOperation.call)
        none (pending.filter fun _ p => p.forwardedTo != some n)
        ((pending.filter fun _ p => p.forwardedTo == some n).keys.foldl Timers.cancel timers)

/-- A router changes as far as its callers are concerned. -/
structure Changes (r : Router) (accepted : Option Call)
    (renewed : Option (OperationId × OperationId)) (result : Router × List Output) : Prop where
  forwardTimeout : result.1.forwardTimeout = r.forwardTimeout
  change : Change r.forwardTimeout r.pending r.timers accepted (answeredIn result.2) renewed
    result.1.pending result.1.timers

section

variable {r : Router}

lemma changes_request (op : Operation) (reply : ReplyTo) :
    Changes r (if r.pending.contains op.id then none else some (op.id, reply)) none
      (r.request op reply) := by
  have houtcome := r.requested op reply
  generalize r.request op reply = result at houtcome ⊢
  cases houtcome with
  | dropped hwaits =>
    rw [if_pos hwaits]
    exact ⟨rfl, .quiet⟩
  | refused reason hnew =>
    rw [hnew]
    refine ⟨rfl, ?_⟩
    show Change _ _ _ _ (answeredIn [r.deliver _ _]) _ _ _
    rw [answeredIn_deliver]
    exact .refused (op.id, reply)
  | submitted paginate hnew =>
    rw [hnew]
    exact ⟨rfl, .submitted op.id reply paginate hnew⟩
  | forwarded peer draws hnew _ =>
    rw [hnew]
    exact ⟨rfl, .forwarded op.id reply peer hnew⟩

lemma changes_respond (a : Answer) : Changes r none (r.renewedBy a) (r.respond a) := by
  have houtcome := r.responded a
  generalize r.respond a = result at houtcome ⊢
  cases houtcome with
  | unknown hp =>
    unfold renewedBy
    rw [hp]
    exact ⟨rfl, .quiet⟩
  | @continued p items rest hp hresponse hpaginate =>
    have hrenewed : r.renewedBy a = some (a.id, r.ids.next.1) := by
      unfold renewedBy
      simp [hp, hresponse, hpaginate]
    rw [hrenewed]
    exact ⟨rfl, .continued a.id p r.ids.next.1 (p.collected ++ items) hp hpaginate⟩
  | @answered p response hp hnone =>
    rw [hnone]
    refine ⟨rfl, ?_⟩
    show Change _ _ _ _ (answeredIn [r.deliver _ _]) _ _ _
    rw [answeredIn_deliver]
    exact .answered a.id p hp

lemma changes_forwardTimeoutFired (id : OperationId) :
    Changes r none none (r.forwardTimeoutFired id) := by
  have houtcome := r.timedOut id
  generalize r.forwardTimeoutFired id = result at houtcome ⊢
  cases houtcome with
  | nothing _ => exact ⟨rfl, .quiet⟩
  | @refused p peer hp hpeer =>
    refine ⟨rfl, ?_⟩
    show Change _ _ _ _ (answeredIn [r.deliver _ _]) _ _ _
    rw [answeredIn_deliver]
    exact .givenUp id p hp (by rw [hpeer]; rfl)

lemma changes_suspect (n : NodeId) : Changes r none none (r.suspect n) := by
  refine ⟨rfl, ?_⟩
  have hanswers : ∀ waiting : List PendingOperation,
      answeredIn (waiting.map fun p =>
        r.refuse p.reply p.origin (n.render ++ " is suspected")) =
        waiting.map PendingOperation.call := by
    intro waiting
    induction waiting with
    | nil => rfl
    | cons p waiting ih =>
      have hone := answeredIn_deliver r p.reply
        (.unchanged p.origin (.unavailable (n.render ++ " is suspected")))
      unfold answeredIn at hone ih ⊢
      rw [List.map_cons, List.map_cons, ← List.singleton_append, List.filterMap_append, ih]
      show List.filterMap _ [r.deliver _ _] ++ _ = _
      rw [hone]
      rfl
  show Change _ _ _ _ (answeredIn (List.map _ _)) _ _ _
  rw [hanswers]
  exact .suspected n

/-- Whatever a router handles, its callers see one of the changes. -/
theorem changes_handle (input : Input) :
    Changes r (r.accepts? input) (r.renews? input) (r.handle input) := by
  have hwanted : ∀ op reply, r.accepts? (.request op reply) =
      if r.pending.contains op.id then none else some (op.id, reply) := by
    intro op reply
    unfold accepts? Input.wanted?
    cases h : r.pending.contains op.id with
    | true => simp [Option.filter, h]
    | false => simp [Option.filter, h]
  cases input with
  | request op reply =>
    rw [hwanted]
    exact changes_request op reply
  | message m =>
    cases m with
    | forward op replyTo =>
      have hsame : r.accepts? (.message (.forward op replyTo)) =
          r.accepts? (.request op (.remote replyTo)) := rfl
      rw [hsame, hwanted]
      exact changes_request op (.remote replyTo)
    | reply a => exact changes_respond a
    | _ => exact ⟨rfl, .quiet⟩
  | liveness report =>
    cases report with
    | suspect n _ => exact changes_suspect n
    | restore n _ => exact ⟨rfl, .quiet⟩
  | engine event =>
    cases event with
    | viewInstalled view responsibility state => exact ⟨rfl, .quiet⟩
    | synced _ => exact ⟨rfl, .quiet⟩
    | response a =>
      obtain ⟨htimeout, hchange⟩ :=
        changes_respond (r := { r with stats := r.stats.recordDelta a.delta }) a
      exact ⟨htimeout, hchange⟩
  | statsTick => exact ⟨rfl, .quiet⟩
  | forwardTimeout id => exact changes_forwardTimeoutFired id

end

end Router

end ReplicaRing
