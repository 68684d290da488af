import Mathlib.Data.List.Perm.Basic
import Mathlib.Logic.Function.Basic
import ReplicaRing.Proofs.RouterSteps

/-!
How far an operation is forwarded. What a peer forwarded a router sends on to the owner that the
placement names, or to nobody, and the owner sends it on to nobody, `Router.forwards_handle`. So a
forward that is on its way to another node than the owner can lead to one more, and one to the
owner to none. In a fleet of routers that share a placement and agree on nothing else, a request is
forwarded twice at most, `Fleet.forwards_le_two`.
-/

namespace ReplicaRing

/-! ## Forwards -/

/-- An operation on its way to another node. -/
abbrev Hop := NodeId × Operation

def Envelope.hop? (e : Envelope) : Option Hop :=
  match e.message with
  | .forward op _ => some (e.dst, op)
  | _ => none

/-- The operations that some envelopes forward, and where to. -/
def hopsIn (envelopes : List Envelope) : List Hop := envelopes.filterMap Envelope.hop?

/-- Some envelopes' forwards of one operation. -/
def forwardsOf (id : OperationId) (envelopes : List Envelope) : Nat :=
  (hopsIn envelopes).countP fun h => h.2.id = id

/-- The owner that a placement names for what an operation touches. -/
def Placement.ownerFor? (p : Placement) : Target → Option NodeId
  | .key k => p.ownerOf? k
  | .range q => (p.ownersOf q).head?
  | .unrouted => none

namespace Router

def Output.sent? : Output → Option Envelope
  | .send e => some e
  | .submit _ | .answer _ _ | .report _ => none

def sentIn (out : List Output) : List Envelope := out.filterMap Output.sent?

/-- What an input makes a router forward: nothing, or the operation that it wants run. One that
came from another node goes to its owner. -/
inductive ForwardsOn (r : Router) (input : Input) : List Hop → Prop
  | nothing : ForwardsOn r input []
  | forwarded {op reply peer} : input.wanted? = some (op, reply) →
      (∀ n, reply = .remote n → r.placement.ownerFor? op.target = some peer ∧ peer ≠ r.self) →
      ForwardsOn r input [(peer, op)]

/-- What a router keeps, and what it forwards. -/
structure Forwarding (r : Router) (input : Input) (result : Router × List Output) : Prop where
  self : result.1.self = r.self
  placement : result.1.placement = r.placement
  forwards : ForwardsOn r input (hopsIn (sentIn result.2))

section

variable {r : Router} {input : Input}

lemma hopsIn_deliver (r : Router) (reply : ReplyTo) (a : Answer) :
    hopsIn (sentIn [r.deliver reply a]) = [] := by
  cases reply with
  | caller ticket => rfl
  | remote n => rfl

lemma placementOwner_eq_ok {op : Operation} {owner : NodeId}
    (h : r.placementOwner op = .ok (some owner)) :
    r.placement.ownerFor? op.target = some owner := by
  unfold placementOwner at h
  split at h
  · cases h
  · cases h
  · rename_i k htarget _
    rw [htarget]
    injection h
  · rename_i q htarget _
    rw [htarget]
    injection h

/-- Telling a caller something forwards nothing. -/
lemma ForwardsOn.deliver (s : Router) (reply : ReplyTo) (a : Answer) :
    ForwardsOn r input (hopsIn (sentIn [s.deliver reply a])) := by
  rw [hopsIn_deliver]
  exact .nothing

lemma forwarding_request {op : Operation} {reply : ReplyTo}
    (hwanted : input.wanted? = some (op, reply)) : Forwarding r input (r.request op reply) := by
  have houtcome := r.requested op reply
  generalize r.request op reply = result at houtcome ⊢
  cases houtcome with
  | dropped hwaits => exact ⟨rfl, rfl, .nothing⟩
  | refused reason hnew => exact ⟨rfl, rfl, .deliver _ _ _⟩
  | submitted paginate hnew => exact ⟨rfl, rfl, .nothing⟩
  | forwarded peer draws hnew howner =>
    refine ⟨rfl, rfl, .forwarded hwanted ?_⟩
    rintro n rfl
    obtain ⟨howner, hother⟩ | ⟨⟨ticket, hcaller⟩, -⟩ := howner
    · exact ⟨placementOwner_eq_ok howner, hother⟩
    · cases hcaller

lemma forwarding_respond (r r' : Router) (hself : r'.self = r.self)
    (hplacement : r'.placement = r.placement) (a : Answer) :
    Forwarding r input (r'.respond a) := by
  have houtcome := r'.responded a
  generalize r'.respond a = result at houtcome ⊢
  cases houtcome with
  | unknown hp => exact ⟨hself, hplacement, .nothing⟩
  | continued hp hresponse hpaginate => exact ⟨hself, hplacement, .nothing⟩
  | answered response hp hnone => exact ⟨hself, hplacement, .deliver _ _ _⟩

lemma forwarding_forwardTimeoutFired (id : OperationId) :
    Forwarding r input (r.forwardTimeoutFired id) := by
  have houtcome := r.timedOut id
  generalize r.forwardTimeoutFired id = result at houtcome ⊢
  cases houtcome with
  | nothing hlocal => exact ⟨rfl, rfl, .nothing⟩
  | refused hp hpeer => exact ⟨rfl, rfl, .deliver _ _ _⟩

lemma forwarding_suspect (n : NodeId) : Forwarding r input (r.suspect n) := by
  refine ⟨rfl, rfl, ?_⟩
  have hnone : ∀ waiting : List PendingOperation, hopsIn (sentIn (waiting.map fun p =>
      r.refuse p.reply p.origin (n.render ++ " is suspected"))) = [] := by
    intro waiting
    induction waiting with
    | nil => rfl
    | cons p waiting ih =>
      have hone := hopsIn_deliver r p.reply
        (.unchanged p.origin (.unavailable (n.render ++ " is suspected")))
      unfold hopsIn sentIn at hone ih ⊢
      rw [List.map_cons, ← List.singleton_append, List.filterMap_append, List.filterMap_append, ih,
        List.append_nil]
      exact hone
  show ForwardsOn r input (hopsIn (sentIn (List.map _ _)))
  rw [hnone]
  exact .nothing

/-- Whatever a router handles, it forwards what is wanted of it or nothing, and what was forwarded
to it only to the owner. -/
theorem forwards_handle (r : Router) (input : Input) : Forwarding r input (r.handle input) := by
  cases input with
  | request op reply => exact forwarding_request rfl
  | message m =>
    cases m with
    | forward op replyTo => exact forwarding_request rfl
    | reply a => exact forwarding_respond r r rfl rfl a
    | _ => exact ⟨rfl, rfl, .nothing⟩
  | liveness report =>
    cases report with
    | suspect n _ => exact forwarding_suspect n
    | restore n _ => exact ⟨rfl, rfl, .nothing⟩
  | engine event =>
    cases event with
    | viewInstalled view responsibility state => exact ⟨rfl, rfl, .nothing⟩
    | synced _ => exact ⟨rfl, rfl, .nothing⟩
    | response a =>
      exact forwarding_respond r { r with stats := r.stats.recordDelta a.delta } rfl rfl a
  | statsTick => exact ⟨rfl, rfl, .nothing⟩
  | forwardTimeout id => exact forwarding_forwardTimeoutFired id

/-- Whether an input comes over the network. -/
def Input.isMessage : Input → Bool
  | .message _ => true
  | .request _ _ | .liveness _ | .engine _ | .statsTick | .forwardTimeout _ => false

end

end Router

/-! ## Routers and what is on its way between them -/

/-- A node's router that goes by a placement. -/
abbrev Post (table : Placement) (n : NodeId) :=
  { r : Router // r.self = n ∧ r.placement = table }

namespace Post

variable {table : Placement} {n : NodeId}

def handle (p : Post table n) (input : Router.Input) : Post table n :=
  ⟨(p.1.handle input).1, (p.1.forwards_handle input).self.trans p.2.1,
    (p.1.forwards_handle input).placement.trans p.2.2⟩

end Post

/-- Routers that share a placement, and the envelopes between them that were not delivered yet. -/
structure Fleet (table : Placement) where
  router? : (n : NodeId) → Option (Post table n)
  transit : List Envelope

namespace Fleet

inductive Event where
  /-- A node's router handles what does not come over the network. -/
  | handles (n : NodeId) (input : Router.Input) (h : input.isMessage = false)
  /-- The envelope at a place comes to the router of its destination, if there is one. -/
  | delivers (i : Nat)
  | loses (i : Nat)
  /-- A node's router thinks otherwise of the replicas and of itself. With the view the live
  member is free that it would pick. -/
  | changes (n : NodeId) (state : RouterState) (view : Option View)
      (responsibility : Option KeyRange) (suspected : SortedSet NodeId)
  /-- Time passes at a node, numbers are drawn there, look-ups fail. -/
  | amid (n : NodeId) (ids : IdSource) (timers : Timers OperationId OperationId)
      (placementFault : Option Fault)

/-- Whether a client or another node asks a router for an operation of a number. -/
def Event.submits (id : OperationId) : Event → Bool
  | .handles _ (.request op _) _ => op.id = id
  | _ => false

variable {table : Placement}

/-- Changes a node's router, if there is one. -/
def alter (f : Fleet table) (n : NodeId) (change : Post table n → Post table n) : Fleet table :=
  { f with router? := Function.update f.router? n ((f.router? n).map change) }

/-- What a node's router sends on an input. -/
def sentOn (f : Fleet table) (n : NodeId) (input : Router.Input) : List Envelope :=
  (f.router? n).elim [] fun p => Router.sentIn (p.1.handle input).2

/-- A node's router handles an input; what it sends is on its way. -/
def hand (f : Fleet table) (n : NodeId) (input : Router.Input) : Fleet table × List Envelope :=
  ({ f.alter n (Post.handle · input) with transit := f.transit ++ f.sentOn n input },
    f.sentOn n input)

/-- The envelope at a place is taken off and handled by the router of its destination. -/
def deliver (f : Fleet table) (i : Nat) : Fleet table × List Envelope :=
  match f.transit[i]? with
  | none => (f, [])
  | some e => { f with transit := f.transit.eraseIdx i }.hand e.dst (.message e.message)

/-- A step of a fleet, and the envelopes that are sent in it. -/
def step (f : Fleet table) : Event → Fleet table × List Envelope
  | .handles n input _ => f.hand n input
  | .delivers i => f.deliver i
  | .loses i => ({ f with transit := f.transit.eraseIdx i }, [])
  | .changes n state view responsibility suspected =>
    (f.alter n fun ⟨r, h⟩ => ⟨{ r with state, view, responsibility, suspected }, h⟩, [])
  | .amid n ids timers placementFault =>
    (f.alter n fun ⟨r, h⟩ => ⟨{ r with ids, timers, placementFault }, h⟩, [])

/-- A run of a fleet, and all envelopes that are sent in it. -/
def run (f : Fleet table) : List Event → Fleet table × List Envelope
  | [] => (f, [])
  | event :: events =>
    let (f, sent) := f.step event
    let (f, more) := f.run events
    (f, sent ++ more)

/-! ## Hops that are left -/

/-- Whether an operation of a number is on its way to another node than its owner. -/
def wanders (table : Placement) (id : OperationId) (h : Hop) : Bool :=
  h.2.id = id && table.ownerFor? h.2.target != some h.1

/-- How many more forwards of an operation can come of some that are on their way. -/
def hopsLeft (table : Placement) (id : OperationId) (envelopes : List Envelope) : Nat :=
  (hopsIn envelopes).countP (wanders table id)

/-- How many forwards of an operation can come of an input to a node's router. -/
def allowance (table : Placement) (id : OperationId) (n : NodeId) (input : Router.Input) : Nat :=
  match input.wanted? with
  | none => 0
  | some (op, .caller _) => if op.id = id then 2 else 0
  | some (op, .remote _) => if wanders table id (n, op) then 1 else 0

lemma hopsIn_append (l l' : List Envelope) : hopsIn (l ++ l') = hopsIn l ++ hopsIn l' :=
  List.filterMap_append

lemma forwardsOf_append (id : OperationId) (l l' : List Envelope) :
    forwardsOf id (l ++ l') = forwardsOf id l + forwardsOf id l' := by
  rw [forwardsOf, hopsIn_append, List.countP_append]
  rfl

lemma hopsLeft_append (table : Placement) (id : OperationId) (l l' : List Envelope) :
    hopsLeft table id (l ++ l') = hopsLeft table id l + hopsLeft table id l' := by
  rw [hopsLeft, hopsIn_append, List.countP_append]
  rfl

lemma hopsLeft_le (table : Placement) (id : OperationId) (l : List Envelope) :
    hopsLeft table id l ≤ forwardsOf id l := by
  refine List.countP_mono_left fun h _ hw => ?_
  unfold wanders at hw
  exact (Bool.and_eq_true_iff.1 hw).1

/-- What was on its way and is taken off takes the hops along that were left to it. -/
lemma hopsLeft_eraseIdx (table : Placement) (id : OperationId) {l : List Envelope} {i : Nat}
    {e : Envelope} (h : l[i]? = some e) :
    hopsLeft table id l = hopsLeft table id [e] + hopsLeft table id (l.eraseIdx i) := by
  obtain ⟨hi, rfl⟩ := List.getElem?_eq_some_iff.1 h
  rw [← hopsLeft_append]
  exact (((List.getElem_cons_eraseIdx_perm hi).filterMap _).countP_eq _).symm

lemma hopsLeft_eraseIdx_le (table : Placement) (id : OperationId) (l : List Envelope) (i : Nat) :
    hopsLeft table id (l.eraseIdx i) ≤ hopsLeft table id l :=
  ((List.eraseIdx_sublist l i).filterMap _).countP_le

/-- A router pays for what it forwards, and for the hops that are left to that, out of the
allowance of its input. -/
lemma le_allowance {r : Router} {input : Router.Input} {hops : List Hop}
    (h : Router.ForwardsOn r input hops) (id : OperationId) :
    hops.countP (fun h => h.2.id = id) + hops.countP (wanders r.placement id) ≤
      allowance r.placement id r.self input := by
  cases h with
  | nothing => exact Nat.zero_le _
  | @forwarded op reply peer hwanted howner =>
    unfold allowance
    rw [hwanted]
    by_cases hid : op.id = id
    · cases reply with
      | caller ticket =>
        have hone : [(peer, op)].countP (wanders r.placement id) ≤ 1 := List.countP_le_length
        simp only [List.countP_singleton, hid, decide_true, if_true] at hone ⊢
        omega
      | remote m =>
        -- it goes to the owner, and came from somebody who took another node for the owner
        obtain ⟨htarget, hne⟩ := howner m rfl
        simp [wanders, hid, htarget, hne]
    · simp [wanders, hid]

lemma sentOn_le (f : Fleet table) (id : OperationId) (n : NodeId) (input : Router.Input) :
    forwardsOf id (f.sentOn n input) + hopsLeft table id (f.sentOn n input) ≤
      allowance table id n input := by
  unfold sentOn
  cases f.router? n with
  | none => exact Nat.zero_le _
  | some p =>
    obtain ⟨r, rfl, rfl⟩ := p
    exact le_allowance (r.forwards_handle input).forwards id

lemma hand_le (f : Fleet table) (id : OperationId) (n : NodeId) (input : Router.Input) :
    forwardsOf id (f.hand n input).2 + hopsLeft table id (f.hand n input).1.transit ≤
      hopsLeft table id f.transit + allowance table id n input := by
  have hsent := f.sentOn_le id n input
  show forwardsOf id (f.sentOn n input) + hopsLeft table id (f.transit ++ f.sentOn n input) ≤ _
  rw [hopsLeft_append]
  omega

/-- What a delivered envelope allows a router is what was left to it. -/
lemma allowance_message (id : OperationId) (e : Envelope) :
    allowance table id e.dst (.message e.message) = hopsLeft table id [e] := by
  obtain ⟨src, dst, message⟩ := e
  cases message with
  | forward op replyTo =>
    show _ = [(dst, op)].countP (wanders table id)
    rw [List.countP_singleton]
    rfl
  | _ => rfl

lemma deliver_le (f : Fleet table) (id : OperationId) (i : Nat) :
    forwardsOf id (f.deliver i).2 + hopsLeft table id (f.deliver i).1.transit ≤
      hopsLeft table id f.transit := by
  unfold deliver
  cases he : f.transit[i]? with
  | none => exact Nat.le_of_eq (Nat.zero_add _)
  | some e =>
    have hhand := hand_le { f with transit := f.transit.eraseIdx i } id e.dst (.message e.message)
    rw [allowance_message] at hhand
    rw [hopsLeft_eraseIdx table id he, Nat.add_comm (hopsLeft table id [e])]
    exact hhand

lemma allowance_of_not_message (table : Placement) (id : OperationId) (n : NodeId)
    {input : Router.Input} (h : input.isMessage = false) :
    allowance table id n input ≤ if (Event.handles n input h).submits id then 2 else 0 := by
  cases input with
  | message m => cases h
  | request op reply =>
    cases reply with
    | caller ticket => simp [allowance, Router.Input.wanted?, Event.submits]
    | remote m =>
      by_cases hid : op.id = id
      · simp only [allowance, Router.Input.wanted?, Event.submits, hid, decide_true, if_true]
        split <;> omega
      · simp [allowance, Router.Input.wanted?, Event.submits, hid, wanders]
  | _ => exact Nat.zero_le _

/-- A step pays for the forwards that it sends: with the hops that were left, or with the two of a
request. -/
theorem step_le (f : Fleet table) (id : OperationId) (event : Event) :
    forwardsOf id (f.step event).2 + hopsLeft table id (f.step event).1.transit ≤
      hopsLeft table id f.transit + if event.submits id then 2 else 0 := by
  cases event with
  | handles n input h =>
    have hhand := f.hand_le id n input
    have hallowance := allowance_of_not_message table id n h
    exact Nat.le_trans hhand (Nat.add_le_add_left hallowance _)
  | delivers i => exact f.deliver_le id i
  | loses i =>
    show 0 + hopsLeft table id (f.transit.eraseIdx i) ≤ _
    rw [Nat.zero_add]
    exact hopsLeft_eraseIdx_le table id f.transit i
  | changes n state view responsibility suspected => exact Nat.le_of_eq (Nat.zero_add _)
  | amid n ids timers placementFault => exact Nat.le_of_eq (Nat.zero_add _)

/-- Over a run, an operation is forwarded as often as hops were left to it, and twice more for each
request. -/
lemma run_le (f : Fleet table) (id : OperationId) (events : List Event) :
    forwardsOf id (f.run events).2 + hopsLeft table id (f.run events).1.transit ≤
      hopsLeft table id f.transit + 2 * events.countP (·.submits id) := by
  induction events generalizing f with
  | nil =>
    show 0 + hopsLeft table id f.transit ≤ _
    omega
  | cons event events ih =>
    have hstep := f.step_le id event
    have hrest := ih (f.step event).1
    have hsent : forwardsOf id (f.run (event :: events)).2 =
        forwardsOf id (f.step event).2 + forwardsOf id ((f.step event).1.run events).2 :=
      forwardsOf_append id _ _
    have hfleet : (f.run (event :: events)).1 = ((f.step event).1.run events).1 := rfl
    rw [hsent, hfleet, List.countP_cons]
    split at hstep
    · rename_i hsubmits
      rw [if_pos hsubmits]
      omega
    · rename_i hsubmits
      rw [if_neg hsubmits]
      omega

/-- An operation that is asked for once, and that no forward is on its way of, is forwarded at most
twice, in whatever order envelopes are delivered or lost, timeouts fire and routers change. -/
theorem forwards_le_two (f : Fleet table) {id : OperationId} (hnew : forwardsOf id f.transit = 0)
    {events : List Event} (honce : events.countP (·.submits id) ≤ 1) :
    forwardsOf id (f.run events).2 ≤ 2 := by
  have hrun := f.run_le id events
  have hleft := hopsLeft_le table id f.transit
  omega

namespace Detour

def node (host : String) : NodeId := ⟨host, 1, none⟩

/-- Everything belongs to c. -/
def owners : Placement := .ofList [([], [node "c"])]

/-- A router on every node, and nothing on its way. -/
def fleet : Fleet owners := ⟨fun n => some ⟨.start n 5000 owners (.ofSeed 7 0), rfl, rfl⟩, []⟩

def lookup : Operation := ⟨10, .get [97]⟩

/-- A client asks a for a key while a is not caught up. What a forwards to b, the other member of
its view, is delivered, and then what b forwards. -/
def events : List Event :=
  [.changes (node "a") .forwarding (some (.ofList 1 [node "a", node "b"])) (some .full) ∅,
    .handles (node "a") (.request lookup (.caller 0)) rfl, .delivers 0, .delivers 0]

end Detour

open Detour in
/-- The operation goes from a to b, and from b, which has nothing to do with its key, to c. -/
theorem forwards_le_two_reached :
    forwardsOf 10 fleet.transit = 0 ∧ events.countP (·.submits 10) ≤ 1 ∧
      forwardsOf 10 (fleet.run events).2 ≤ 2 ∧
      hopsIn (fleet.run events).2 = [(node "b", lookup), (node "c", lookup)] := by
  have honce : events.countP (·.submits 10) ≤ 1 := by decide
  refine ⟨rfl, honce, forwards_le_two fleet rfl honce, ?_⟩
  decide

end Fleet

end ReplicaRing
