import ReplicaRing.Placement
import ReplicaRing.Replication.Engine
import ReplicaRing.Routing.Stats

/-!
The request router is where clients come in. Operations inside this replica's responsibility go
to the engine once the replica is caught up; everything else is forwarded, to a live member of
the view while the replica is not, or to the owner that the placement names. Answers find their
caller by the number of the operation.
-/

namespace ReplicaRing

/-- Where an answer goes. -/
inductive ReplyTo where
  /-- A caller of this process, by ticket. -/
  | caller (ticket : Nat)
  /-- The router of another node. -/
  | remote (node : NodeId)
  deriving DecidableEq, Repr, Inhabited

inductive RouterState where
  /-- The replica is not to be trusted yet. -/
  | forwarding
  /-- The replica serves its responsibility. -/
  | active
  deriving DecidableEq, Repr, Inhabited

/-- A caller that waits for an operation. -/
structure PendingOperation where
  /-- The number that the caller knows the operation by. -/
  origin : OperationId
  reply : ReplyTo
  /-- Whether pages of a range are asked for until there are no more. -/
  paginate : Bool
  /-- The items of earlier pages. -/
  collected : List (Key × Bytes)
  /-- The peer that the operation was forwarded to. -/
  forwardedTo : Option NodeId
  deriving DecidableEq, Inhabited

structure Router where
  self : NodeId
  forwardTimeout : Duration
  placement : Placement
  /-- Why look-ups of the placement fail, if they do. -/
  placementFault : Option Fault
  ids : IdSource
  state : RouterState
  view : Option View
  responsibility : Option KeyRange
  suspected : SortedSet NodeId
  /-- The waiting callers, by the number that the operation went out under. -/
  pending : SortedMap OperationId PendingOperation
  stats : Stats
  /-- The forward timeouts, by operation. -/
  timers : Timers OperationId OperationId
  /-- What the source of chance draws, one number after the other. -/
  draws : Nat → Nat

namespace Router

inductive Output where
  | submit (operation : Operation)
  | send (envelope : Envelope)
  | answer (ticket : Nat) (answer : Answer)
  | report (report : StatsReport)

def start (self : NodeId) (forwardTimeout : Duration) (placement : Placement) (ids : IdSource)
    (draws : Nat → Nat := fun _ => 0) : Router :=
  { self, forwardTimeout, placement, ids, draws
    placementFault := none
    state := .forwarding
    view := none
    responsibility := none
    suspected := ∅
    pending := ∅
    stats := .start self 0
    timers := .empty }

def deliver (r : Router) (reply : ReplyTo) (a : Answer) : Output :=
  match reply with
  | .caller ticket => .answer ticket a
  | .remote n => .send ⟨r.self, n, .reply a⟩

/-- Answers without having run anything. -/
def refuse (r : Router) (reply : ReplyTo) (id : OperationId) (reason : String) : Output :=
  r.deliver reply (.unchanged id (.unavailable reason))

/-! ## Requests -/

/-- Whether an operation lies in this replica's responsibility. -/
def isInside (r : Router) (op : Operation) : Bool := r.responsibility.any (·.admits op.target)

/-- The owner that the placement names for an operation. -/
def placementOwner (r : Router) (op : Operation) : Except Fault (Option NodeId) :=
  match op.target, r.placementFault with
  | .unrouted, _ => .ok none
  | _, some fault => .error fault
  | .key k, none => .ok (r.placement.ownerOf? k)
  | .range q, none => .ok (r.placement.ownersOf q).head?

/-- The members of the view, other than this node, that are not suspected. -/
def liveMembers (r : Router) : List NodeId :=
  match r.view with
  | none => []
  | some view => view.members.toList.filter fun n => n != r.self && !r.suspected.contains n

/-- One of the live members; which of them, the next draw decides. -/
def liveMember? (r : Router) : Option NodeId := r.liveMembers[r.draws 0 % r.liveMembers.length]?

/-- Sends an operation on to a peer and waits for its answer, but not for ever. -/
def forward (r : Router) (peer : NodeId) (op : Operation) (reply : ReplyTo) :
    Router × List Output :=
  ({ r with
      pending := r.pending.insert op.id ⟨op.id, reply, false, [], some peer⟩
      timers := r.timers.once op.id r.forwardTimeout op.id },
    [.send ⟨r.self, peer, .forward op r.self⟩])

/-- Routes an operation. One whose number is waited for already is dropped. What a peer forwarded
is not sent on to another replica, since it could come back. -/
def request (r : Router) (op : Operation) (reply : ReplyTo) : Router × List Output :=
  let r := { r with stats := r.stats.recordOperation }
  if r.pending.contains op.id then (r, [])
  else if r.isInside op then
    match r.state, reply with
    | .active, _ =>
      let paginate := match op.kind with
        | .rangeQuery _ none => true
        | _ => false
      ({ r with pending := r.pending.insert op.id ⟨op.id, reply, paginate, [], none⟩ },
        [.submit op])
    | .forwarding, .remote _ => (r, [r.refuse reply op.id "replica is syncing"])
    | .forwarding, .caller _ =>
      match r.liveMember? with
      | some peer => forward { r with draws := fun n => r.draws (n + 1) } peer op reply
      | none => (r, [r.refuse reply op.id "no live replica"])
  else
    match r.placementOwner op with
    | .error fault => (r, [r.refuse reply op.id fault.message])
    | .ok none => (r, [r.refuse reply op.id "no owner for operation"])
    | .ok (some owner) =>
      if owner = r.self then (r, [r.refuse reply op.id "no owner for operation"])
      else r.forward owner op reply

/-! ## Answers -/

/-- Brings an answer to its caller. A page of a paginated range that says what remains is kept,
and the rest is asked for under a fresh number. -/
def respond (r : Router) (a : Answer) : Router × List Output :=
  match r.pending.get? a.id with
  | none => (r, [])
  | some p =>
    let r := { r with
      pending := r.pending.erase a.id
      timers := if p.forwardedTo.isSome then r.timers.cancel a.id else r.timers }
    match a.response with
    | .range items remaining =>
      let collected := p.collected ++ items
      match remaining, p.paginate with
      | some rest, true =>
        let (id, ids) := r.ids.next
        ({ r with ids, pending := r.pending.insert id { p with collected } },
          [.submit ⟨id, .rangeQuery rest none⟩])
      | _, _ => (r, [r.deliver p.reply ⟨p.origin, .range collected remaining, a.delta⟩])
    | other => (r, [r.deliver p.reply ⟨p.origin, other, a.delta⟩])

/-- Gives up on a peer's answer. -/
def forwardTimeoutFired (r : Router) (id : OperationId) : Router × List Output :=
  match r.pending.get? id with
  | none => (r, [])
  | some p =>
    match p.forwardedTo with
    | none => (r, [])
    | some peer =>
      ({ r with pending := r.pending.erase id },
        [r.refuse p.reply p.origin ("no answer from " ++ peer.render)])

/-! ## Other inputs -/

def message (r : Router) : Message → Router × List Output
  | .forward op replyTo => r.request op (.remote replyTo)
  | .reply a => r.respond a
  | _ => (r, [])

/-- Answers everything that waits for a node, in the order of the numbers. -/
def suspect (r : Router) (n : NodeId) : Router × List Output :=
  let waiting := r.pending.filter fun _ p => p.forwardedTo == some n
  ({ r with
      timers := waiting.keys.foldl Timers.cancel r.timers
      pending := r.pending.filter fun _ p => p.forwardedTo != some n
      suspected := r.suspected.insert n },
    waiting.values.map fun p => r.refuse p.reply p.origin (n.render ++ " is suspected"))

def restore (r : Router) (n : NodeId) : Router := { r with suspected := r.suspected.erase n }

def liveness (r : Router) : LivenessReport → Router × List Output
  | .suspect n _ => r.suspect n
  | .restore n _ => (r.restore n, [])

/-- Follows the engine. Only what this replica applied itself changes its store, so only the
engine's answers count into the size. -/
def engineEvent (r : Router) : EngineEvent → Router × List Output
  | .viewInstalled view responsibility state =>
    ({ r with
        suspected := r.suspected.filter view.contains
        view := some view
        responsibility := some responsibility
        state := if state = .ready then r.state else .forwarding }, [])
  | .synced _ => ({ r with state := .active }, [])
  | .response a => respond { r with stats := r.stats.recordDelta a.delta } a

def statsTick (r : Router) (now : Duration) : Router × List Output :=
  let (report, stats) := r.stats.tick now
  ({ r with stats }, [.report report])

/-! ## Time -/

/-- Lets time pass: forward timeouts fire, the earliest first, and are handled as they do. None of
them arms another. -/
def advance (r : Router) (span : Duration) : List OperationId × Router × List Output :=
  let (fired, timers) := r.timers.advance span
  let (r, out) := fired.foldl (fun (r, out) (_, id) =>
    let (r, more) := r.forwardTimeoutFired id
    (r, out ++ more)) ({ r with timers }, [])
  (fired.map Prod.snd, r, out)

end Router

end ReplicaRing
