import ReplicaRing.Liveness.Detector
import ReplicaRing.Node.Ids
import ReplicaRing.Node.View

/-!
The leader oracle trusts the lowest member of the view that is not suspected. Views are
installed from outside; liveness comes from the failure detector, with one subscription for
each member other than the node itself.
-/

namespace ReplicaRing

inductive OracleEvent where
  /-- A leader is trusted. -/
  | trust (leader : NodeId) (viewId : UInt64)
  /-- Liveness changed, and with it the leader only if there is none any more. -/
  | livenessChanged (leader : Option NodeId)
  deriving DecidableEq, Repr, Inhabited

structure Oracle where
  self : NodeId
  /-- Where the numbers of subscriptions come from. -/
  ids : IdSource
  view : Option View
  /-- The members that are not suspected. -/
  candidates : SortedSet NodeId
  suspected : SortedSet NodeId
  leader : Option NodeId
  /-- The leader as followers outside see it. -/
  watched : Option NodeId
  /-- The detector subscription of each other member. -/
  subscriptions : SortedMap NodeId RequestId
  deriving Inhabited

namespace Oracle

inductive Output where
  | subscribe (request : RequestId) (node : NodeId)
  | unsubscribe (request : RequestId)
  | event (event : OracleEvent)
  /-- Followers outside are told the leader, even an unchanged one. -/
  | announce (leader : Option NodeId)
  deriving DecidableEq

def start (self : NodeId) (ids : IdSource) : Oracle := ⟨self, ids, none, ∅, ∅, none, none, ∅⟩

def setLeader (o : Oracle) (leader : Option NodeId) : Oracle :=
  { o with leader, watched := leader }

/-! ## Views -/

/-- Subscribes to each of the nodes under a fresh number. -/
def subscribeAll (o : Oracle) : List NodeId → Oracle × List Output
  | [] => (o, [])
  | n :: rest =>
    let (request, ids) := o.ids.next
    let o := { o with ids, subscriptions := o.subscriptions.insert n request }
    let (o, out) := o.subscribeAll rest
    (o, .subscribe request n :: out)

/-- Forgets each of the nodes, with its subscription if it has one. -/
def dropAll (o : Oracle) : List NodeId → Oracle × List Output
  | [] => (o, [])
  | n :: rest =>
    let request := o.subscriptions.get? n
    let o := { o with
      suspected := o.suspected.erase n
      subscriptions := o.subscriptions.erase n }
    let (o, out) := o.dropAll rest
    (o, (request.map Output.unsubscribe).toList ++ out)

/-- Ends every subscription, in the order of their numbers, and forgets the view. -/
def clear (o : Oracle) : Oracle × List Output :=
  let requests := SortedSet.ofList o.subscriptions.values
  (setLeader { o with view := none, candidates := ∅, suspected := ∅, subscriptions := ∅ } none,
    requests.toList.map .unsubscribe ++ [.announce none])

/-- Adopts a view that is newer than the one there is. Members that stay keep their subscription
and stay suspected until the detector restores them. -/
def adopt (o : Oracle) (view : View) : Oracle × List Output :=
  let previous := o.view.getD View.empty
  let added := (view.added previous).toList.filter fun n => n != o.self
  let (o, subscribed) := o.subscribeAll added
  let (o, dropped) := o.dropAll (view.removed previous).toList
  let candidates := view.members.diff o.suspected
  let leader := candidates.first?
  let o := setLeader { o with view := some view, candidates } leader
  let trust := match leader with
    | some n => [Output.event (.trust n view.id)]
    | none => []
  (o, subscribed ++ dropped ++ .announce leader :: trust)

/-- Installs a view. An empty one clears the oracle whatever its number; any other is ignored
unless its number is higher than that of the view there is. -/
def install (o : Oracle) (view : View) : Oracle × List Output :=
  if view.isEmpty then o.clear
  else if o.view.any (view.id ≤ ·.id) then (o, [])
  else o.adopt view

/-! ## Liveness -/

/-- Takes over a changed verdict and, if it changes the lowest candidate, the leader. -/
def reelect (o : Oracle) : Oracle × List Output :=
  let leader := o.candidates.first?
  if leader = o.leader then (o, [.event (.livenessChanged leader)])
  else
    let event := match leader with
      | some n => OracleEvent.trust n ((o.view.map View.id).getD 0)
      | none => .livenessChanged none
    (o.setLeader leader, [.announce leader, .event event])

/-- Applies a report of the detector, unless it is for a subscription that is not the current
one of its node. -/
def liveness (o : Oracle) (report : LivenessReport) : Oracle × List Output :=
  if o.subscriptions.get? report.node = some report.request then
    match report with
    | .suspect n _ =>
      reelect { o with suspected := o.suspected.insert n, candidates := o.candidates.erase n }
    | .restore n _ =>
      reelect { o with suspected := o.suspected.erase n, candidates := o.candidates.insert n }
  else (o, [])

end Oracle

end ReplicaRing
