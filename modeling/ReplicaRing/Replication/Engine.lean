import ReplicaRing.Log.Value
import ReplicaRing.Store.Scan
import ReplicaRing.Liveness.Oracle
import ReplicaRing.Transfer.Mover

/-!
The replication engine turns the decided log into the state of one replica. Values are applied
in the order of their positions, whatever the order in which they are told. A decided change of
view is handed to the leader oracle and settles which transfers this replica owes; a replica
that joins waits for its own transfer and keeps the operations decided meanwhile until it has
landed.
-/

namespace ReplicaRing

structure ReplicationConfig where
  /-- The log is pruned after this many applied positions. -/
  pruneInterval : Nat := 1000
  /-- How many executed operations are remembered. -/
  dedupWindow : Nat := 10000
  /-- The items and bytes of a page of a range query. -/
  pageItems : Nat := 1000
  pageBytes : Nat := 4194304
  deriving DecidableEq, Repr, Inhabited

inductive EngineState where
  /-- No view is installed, or this node is no member of it. -/
  | passive
  /-- Waiting for the transfer that brings this replica up to date. -/
  | syncing
  | ready
  deriving DecidableEq, Repr, Inhabited

def EngineState.render : EngineState → String
  | passive => "PASSIVE"
  | syncing => "SYNCING"
  | ready => "READY"

/-- What the engine tells the request router. -/
inductive EngineEvent where
  | viewInstalled (view : View) (responsibility : KeyRange) (state : EngineState)
  /-- The replica caught up with its responsibility. -/
  | synced (viewId : UInt64)
  | response (answer : Answer)
  deriving DecidableEq, Inhabited

structure Engine where
  self : NodeId
  config : ReplicationConfig
  store : Store
  state : EngineState
  /-- The configuration that was decided last. -/
  installed : Option Reconfigure
  /-- The next log position to apply. -/
  next : Nat
  /-- Decided values that wait for a gap before them to close. -/
  held : SortedMap Nat LogValue
  appliedSincePrune : Nat
  /-- The operations executed last. -/
  executed : RecentSet OperationId
  /-- The leader that the oracle trusts. -/
  leader : Option NodeId
  /-- The view whose transfer this replica waits for. -/
  awaiting : Option UInt64
  /-- Operations decided during that wait, in log order. -/
  deferred : List Operation

namespace Engine

inductive Output where
  | log (request : LogRequest)
  /-- The leader oracle is given a view. -/
  | install (view : View)
  | mover (command : MoverCommand)
  | event (event : EngineEvent)
  deriving DecidableEq

def start (self : NodeId) (config : ReplicationConfig) (store : Store) : Engine :=
  { self, config, store
    state := .passive
    installed := none
    next := 1
    held := ∅
    appliedSincePrune := 0
    executed := .empty config.dedupWindow
    leader := none
    awaiting := none
    deferred := [] }

def view? (e : Engine) : Option View := e.installed.map Reconfigure.view

def respond (answer : Answer) : Output := .event (.response answer)

def unavailable (id : OperationId) (reason : String) : Answer := .unchanged id (.unavailable reason)

/-! ## Executing operations -/

/-- Reads a page of live entries. With a limit the page is the whole answer; without one it says
what is left of the range. -/
def rangeQuery (e : Engine) (range : KeyRange) (limit : Option UInt64) : Except Fault Response := do
  let maxItems := match limit with
    | some l => l.toNat
    | none => e.config.pageItems
  let page ← e.store.scan range ⟨some maxItems, some e.config.pageBytes⟩ .skipTombstones
  let remaining := match limit, page.more, page.lastKey? with
    | none, true, some k => some (range.after k)
    | _, _, _ => none
  return .range (page.items.filterMap fun i => i.value.map fun v => (i.key, v)) remaining

/-- Runs an operation on the store. -/
def perform (e : Engine) : OperationKind → Except Fault (Store × Response × SizeDelta)
  | .get k => do return (e.store, .value (← e.store.get k), .zero)
  | .put k v => do
    let (store, delta) ← e.store.put k v
    return (store, .written, delta)
  | .delete k => do
    let (store, delta) ← e.store.delete k
    return (store, .deleted, delta)
  | .rangeQuery range limit => do return (e.store, ← e.rangeQuery range limit, .zero)
  | .other name _ => .ok (e.store, .unsupported name, .zero)

/-- Executes a decided operation, at most once while its number is remembered. Only operations
that reach the store count as executed. -/
def execute (e : Engine) (op : Operation) : Engine × Answer :=
  if e.executed.contains op.id then (e, .unchanged op.id .duplicate)
  else
    match e.installed with
    | none => (e, unavailable op.id "no view installed")
    | some installed =>
      if !installed.responsibility.admits op.target then
        (e, unavailable op.id "outside responsibility")
      else
        let e := { e with executed := e.executed.insert op.id }
        match e.perform op.kind with
        | .ok (store, response, delta) => ({ e with store }, ⟨op.id, response, delta⟩)
        | .error fault => (e, .unchanged op.id (.failed fault.message))

/-- Executes operations one after the other and answers each. -/
def executeAll (e : Engine) : List Operation → Engine × List Output
  | [] => (e, [])
  | op :: rest =>
    let (e, answer) := e.execute op
    let (e, out) := e.executeAll rest
    (e, respond answer :: out)

/-! ## Changing views -/

/-- The members of the next view that lie between a member of the previous one and its
successor there. These arcs part the ring, so each new member lies in one of them. -/
def newlyResponsible (self : NodeId) (previous next : View) : List NodeId :=
  match previous.successor? self with
  | none => []
  | some successor =>
    (next.added previous).toList.filter fun n => n != self && View.between self successor n

/-- The transfers to stop and to start when this replica leaves a configuration it was a member
of. A responsibility without data needs no transfer. -/
def reassignTransfers (self : NodeId) (previous next : Reconfigure) : List Output :=
  if next.view.contains self then
    let stops := (next.view.removed previous.view).toList.map fun n => Output.mover (.stopSend n)
    let starts :=
      if next.versionId = 0 then []
      else (newlyResponsible self previous.view next.view).map fun n =>
        Output.mover (.startSend n next.responsibility next.view.id)
    stops ++ starts
  else [.mover .stopAll]

/-- The replica is caught up. -/
def markReady (e : Engine) : Engine × List Output :=
  ({ e with state := .ready },
    match e.installed with
    | some r => [.event (.synced r.view.id)]
    | none => [])

/-- Leaves the view: nothing is awaited any more, and what was deferred will never run here. -/
def retire (e : Engine) : Engine × List Output :=
  ({ e with awaiting := none, deferred := [], state := .passive },
    e.deferred.map fun op => respond (unavailable op.id "replica removed from view"))

/-- Enters a view: the replica waits for its transfer, unless the range holds nothing yet or
there is no one to send it. -/
def join (e : Engine) (r : Reconfigure) : Engine :=
  let fresh := r.versionId == 0 || r.view.size == 1
  { e with
    state := if e.state = .passive then .syncing else e.state
    awaiting := if fresh then none else some r.view.id }

/-- Installs a configuration whose view is newer than the installed one; others are ignored. -/
def reconfigure (e : Engine) (r : Reconfigure) : Engine × List Output :=
  if e.installed.any (r.view.id ≤ ·.view.id) then (e, [])
  else
    let wasMember := e.installed.any (·.view.contains e.self)
    let member := r.view.contains e.self
    let transfers := match e.installed with
      | some previous => if wasMember then reassignTransfers e.self previous r else []
      | none => []
    let e := { e with installed := some r }
    let (e, abandoned) :=
      if !member then e.retire
      else if !wasMember then (e.join r, [])
      else (e, [])
    let announced := Output.event (.viewInstalled r.view r.responsibility e.state)
    let (e, synced) :=
      if member && e.state = .syncing && e.awaiting.isNone then e.markReady else (e, [])
    (e, transfers ++ .install r.view :: abandoned ++ announced :: synced)

/-! ## Applying the log -/

/-- Applies the value of the next position. An operation decided while a transfer is awaited is
kept, so that a page which arrives later cannot undo it. -/
def apply (e : Engine) : LogValue → Engine × List Output
  | .noop => (e, [])
  | .reconfigure r => e.reconfigure r
  | .operation op =>
    if e.awaiting.isSome then ({ e with deferred := e.deferred ++ [op] }, [])
    else
      let (e, answer) := e.execute op
      (e, [respond answer])

/-- Counts an applied position, and prunes the log when the interval is full. -/
def countApplied (e : Engine) : Engine × List Output :=
  let e := { e with next := e.next + 1, appliedSincePrune := e.appliedSincePrune + 1 }
  if e.config.pruneInterval ≤ e.appliedSincePrune then
    ({ e with appliedSincePrune := 0 }, [.log (.prune (UInt64.ofNat e.next))])
  else (e, [])

/-- Applies held values while the next position is among them, at most as many as the fuel. -/
def applyHeld : Nat → Engine → Engine × List Output
  | 0, e => (e, [])
  | fuel + 1, e =>
    match e.held.get? e.next with
    | none => (e, [])
    | some value =>
      let (e, applied) := apply { e with held := e.held.erase e.next } value
      let (e, pruned) := e.countApplied
      let (e, rest) := applyHeld fuel e
      (e, applied ++ pruned ++ rest)

/-- Takes a decided value, and applies all that is now without a gap. A position that was applied
before is skipped. -/
def decide (e : Engine) (position : Nat) (value : LogValue) : Engine × List Output :=
  if position < e.next then (e, [])
  else
    let e := { e with held := e.held.insert position value }
    applyHeld e.held.size e

/-! ## Requests and events -/

/-- Installs a configuration without the log. -/
def bootstrap (e : Engine) (r : Reconfigure) : Engine × List Output := e.reconfigure r

/-- Proposes an operation to the log; without a view it is refused at once. -/
def submit (e : Engine) (op : Operation) : List Output :=
  if e.state = .passive then [respond (unavailable op.id "no view installed")]
  else [.log (.propose (.operation op))]

/-- Why a change of view is not proposed: this node is not the trusted leader, or the view is not
newer than the installed one. -/
def proposeCheck (e : Engine) (r : Reconfigure) : Except Fault Unit :=
  if e.leader ≠ some e.self then .error .notLeader
  else
    match e.installed with
    | some current =>
      if r.view.id ≤ current.view.id then .error (.staleView r.view.id current.view.id) else .ok ()
    | none => .ok ()

def propose (e : Engine) (r : Reconfigure) : List Output :=
  match e.proposeCheck r with
  | .ok () => [.log (.propose (.reconfigure r))]
  | .error _ => []

/-- Follows the oracle's leader. -/
def handleOracle (e : Engine) : OracleEvent → Engine
  | .trust leader _ => { e with leader := some leader }
  | .livenessChanged leader => { e with leader }

/-- Takes note of the mover. A completed transfer ends the wait if it is for the awaited view or
a later one and covers the responsibility; then the deferred operations run. -/
def handleMover (e : Engine) : MoverEvent → Engine × List Output
  | .transferComplete _ _ metadata _ _ =>
    match e.awaiting with
    | none => (e, [])
    | some awaited =>
      let covers := e.installed.any fun r => metadata.range.covers r.responsibility
      if metadata.viewId < awaited || !covers then (e, [])
      else
        let (e, replayed) := executeAll { e with awaiting := none, deferred := [] } e.deferred
        if e.state = .syncing then
          let (e, synced) := e.markReady
          (e, replayed ++ synced)
        else (e, replayed)
  | .sendFinished _ _ _ _ | .sendFailed _ _ _ => (e, [])

end Engine

end ReplicaRing
