import ReplicaRing.Log.Local
import ReplicaRing.Proofs.OperationTraffic

/-!
An engine that is attached to a log. Requests to the log wait in one queue, those of the engine and
the proposals of others, and the engine takes the decisions that it is sent one after the other,
amid all else that comes to it. Both count positions on their own: the log decides the proposals in
their order, and the engine asks for a pruning each time it has applied so many positions, up to the
next one that it will apply. So what is pruned was applied, `Attachment.unapplied_retained`, and
what is kept is all from the last pruning on, `Attachment.positions_of_run`.
-/

namespace ReplicaRing

/-- The position that a request prunes to. -/
def LogRequest.position? : LogRequest → Option UInt64
  | prune position => some position
  | propose _ => none

/-- Whether an arrival is a decision of the log. -/
def Engine.Arrival.isDecision : Arrival → Bool
  | .input i => i.isDecision
  | .submit _ | .propose _ | .store _ => false

/-- The decisions on some values, from position one on. -/
def decisions (values : List LogValue) : List LogIndication :=
  values.zipIdx.map fun (value, i) => ⟨UInt64.ofNat (i + 1), value⟩

structure Attachment where
  log : LocalLog
  /-- All that the log was asked for, in order. -/
  requests : List LogRequest
  /-- How many of these requests the log handled. -/
  handled : Nat
  /-- What each subscriber was sent, in order. -/
  received : List (List LogIndication)
  engine : Engine
  /-- The place of the engine among the subscribers. -/
  seat : Nat
  /-- How many of the decisions that it was sent the engine took. -/
  taken : Nat

namespace Attachment

/-- An engine at its seat before an empty log. -/
def start (engine : Engine) (subscribers seat : Nat) : Attachment where
  log := .start subscribers
  requests := []
  handled := 0
  received := List.replicate subscribers []
  engine
  seat
  taken := 0

inductive Step where
  /-- Someone proposes a value. -/
  | propose (value : LogValue)
  /-- The log handles the oldest request. -/
  | handle
  /-- The engine takes the oldest decision. -/
  | take
  /-- Something else comes to the engine. -/
  | engine (a : Engine.Arrival) (h : a.isDecision = false)
  /-- A subscriber stops listening. -/
  | close (subscriber : Nat)

/-- More is asked of the log, and waits. -/
def ask (s : Attachment) (more : List LogRequest) : Attachment :=
  { s with requests := s.requests ++ more }

/-- The engine handles an arrival. -/
def react (s : Attachment) (a : Engine.Arrival) : Attachment :=
  { s with engine := s.engine.react a }.ask (Engine.requestsIn (s.engine.outputOn a))

/-- The log handles a request. -/
def handle (s : Attachment) (request : LogRequest) : Attachment :=
  { s with
    log := (s.log.handle request).1
    handled := s.handled + 1
    received := List.zipWith (· ++ ·) s.received
      ((s.log.handle request).1.deliveries (s.log.handle request).2) }

/-- The engine takes a decision. -/
def take (s : Attachment) (d : LogIndication) : Attachment :=
  { s with taken := s.taken + 1 }.react (.input (.decided d.position.toNat d.value))

def step (s : Attachment) : Step → Attachment
  | .propose value => s.ask [.propose value]
  | .handle =>
    match s.requests[s.handled]? with
    | none => s
    | some request => s.handle request
  | .take =>
    match s.received[s.seat]?.bind (·[s.taken]?) with
    | none => s
    | some d => s.take d
  | .engine a _ => s.react a
  | .close subscriber => { s with log := s.log.close subscriber }

def run (s : Attachment) (steps : List Step) : Attachment := steps.foldl step s

/-! ## What was asked and what was done -/

/-- The proposals, in their order. -/
def proposed (s : Attachment) : List LogValue := s.requests.filterMap LogRequest.value?

/-- The proposals that were decided. -/
def decided (s : Attachment) : List LogValue :=
  (s.requests.take s.handled).filterMap LogRequest.value?

/-- The prunings that the engine asked for, in their order. -/
def prunes (s : Attachment) : List UInt64 := s.requests.filterMap LogRequest.position?

/-- Those that the log handled. -/
def handledPrunes (s : Attachment) : List UInt64 :=
  (s.requests.take s.handled).filterMap LogRequest.position?

/-- The position of the last one, or one. -/
def prunedTo (s : Attachment) : Nat := (s.handledPrunes.getLast?.map UInt64.toNat).getD 1

variable {s : Attachment}

lemma getElem?_decisions (values : List LogValue) (i : Nat) :
    (decisions values)[i]? = values[i]?.map fun value => ⟨UInt64.ofNat (i + 1), value⟩ := by
  unfold decisions
  rw [List.getElem?_map, List.getElem?_zipIdx, Option.map_map, Nat.zero_add]
  rfl

lemma decisions_concat (values : List LogValue) (value : LogValue) :
    decisions (values ++ [value]) =
      decisions values ++ [⟨UInt64.ofNat (values.length + 1), value⟩] := by
  unfold decisions
  rw [List.zipIdx_append, List.map_append, Nat.zero_add]
  rfl

/-- What stands in a front of a list stands there in the whole. -/
lemma getElem?_of_prefix {α : Type} {front l : List α} (h : front <+: l) {i : Nat} {a : α}
    (ha : front[i]? = some a) : l[i]? = some a := by
  obtain ⟨rest, rfl⟩ := h
  rw [List.getElem?_append_left (List.getElem?_eq_some_iff.1 ha).1]
  exact ha

/-- A position is the number that it was made of, unless that number is too great. -/
lemma toNat_position {n : Nat} (h : n < 2 ^ 64) : (UInt64.ofNat n).toNat = n := Nat.mod_eq_of_lt h

/-! ## The log -/

lemma filterMap_singleton {α β : Type} (f : α → Option β) (a : α) :
    [a].filterMap f = (f a).toList := by
  rw [List.filterMap_cons]
  cases f a with
  | none => rfl
  | some b => rfl

/-- A proposal is decided at the next position, and nothing else is. -/
lemma handle_next (log : LocalLog) (request : LogRequest) :
    (log.handle request).1.next = log.next + request.value?.toList.length ∧
      (log.handle request).1.listening = log.listening ∧
      (log.handle request).2 = request.value?.map fun value => ⟨UInt64.ofNat log.next, value⟩ := by
  cases request with
  | propose value => exact ⟨rfl, rfl, rfl⟩
  | prune position =>
    unfold LocalLog.handle
    simp only
    split
    · exact ⟨rfl, rfl, rfl⟩
    · exact ⟨rfl, rfl, rfl⟩

lemma getElem?_deliveries (log : LocalLog) (decision : Option LogIndication) (j : Nat) :
    (log.deliveries decision)[j]? =
      log.listening[j]?.map fun listens => if listens then decision.toList else [] :=
  List.getElem?_map

/-! ## What was handled -/

/-- What is asked for later does not change what was handled. -/
lemma take_ask (h : s.handled ≤ s.requests.length) (more : List LogRequest) :
    (s.ask more).requests.take s.handled = s.requests.take s.handled :=
  List.take_append_of_le_length h

lemma decided_ask (h : s.handled ≤ s.requests.length) (more : List LogRequest) :
    (s.ask more).decided = s.decided := by
  unfold decided
  rw [show (s.ask more).handled = s.handled from rfl, take_ask h]

lemma handledPrunes_ask (h : s.handled ≤ s.requests.length) (more : List LogRequest) :
    (s.ask more).handledPrunes = s.handledPrunes := by
  unfold handledPrunes
  rw [show (s.ask more).handled = s.handled from rfl, take_ask h]

lemma prunes_ask (more : List LogRequest) :
    (s.ask more).prunes = s.prunes ++ more.filterMap LogRequest.position? := List.filterMap_append

section

variable {request : LogRequest} (hrequest : s.requests[s.handled]? = some request)

include hrequest

lemma take_handle : s.requests.take (s.handled + 1) = s.requests.take s.handled ++ [request] := by
  rw [List.take_add_one, hrequest]
  rfl

lemma decided_handle : (s.handle request).decided = s.decided ++ request.value?.toList := by
  show (s.requests.take (s.handled + 1)).filterMap _ = _
  rw [take_handle hrequest, List.filterMap_append, filterMap_singleton]
  rfl

lemma handledPrunes_handle :
    (s.handle request).handledPrunes = s.handledPrunes ++ request.position?.toList := by
  show (s.requests.take (s.handled + 1)).filterMap _ = _
  rw [take_handle hrequest, List.filterMap_append, filterMap_singleton]
  rfl

end

/-! ## Subscribers -/

/-- The log counts its decisions, and every subscriber has a front of them, the whole if it still
listens. -/
structure Told (s : Attachment) : Prop where
  handled : s.handled ≤ s.requests.length
  next : s.log.next = s.decided.length + 1
  front : ∀ (j : Nat) (l : List LogIndication), s.received[j]? = some l → l <+: decisions s.decided
  whole : ∀ j : Nat, s.log.listening[j]? = some true → s.received[j]? = some (decisions s.decided)

lemma Told.start (engine : Engine) (subscribers seat : Nat) :
    (start engine subscribers seat).Told := by
  refine ⟨Nat.le_refl 0, rfl, fun j l hl => ?_, fun j hj => ?_⟩
  · rw [(List.mem_replicate.1 (List.mem_of_getElem? hl)).2]
    exact List.nil_prefix
  · have hlt : j < (List.replicate subscribers true).length := (List.getElem?_eq_some_iff.1 hj).1
    rw [List.length_replicate] at hlt
    exact List.getElem?_replicate_of_lt hlt

lemma Told.ask (h : s.Told) (more : List LogRequest) : (s.ask more).Told := by
  have hdecided := decided_ask h.handled more
  refine ⟨Nat.le_trans h.handled (List.prefix_append _ _).length_le, ?_, ?_, ?_⟩
  · rw [hdecided]
    exact h.next
  · rw [hdecided]
    exact h.front
  · rw [hdecided]
    exact h.whole

lemma Told.react (h : s.Told) (a : Engine.Arrival) : (s.react a).Told :=
  Told.ask (s := { s with engine := s.engine.react a }) ⟨h.handled, h.next, h.front, h.whole⟩ _

/-- A handled request adds the same to the decisions and to what a listening subscriber has. -/
lemma Told.handle (h : s.Told) {request : LogRequest}
    (hrequest : s.requests[s.handled]? = some request) : (s.handle request).Told := by
  obtain ⟨hnext, hlistening, hdecision⟩ := handle_next s.log request
  have hdecided := decided_handle hrequest
  have htold : decisions (s.handle request).decided =
      decisions s.decided ++ (s.log.handle request).2.toList := by
    rw [hdecided, hdecision, h.next]
    cases request.value? with
    | none => simp
    | some value => exact decisions_concat _ _
  refine ⟨(List.getElem?_eq_some_iff.1 hrequest).1, ?_, fun j l hl => ?_, fun j hj => ?_⟩
  · show (s.log.handle request).1.next = _
    rw [hnext, hdecided, h.next, List.length_append]
    omega
  · -- a subscriber that stopped keeps its front, which is one of more decisions now
    rw [htold]
    obtain ⟨told, new, hreceived, hnew, rfl⟩ := List.getElem?_zipWith_eq_some.1 hl
    rw [getElem?_deliveries, hlistening, Option.map_eq_some_iff] at hnew
    obtain ⟨listens, hlistens, rfl⟩ := hnew
    cases listens with
    | false =>
      rw [if_neg Bool.false_ne_true, List.append_nil]
      exact (h.front j told hreceived).trans (List.prefix_append _ _)
    | true =>
      cases (h.whole j hlistens).symm.trans hreceived
      exact List.prefix_refl _
  · have hlistens : s.log.listening[j]? = some true := hlistening ▸ hj
    rw [htold]
    refine List.getElem?_zipWith_eq_some.2 ⟨_, _, h.whole j hlistens, ?_, rfl⟩
    rw [getElem?_deliveries, hlistening, hlistens]
    rfl

lemma Told.close (h : s.Told) (subscriber : Nat) : (s.step (.close subscriber)).Told := by
  refine ⟨h.handled, h.next, h.front, fun j hj => h.whole j ?_⟩
  have hset : (s.log.listening.set subscriber false)[j]? = some true := hj
  rw [List.getElem?_set] at hset
  by_cases heq : subscriber = j
  · rw [if_pos heq] at hset
    split at hset
    · cases hset
    · cases hset
  · rwa [if_neg heq] at hset

/-! ## The engine -/

/-- The position that the engine asks to prune to once it has asked so many times before. -/
def pruneAt (interval asked : Nat) : UInt64 := UInt64.ofNat (interval * (asked + 1) + 1)

/-- The engine counts the decisions that it took and asks for a pruning at every full interval. -/
structure Counted (interval : Nat) (s : Attachment) : Prop where
  consistent : s.engine.Consistent
  held : s.engine.held = ∅
  config : s.engine.config.pruneInterval = interval
  place : s.engine.next = s.taken + 1
  taken : s.taken ≤ s.decided.length
  count : s.taken = interval * s.prunes.length + s.engine.appliedSincePrune
  due : s.engine.appliedSincePrune < interval
  prunes : s.prunes = (List.range s.prunes.length).map (pruneAt interval)

variable {interval : Nat}

lemma Counted.start (self : NodeId) (config : ReplicationConfig) (store : Store)
    (hinterval : 1 ≤ config.pruneInterval) (subscribers seat : Nat) :
    Counted config.pruneInterval (start (Engine.start self config store) subscribers seat) :=
  ⟨Engine.consistent_start self config store, rfl, rfl, rfl, Nat.le_refl 0, rfl, hinterval, rfl⟩

/-- Only a decision makes the engine ask for a pruning. -/
lemma positions_aside {e : Engine} (h : e.Consistent) {a : Engine.Arrival}
    (ha : a.isDecision = false) :
    (Engine.requestsIn (e.outputOn a)).filterMap LogRequest.position? = [] := by
  cases a with
  | store store => rfl
  | submit op =>
    show (Engine.requestsIn (e.submit op)).filterMap _ = []
    unfold Engine.submit
    split
    · rfl
    · rfl
  | propose r =>
    show (Engine.requestsIn (e.propose r)).filterMap _ = []
    unfold Engine.propose
    split
    · rfl
    · rfl
  | input input =>
    have hnone : ∀ t : Engine.Step, e.outputOf input = e.outputAt t → (∀ v, t ≠ .value v) →
        Engine.requestsIn (e.outputOf input) = [] := by
      intro t heq ht
      rw [heq, Engine.requestsIn_outputAt h]
      cases t with
      | value v => exact absurd rfl (ht v)
      | _ => rfl
    show (Engine.requestsIn (e.outputOf input)).filterMap _ = []
    cases input with
    | decided p value => cases ha
    | bootstrap r => rw [hnone (.bootstrap r) rfl nofun, List.filterMap_nil]
    | mover event => rw [hnone (.mover event) rfl nofun, List.filterMap_nil]
    | oracle event => rfl
    | page items => rfl

/-- What is asked besides prunings does not count. -/
lemma Counted.ask (h : s.Counted interval) (htold : s.Told) {more : List LogRequest}
    (hmore : more.filterMap LogRequest.position? = []) : (s.ask more).Counted interval := by
  have hprunes : (s.ask more).prunes = s.prunes := by
    rw [prunes_ask, hmore, List.append_nil]
  refine ⟨h.consistent, h.held, h.config, h.place, ?_, ?_, h.due, ?_⟩
  · rw [decided_ask htold.handled]
    exact h.taken
  · rw [hprunes]
    exact h.count
  · rw [hprunes]
    exact h.prunes

lemma Counted.aside (h : s.Counted interval) (htold : s.Told) {a : Engine.Arrival}
    (ha : a.isDecision = false) : (s.react a).Counted interval := by
  have hdecided : ∀ p value, a ≠ .input (.decided p value) := by
    rintro p value rfl
    cases ha
  obtain ⟨hnext, hheld, hcount⟩ := Engine.place_react h.consistent hdecided
  have hengine : ({ s with engine := s.engine.react a } : Attachment).Counted interval := {
    consistent := h.consistent.react a
    held := hheld.trans h.held
    config := by
      show (s.engine.react a).config.pruneInterval = interval
      rw [Engine.config_react h.consistent]
      exact h.config
    place := hnext.trans h.place
    taken := h.taken
    count := by
      show s.taken = interval * s.prunes.length + (s.engine.react a).appliedSincePrune
      rw [hcount]
      exact h.count
    due := by
      show (s.engine.react a).appliedSincePrune < interval
      rw [hcount]
      exact h.due
    prunes := h.prunes }
  exact hengine.ask ⟨htold.handled, htold.next, htold.front, htold.whole⟩
    (positions_aside h.consistent ha)

/-- The decision for the next position moves an engine on by one, and makes it ask for a pruning if
one is due. -/
lemma decided_next {e : Engine} (hheld : e.held = ∅) (value : LogValue) :
    (e.react (.input (.decided e.next value))).next = e.next + 1 ∧
      (e.react (.input (.decided e.next value))).appliedSincePrune =
        e.movedOn.appliedSincePrune ∧
      Engine.requestsIn (e.outputOn (.input (.decided e.next value))) =
        Engine.requestsIn e.pruning := by
  obtain ⟨hcount, hpruning⟩ := e.countApplied_apply value
  show (e.decide e.next value).1.next = _ ∧ (e.decide e.next value).1.appliedSincePrune = _ ∧
    Engine.requestsIn (e.decide e.next value).2 = _
  rw [Engine.decide_of_held_empty hheld]
  refine ⟨?_, hcount, ?_⟩
  · rw [(Engine.countApplied_place _).1, (e.apply_place value).1]
  · rw [Engine.requestsIn_append, Engine.requestsIn_apply, hpruning]
    rfl

/-- The prunings asked for are those of the full intervals. -/
lemma Counted.pruning (h : s.Counted interval) :
    s.prunes ++ (Engine.requestsIn s.engine.pruning).filterMap LogRequest.position? =
        (List.range (s.prunes.length + if s.engine.pruneDue then 1 else 0)).map (pruneAt interval) ∧
      s.taken + 1 = interval * (s.prunes.length + if s.engine.pruneDue then 1 else 0) +
        s.engine.movedOn.appliedSincePrune ∧
      s.engine.movedOn.appliedSincePrune < interval := by
  have hplace := h.place
  have hcount := h.count
  have hdue := h.due
  have hconfig := h.config
  by_cases hfull : s.engine.pruneDue
  · -- this decision fills the interval, so the position after it is one past a multiple
    have hmoved : s.engine.movedOn.appliedSincePrune = 0 := if_pos hfull
    have hasked : Engine.requestsIn s.engine.pruning =
        [.prune (UInt64.ofNat (s.engine.next + 1))] := by
      unfold Engine.pruning
      rw [if_pos hfull]
      rfl
    have hlast : s.engine.appliedSincePrune + 1 = interval := by
      unfold Engine.pruneDue at hfull
      omega
    have htaken : s.taken + 1 = interval * (s.prunes.length + 1) := by
      rw [Nat.mul_succ]
      omega
    rw [if_pos hfull, hmoved, hasked, List.range_succ, List.map_append, ← h.prunes, hplace, htaken]
    exact ⟨rfl, rfl, by omega⟩
  · have hmoved : s.engine.movedOn.appliedSincePrune = s.engine.appliedSincePrune + 1 :=
      if_neg hfull
    have hasked : Engine.requestsIn s.engine.pruning = [] := by
      unfold Engine.pruning
      rw [if_neg hfull]
      rfl
    rw [if_neg hfull, hmoved, hasked, List.filterMap_nil, List.append_nil, Nat.add_zero, ← h.prunes]
    unfold Engine.pruneDue at hfull
    exact ⟨rfl, by omega, by omega⟩

/-- The engine applies the decision for its next position. -/
lemma Counted.take (h : s.Counted interval) (htold : s.Told) {d : LogIndication}
    (hposition : d.position.toNat = s.engine.next) (hlt : s.taken < s.decided.length) :
    (s.take d).Counted interval := by
  obtain ⟨hnext, hsince, hasked⟩ := decided_next h.held d.value
  obtain ⟨hprunes, hcount, hdue⟩ := h.pruning
  have hengine : (s.take d).engine = s.engine.react (.input (.decided s.engine.next d.value)) := by
    rw [← hposition]
    rfl
  have hall : (s.take d).prunes =
      (List.range (s.prunes.length + if s.engine.pruneDue then 1 else 0)).map
        (pruneAt interval) := by
    rw [← hprunes, ← hasked, ← hposition]
    exact List.filterMap_append
  have hlength : (s.take d).prunes.length =
      s.prunes.length + if s.engine.pruneDue then 1 else 0 := by
    rw [hall, List.length_map, List.length_range]
  refine ⟨?_, ?_, ?_, ?_, ?_, ?_, ?_, ?_⟩
  · rw [hengine]
    exact h.consistent.react _
  · rw [hengine]
    exact Engine.held_empty_next h.held d.value
  · rw [hengine, Engine.config_react h.consistent]
    exact h.config
  · rw [hengine, hnext, h.place]
    rfl
  · -- the pruning that may be asked for waits behind all that was handled
    show s.taken + 1 ≤ (s.take d).decided.length
    rw [show (s.take d).decided = s.decided from
      decided_ask (s := { s with taken := s.taken + 1, engine := (s.take d).engine })
        htold.handled _]
    exact hlt
  · rw [hlength, hengine, hsince]
    exact hcount
  · rw [hengine, hsince]
    exact hdue
  · rw [hlength]
    exact hall

lemma Counted.handle (h : s.Counted interval) {request : LogRequest}
    (hrequest : s.requests[s.handled]? = some request) : (s.handle request).Counted interval := by
  refine ⟨h.consistent, h.held, h.config, h.place, ?_, h.count, h.due, h.prunes⟩
  rw [decided_handle hrequest, List.length_append]
  exact Nat.le_add_right_of_le h.taken

/-! ## What the log keeps -/

/-- The log keeps what was decided, from the last pruning on. -/
structure Kept (s : Attachment) : Prop where
  below : s.log.prunedBelow = s.prunedTo
  get? : ∀ q, s.log.decided.get? q = if s.prunedTo ≤ q then s.decided[q - 1]? else none

/-- The last pruning that was handled is that of the last full interval. -/
lemma Counted.prunedTo (h : s.Counted interval) (hfits : s.taken + 1 < 2 ^ 64) :
    s.prunedTo = interval * s.handledPrunes.length + 1 ∧
      s.handledPrunes.length ≤ s.prunes.length := by
  have hfront : s.handledPrunes <+: s.prunes := (List.take_prefix _ _).filterMap _
  have hle := hfront.length_le
  have hhandled : s.handledPrunes = (List.range s.handledPrunes.length).map (pruneAt interval) := by
    conv_lhs => rw [List.prefix_iff_eq_take.1 hfront, h.prunes, ← List.map_take, List.take_range,
      Nat.min_eq_left hle]
  refine ⟨?_, hle⟩
  unfold Attachment.prunedTo
  rw [hhandled]
  cases hn : s.handledPrunes.length with
  | zero => rfl
  | succ n =>
    have hcount := h.count
    have hbound : interval * (n + 1) ≤ interval * s.prunes.length :=
      Nat.mul_le_mul_left _ (hn ▸ hle)
    rw [List.range_succ, List.map_append, List.map_singleton, List.getLast?_concat]
    simp only [Option.map_some, Option.getD_some, List.length_append, List.length_map,
      List.length_range, List.length_singleton]
    exact toNat_position (by omega)

lemma Kept.start (engine : Engine) (subscribers seat : Nat) :
    (start engine subscribers seat).Kept := by
  refine ⟨rfl, fun q => ?_⟩
  show none = if 1 ≤ q then none else none
  split
  · rfl
  · rfl

/-- What is kept depends on what was handled only. -/
lemma Kept.congr (h : s.Kept) {s' : Attachment} (hlog : s'.log.prunedBelow = s.log.prunedBelow)
    (hkept : s'.log.decided = s.log.decided) (hdecided : s'.decided = s.decided)
    (hpruned : s'.handledPrunes = s.handledPrunes) : s'.Kept := by
  have hprunedTo : s'.prunedTo = s.prunedTo := by
    unfold prunedTo
    rw [hpruned]
  refine ⟨by rw [hlog, h.below, hprunedTo], fun q => ?_⟩
  rw [hkept, h.get?, hprunedTo, hdecided]

lemma Kept.ask (h : s.Kept) (htold : s.Told) (more : List LogRequest) : (s.ask more).Kept :=
  h.congr rfl rfl (decided_ask htold.handled more) (handledPrunes_ask htold.handled more)

lemma Kept.react (h : s.Kept) (htold : s.Told) (a : Engine.Arrival) : (s.react a).Kept :=
  Kept.ask (s := { s with engine := s.engine.react a }) ⟨h.below, h.get?⟩
    ⟨htold.handled, htold.next, htold.front, htold.whole⟩ _

/-- Nothing is pruned that the engine did not apply. -/
lemma Counted.prunedTo_le (h : s.Counted interval) (hfits : s.taken + 1 < 2 ^ 64) :
    s.prunedTo ≤ s.engine.next := by
  obtain ⟨hprunedTo, hle⟩ := h.prunedTo hfits
  have hmul : interval * s.handledPrunes.length ≤ interval * s.prunes.length :=
    Nat.mul_le_mul_left _ hle
  have hcount := h.count
  rw [hprunedTo, h.place]
  omega

/-- A proposal is kept at its position. -/
lemma Kept.decide (h : s.Kept) (htold : s.Told) (hpast : 1 ≤ s.prunedTo ∧ s.prunedTo ≤ s.log.next)
    {value : LogValue} (hrequest : s.requests[s.handled]? = some (.propose value)) :
    (s.handle (.propose value)).Kept := by
  have hdecided : (s.handle (.propose value)).decided = s.decided ++ [value] :=
    decided_handle hrequest
  have hprunedTo : (s.handle (.propose value)).prunedTo = s.prunedTo := by
    unfold prunedTo
    rw [handledPrunes_handle hrequest]
    exact congrArg (fun l => (Option.map UInt64.toNat (List.getLast? l)).getD 1) (List.append_nil _)
  refine ⟨h.below.trans hprunedTo.symm, fun q => ?_⟩
  have hnext := htold.next
  show (s.log.decided.insert s.log.next value).get? q = _
  rw [SortedMap.get?_insert, h.get?, hprunedTo, hdecided]
  by_cases hq : q = s.log.next
  · rw [if_pos hq, if_pos (hq ▸ hpast.2), hq, hnext, Nat.add_sub_cancel,
      List.getElem?_concat_length]
  · rw [if_neg hq]
    by_cases hfrom : s.prunedTo ≤ q
    · rw [if_pos hfrom, if_pos hfrom, List.getElem?_append]
      split
      · rfl
      · rw [List.getElem?_eq_none (by omega), List.getElem?_eq_none]
        rw [List.length_singleton]
        omega
    · rw [if_neg hfrom, if_neg hfrom]

/-- A pruning drops what is below it. -/
lemma Kept.prune (h : s.Kept) {position : UInt64} (hlater : s.prunedTo < position.toNat)
    (hrequest : s.requests[s.handled]? = some (.prune position)) :
    (s.handle (.prune position)).Kept := by
  have hdecided : (s.handle (.prune position)).decided = s.decided :=
    (decided_handle hrequest).trans (List.append_nil _)
  have hprunedTo : (s.handle (.prune position)).prunedTo = position.toNat := by
    unfold prunedTo
    rw [handledPrunes_handle hrequest]
    show (Option.map _ (s.handledPrunes ++ [position]).getLast?).getD 1 = _
    rw [List.getLast?_concat]
    rfl
  have hlog : (s.handle (.prune position)).log =
      { s.log with
        prunedBelow := position.toNat
        decided := s.log.decided.filter fun p _ => position.toNat ≤ p } := by
    show (s.log.handle (.prune position)).1 = _
    unfold LocalLog.handle
    simp only
    -- the log ignores a pruning that is not later than those before
    rw [if_pos (h.below ▸ hlater)]
  refine ⟨?_, fun q => ?_⟩
  · rw [hlog, hprunedTo]
  · rw [hlog, hprunedTo, hdecided]
    show (s.log.decided.filter _).get? q = _
    rw [SortedMap.get?_filter, h.get?]
    by_cases hfrom : position.toNat ≤ q
    · rw [if_pos hfrom, if_pos (by omega)]
      cases s.decided[q - 1]? with
      | none => rfl
      | some value => simp [hfrom]
    · rw [if_neg hfrom]
      split
      · cases s.decided[q - 1]? with
        | none => rfl
        | some value => simp [hfrom]
      · rfl

lemma Kept.handle (h : s.Kept) (htold : s.Told) (hcounted : s.Counted interval)
    (hinterval : 1 ≤ interval) (hfits : s.log.next < 2 ^ 64) {request : LogRequest}
    (hrequest : s.requests[s.handled]? = some request) : (s.handle request).Kept := by
  have hbound : s.taken + 1 ≤ s.log.next := by
    rw [htold.next]
    exact Nat.succ_le_succ hcounted.taken
  have hfits' : s.taken + 1 < 2 ^ 64 := Nat.lt_of_le_of_lt hbound hfits
  obtain ⟨hprunedTo, -⟩ := hcounted.prunedTo hfits'
  cases request with
  | propose value =>
    -- what is pruned was applied, so a new decision does not lie below it
    have happlied := hcounted.prunedTo_le hfits'
    rw [hcounted.place] at happlied
    exact h.decide htold ⟨by omega, by omega⟩ hrequest
  | prune position =>
    -- it is the next one after those that were handled
    obtain ⟨hafter, -⟩ := (hcounted.handle hrequest).prunedTo hfits'
    have hhandled : (s.handle (.prune position)).handledPrunes = s.handledPrunes ++ [position] :=
      handledPrunes_handle hrequest
    rw [hhandled, List.length_append, List.length_singleton, Nat.mul_succ] at hafter
    have hlast : (s.handle (.prune position)).prunedTo = position.toNat := by
      unfold Attachment.prunedTo
      rw [hhandled, List.getLast?_concat]
      rfl
    exact h.prune (by omega) hrequest

/-! ## Runs -/

/-- What every step preserves, as long as the positions are numbers of 64 bits. -/
structure Regular (interval : Nat) (s : Attachment) : Prop where
  told : s.Told
  counted : s.Counted interval
  kept : s.Kept

lemma next_le_step (s : Attachment) (t : Step) : s.log.next ≤ (s.step t).log.next := by
  cases t with
  | propose value => exact Nat.le_refl _
  | engine a ha => exact Nat.le_refl _
  | close subscriber => exact Nat.le_refl _
  | take =>
    unfold step
    cases s.received[s.seat]?.bind (·[s.taken]?) with
    | none => exact Nat.le_refl _
    | some d => exact Nat.le_refl _
  | handle =>
    unfold step
    cases s.requests[s.handled]? with
    | none => exact Nat.le_refl _
    | some request =>
      show _ ≤ (s.log.handle request).1.next
      rw [(handle_next s.log request).1]
      exact Nat.le_add_right _ _

lemma next_le_run (s : Attachment) (steps : List Step) : s.log.next ≤ (s.run steps).log.next := by
  induction steps generalizing s with
  | nil => exact Nat.le_refl _
  | cons t rest ih => exact Nat.le_trans (s.next_le_step t) (ih (s.step t))

/-- The decision that the engine takes is that for its next position. -/
lemma Regular.offered (h : s.Regular interval) (hfits : s.log.next < 2 ^ 64) {d : LogIndication}
    (hd : s.received[s.seat]?.bind (·[s.taken]?) = some d) :
    d.position.toNat = s.engine.next ∧ s.taken < s.decided.length := by
  obtain ⟨told, htold, hget⟩ := Option.bind_eq_some_iff.1 hd
  have hall : (decisions s.decided)[s.taken]? = some d :=
    getElem?_of_prefix (h.told.front _ _ htold) hget
  rw [getElem?_decisions, Option.map_eq_some_iff] at hall
  obtain ⟨value, hvalue, rfl⟩ := hall
  have hlt : s.taken < s.decided.length := (List.getElem?_eq_some_iff.1 hvalue).1
  have hnext := h.told.next
  refine ⟨?_, hlt⟩
  rw [h.counted.place]
  exact toNat_position (by omega)

lemma Regular.step (h : s.Regular interval) (hinterval : 1 ≤ interval) (t : Step)
    (hfits : (s.step t).log.next < 2 ^ 64) : (s.step t).Regular interval := by
  have hfits' : s.log.next < 2 ^ 64 := Nat.lt_of_le_of_lt (s.next_le_step t) hfits
  obtain ⟨htold, hcounted, hkept⟩ := h
  cases t with
  | propose value => exact ⟨htold.ask _, hcounted.ask htold rfl, hkept.ask htold _⟩
  | engine a ha => exact ⟨htold.react a, hcounted.aside htold ha, hkept.react htold a⟩
  | close subscriber =>
    exact ⟨htold.close subscriber, ⟨hcounted.consistent, hcounted.held, hcounted.config,
      hcounted.place, hcounted.taken, hcounted.count, hcounted.due, hcounted.prunes⟩,
      hkept.congr rfl rfl rfl rfl⟩
  | handle =>
    unfold Attachment.step
    cases hrequest : s.requests[s.handled]? with
    | none => exact ⟨htold, hcounted, hkept⟩
    | some request =>
      exact ⟨htold.handle hrequest, hcounted.handle hrequest,
        hkept.handle htold hcounted hinterval hfits' hrequest⟩
  | take =>
    unfold Attachment.step
    cases hd : s.received[s.seat]?.bind (·[s.taken]?) with
    | none => exact ⟨htold, hcounted, hkept⟩
    | some d =>
      obtain ⟨hposition, hlt⟩ := Regular.offered ⟨htold, hcounted, hkept⟩ hfits' hd
      exact ⟨Told.react (s := { s with taken := s.taken + 1 })
          ⟨htold.handled, htold.next, htold.front, htold.whole⟩ _,
        hcounted.take htold hposition hlt,
        Kept.react (s := { s with taken := s.taken + 1 }) ⟨hkept.below, hkept.get?⟩
          ⟨htold.handled, htold.next, htold.front, htold.whole⟩ _⟩

lemma Regular.run (h : s.Regular interval) (hinterval : 1 ≤ interval) (steps : List Step)
    (hfits : (s.run steps).log.next < 2 ^ 64) : (s.run steps).Regular interval := by
  induction steps generalizing s with
  | nil => exact h
  | cons t rest ih =>
    have hnow : (s.step t).log.next < 2 ^ 64 :=
      Nat.lt_of_le_of_lt ((s.step t).next_le_run rest) hfits
    exact ih (h.step hinterval t hnow) hfits

lemma regular_start (self : NodeId) (config : ReplicationConfig) (store : Store)
    (hinterval : 1 ≤ config.pruneInterval) (subscribers seat : Nat) :
    (start (Engine.start self config store) subscribers seat).Regular config.pruneInterval :=
  ⟨.start _ subscribers seat, .start self config store hinterval subscribers seat,
    .start _ subscribers seat⟩

/-- An engine asks to prune to the position that it applies next. -/
lemma Regular.asked (h : s.Regular interval) (hfits : s.log.next < 2 ^ 64) (t : Step)
    {p : UInt64} (hp : .prune p ∈ (s.step t).requests.drop s.requests.length) :
    p.toNat = (s.step t).engine.next := by
  have hnone : ∀ {l : List LogRequest}, l.filterMap LogRequest.position? = [] → .prune p ∉ l :=
    fun hl hmem => by
      rw [List.filterMap_eq_nil_iff] at hl
      cases hl _ hmem
  cases t with
  | propose value =>
    rw [show (s.step (.propose value)).requests = s.requests ++ [.propose value] from rfl,
      List.drop_left] at hp
    exact absurd hp (hnone rfl)
  | engine a ha =>
    rw [show (s.step (.engine a ha)).requests = s.requests ++ _ from rfl, List.drop_left] at hp
    exact absurd hp (hnone (positions_aside h.counted.consistent ha))
  | close subscriber =>
    rw [show (s.step (.close subscriber)).requests = s.requests from rfl, List.drop_length] at hp
    cases hp
  | handle =>
    have hsame : (s.step .handle).requests = s.requests := by
      unfold Attachment.step
      cases s.requests[s.handled]? with
      | none => rfl
      | some request => rfl
    rw [hsame, List.drop_length] at hp
    cases hp
  | take =>
    unfold Attachment.step at hp ⊢
    cases hd : s.received[s.seat]?.bind (·[s.taken]?) with
    | none =>
      rw [hd] at hp
      simp only [List.drop_length] at hp
      cases hp
    | some d =>
      obtain ⟨hposition, hlt⟩ := h.offered hfits hd
      obtain ⟨hnext, -, hasked⟩ := decided_next h.counted.held d.value
      rw [hd] at hp
      simp only at hp ⊢
      rw [show (s.take d).requests = s.requests ++
        Engine.requestsIn (s.engine.outputOn (.input (.decided d.position.toNat d.value))) from rfl,
        List.drop_left, hposition, hasked] at hp
      rw [show (s.take d).engine =
        s.engine.react (.input (.decided d.position.toNat d.value)) from rfl, hposition, hnext]
      unfold Engine.pruning at hp
      split at hp
      · rw [show p = UInt64.ofNat (s.engine.next + 1) by
          simpa [Engine.requestsIn, Engine.Output.request?] using hp]
        have hplace := h.counted.place
        have hcount := h.told.next
        exact toNat_position (by omega)
      · cases hp

/-- The prunings that an engine asks for are an interval apart. -/
lemma Counted.asked_points (h : s.Counted interval) (htold : s.Told)
    (hfits : s.log.next < 2 ^ 64) :
    s.prunes.map UInt64.toNat = (List.range ((s.engine.next - 1) / interval)).map
      fun k => interval * (k + 1) + 1 := by
  have hcount := h.count
  have hnext := htold.next
  have htaken := h.taken
  have hlength : s.prunes.length = (s.engine.next - 1) / interval := by
    rw [h.place, Nat.add_sub_cancel, hcount, Nat.mul_add_div (by have := h.due; omega),
      Nat.div_eq_of_lt h.due, Nat.add_zero]
  rw [h.prunes, List.map_map, ← hlength]
  refine List.map_congr_left fun k hk => ?_
  have hmul : interval * (k + 1) ≤ interval * s.prunes.length :=
    Nat.mul_le_mul_left _ (List.mem_range.1 hk)
  exact toNat_position (by omega)

/-- The log keeps the positions from the last pruning on. -/
lemma Regular.contains_iff (h : s.Regular interval) (hfits : s.log.next < 2 ^ 64) (q : Nat) :
    s.log.decided.contains q = true ↔ s.prunedTo ≤ q ∧ q < s.log.next := by
  have hnext := h.told.next
  have htaken := h.counted.taken
  obtain ⟨hprunedTo, -⟩ := h.counted.prunedTo (by omega)
  unfold SortedMap.contains
  rw [h.kept.get?]
  by_cases hq : s.prunedTo ≤ q
  · rw [if_pos hq, Option.isSome_iff_ne_none, ne_eq, List.getElem?_eq_none_iff]
    omega
  · rw [if_neg hq]
    simp [hq]

/-- What the engine did not apply yet is kept. -/
theorem unapplied_retained (h : s.Regular interval) (hfits : s.log.next < 2 ^ 64) {q : Nat}
    (hq : s.engine.next ≤ q) : s.log.decided.get? q = s.decided[q - 1]? := by
  have hbound : s.taken + 1 ≤ s.log.next := by
    rw [h.told.next]
    exact Nat.succ_le_succ h.counted.taken
  rw [h.kept.get?, if_pos (Nat.le_trans (h.counted.prunedTo_le (by omega)) hq)]

/-- In every run of an engine that is attached to a log with any subscribers, the proposals are
decided in their order at the positions from one on, and each subscriber is sent these decisions up
to when it stops listening. The engine asks for a pruning whenever the position that it applies next
is one past a multiple of its interval, each time up to that position. Of what was decided the log
keeps exactly the positions from the last pruning that it handled. -/
theorem positions_of_run (self : NodeId) (config : ReplicationConfig) (store : Store)
    (subscribers seat : Nat) (steps : List Step) (hinterval : 1 ≤ config.pruneInterval)
    (hfits : ((start (Engine.start self config store) subscribers seat).run steps).log.next
      < 2 ^ 64) :
    let s := (start (Engine.start self config store) subscribers seat).run steps
    (s.log.next = s.decided.length + 1 ∧ ∀ i d, (decisions s.decided)[i]? = some d →
        d.position.toNat = i + 1 ∧ s.proposed[i]? = some d.value) ∧
      (∀ (j : Nat) (l : List LogIndication), s.received[j]? = some l →
        l <+: decisions s.decided ∧
          (s.log.listening[j]? = some true → l = decisions s.decided)) ∧
      s.prunes.map UInt64.toNat = (List.range ((s.engine.next - 1) / config.pruneInterval)).map
        (fun k => config.pruneInterval * (k + 1) + 1) ∧
      (∀ t p, .prune p ∈ (s.step t).requests.drop s.requests.length →
        p.toNat = (s.step t).engine.next) ∧
      ∀ q, (s.log.decided.contains q = true ↔ s.prunedTo ≤ q ∧ q < s.log.next) ∧
        ∀ value, s.log.decided.get? q = some value → s.proposed[q - 1]? = some value := by
  intro s
  have h : s.Regular config.pruneInterval :=
    (regular_start self config store hinterval subscribers seat).run hinterval steps hfits
  have hfits : s.log.next < 2 ^ 64 := hfits
  have hproposed : ∀ {i : Nat} {value : LogValue}, s.decided[i]? = some value →
      s.proposed[i]? = some value := getElem?_of_prefix ((List.take_prefix _ _).filterMap _)
  refine ⟨⟨h.told.next, fun i d hd => ?_⟩, fun j l hl => ⟨h.told.front j l hl, fun hj => ?_⟩,
    h.counted.asked_points h.told hfits, fun t p hp => h.asked hfits t hp,
    fun q => ⟨h.contains_iff hfits q, fun value hvalue => ?_⟩⟩
  · rw [getElem?_decisions, Option.map_eq_some_iff] at hd
    obtain ⟨value, hvalue, rfl⟩ := hd
    have hlt := (List.getElem?_eq_some_iff.1 hvalue).1
    have hnext := h.told.next
    exact ⟨toNat_position (by omega), hproposed hvalue⟩
  · exact Option.some.inj (hl.symm.trans (h.told.whole j hj))
  · rw [h.kept.get?] at hvalue
    split at hvalue
    · exact hproposed hvalue
    · cases hvalue

/-- Two values are decided, and the second subscriber stops listening after the first. The engine,
which asks for a pruning at every position, takes one decision, and the log prunes. -/
def pruned : Attachment :=
  (start (Engine.start ⟨"a", 1, none⟩ { pruneInterval := 1 } (.ofList [])) 2 0).run
    [.propose .noop, .handle, .close 1, .propose .noop, .handle, .take, .handle]

/-- The first position is pruned and the second one is kept. -/
theorem positions_of_run_pruned : pruned.received.map List.length = [2, 1] ∧
    pruned.prunes.map UInt64.toNat = [2] ∧
      ∀ q, pruned.log.decided.contains q = true ↔ q = 2 := by
  have hlog : pruned.log.next = 3 ∧ pruned.engine.next = 2 ∧ pruned.prunedTo = 2 ∧
      pruned.received.map List.length = [2, 1] := by decide +kernel
  have hfits : pruned.log.next < 2 ^ 64 := by
    rw [hlog.1]
    decide
  have hrun := positions_of_run ⟨"a", 1, none⟩ { pruneInterval := 1 } (.ofList []) 2 0
    [.propose .noop, .handle, .close 1, .propose .noop, .handle, .take, .handle] (by decide) hfits
  have hprunes : pruned.prunes.map UInt64.toNat =
      (List.range ((pruned.engine.next - 1) / 1)).map fun k => 1 * (k + 1) + 1 := hrun.2.2.1
  have hkept : ∀ q, pruned.log.decided.contains q = true ↔
      pruned.prunedTo ≤ q ∧ q < pruned.log.next := fun q => (hrun.2.2.2.2 q).1
  rw [hlog.2.1] at hprunes
  refine ⟨hlog.2.2.2, hprunes, fun q => ?_⟩
  rw [hkept, hlog.1, hlog.2.2.1]
  omega

end Attachment

end ReplicaRing
