import Mathlib.Logic.Function.Basic
import ReplicaRing.Liveness.Oracle
import ReplicaRing.Proofs.DetectorSteps

/-!
An oracle and the failure detector on its node, with the requests of the one and the reports of the
other on their way. Either way keeps the order and loses nothing, and each may be as long behind as
it likes. Only the oracle subscribes.

While a request is on its way the two do not agree on who is watched. What they agree on is who
will be, `LivenessLink.settle`. That is not enough to know that the detector takes a node for live
when the oracle subscribes to it anew, for which its last subscription must have ended before. So
requests have to be in order as well, `LivenessLink.Orderly`.
-/

namespace ReplicaRing

/-- A request of an oracle to the detector. -/
inductive LivenessRequest where
  | subscribe (request : RequestId) (node : NodeId)
  | unsubscribe (request : RequestId)
  deriving DecidableEq

namespace LivenessRequest

def number : LivenessRequest → RequestId
  | subscribe r _ | unsubscribe r => r

/-- The request as the detector gets it. -/
def input : LivenessRequest → Detector.Input
  | subscribe r n => .subscribe r n
  | unsubscribe r => .unsubscribe r

/-- The number that a request subscribes under. -/
def subscribed? : LivenessRequest → Option RequestId
  | subscribe r _ => some r
  | unsubscribe _ => none

/-- Who is watched under each number after a request. -/
def apply (watched : RequestId → Option NodeId) : LivenessRequest → RequestId → Option NodeId
  | subscribe r n => Function.update watched r (some n)
  | unsubscribe r => Function.update watched r none

lemma apply_of_ne (watched : RequestId → Option NodeId) {q : LivenessRequest} {r : RequestId}
    (h : r ≠ q.number) : q.apply watched r = watched r := by
  cases q with
  | subscribe r' n => exact Function.update_of_ne h ..
  | unsubscribe r' => exact Function.update_of_ne h ..

end LivenessRequest

/-- What a request does to a detector, if it does not subscribe to a node that is watched: it
reports nothing, takes the node for live, and changes no other verdict. -/
lemma Detector.handle_request {d : Detector} {q : LivenessRequest}
    (hturn : ∀ r n, q = .subscribe r n → ∀ r', d.subscriptions.get? r' ≠ some n) (now : Duration) :
    (d.handle now q.input).1.subscriptions.get? = q.apply d.subscriptions.get? ∧
      reportsIn (d.handle now q.input).2 = [] ∧
      (∀ r n, r ≠ q.number → d.subscriptions.get? r = some n →
        (n ∈ (d.handle now q.input).1.live ↔ n ∈ d.live)) ∧
      ∀ r n, q = .subscribe r n → n ∈ (d.handle now q.input).1.live := by
  cases q with
  | subscribe r n =>
    have hnew := hturn r n rfl
    obtain ⟨hsubscriptions, hlive, hquiet⟩ := subscribe_new hnew r
    show (d.subscribe r n).1.subscriptions.get? = _ ∧ reportsIn (d.subscribe r n).2 = [] ∧
      (∀ r' m, r' ≠ r → d.subscriptions.get? r' = some m →
        (m ∈ (d.subscribe r n).1.live ↔ m ∈ d.live)) ∧
      ∀ r' m, LivenessRequest.subscribe r n = .subscribe r' m → m ∈ (d.subscribe r n).1.live
    rw [hsubscriptions, hlive]
    refine ⟨?_, hquiet, fun r' m _ hm => ?_, fun r' m heq => ?_⟩
    · funext r'
      exact (SortedMap.get?_insert ..).trans (Function.update_apply ..).symm
    · have hne : m ≠ n := by
        rintro rfl
        exact hnew r' hm
      rw [SortedSet.mem_insert, or_iff_right hne]
    · obtain ⟨-, rfl⟩ := LivenessRequest.subscribe.inj heq
      exact SortedSet.mem_insert.2 (.inl rfl)
  | unsubscribe r =>
    obtain ⟨hsubscriptions, hlive⟩ := d.unsubscribe_eq r
    refine ⟨?_, rfl, fun r' m hne hm => hlive r' m ?_, fun r' m heq => ?_⟩
    · funext r'
      exact (hsubscriptions r').trans (Function.update_apply ..).symm
    · have hne : r' ≠ r := hne
      rw [hsubscriptions, if_neg hne, hm]
    · cases heq

namespace Oracle

def Output.request? : Output → Option LivenessRequest
  | subscribe r n => some (.subscribe r n)
  | unsubscribe r => some (.unsubscribe r)
  | event _ | announce _ => none

/-- The requests among some outputs. -/
def requestsIn (out : List Output) : List LivenessRequest := out.filterMap Output.request?

lemma requestsIn_append (out more : List Output) :
    requestsIn (out ++ more) = requestsIn out ++ requestsIn more := List.filterMap_append

/-- A report of the detector is answered with no request. -/
lemma requestsIn_liveness (o : Oracle) (report : LivenessReport) :
    requestsIn (o.liveness report).2 = [] := by
  have hreelect : ∀ o : Oracle, requestsIn o.reelect.2 = [] := by
    intro o
    unfold reelect
    simp only
    split
    · rfl
    · rfl
  unfold liveness
  split
  · cases report with
    | suspect n r => exact hreelect _
    | restore n r => exact hreelect _
  · rfl

end Oracle

/-- An oracle and a detector, and what is on its way from either to the other. -/
structure LivenessLink where
  oracle : Oracle
  detector : Detector
  /-- The requests that have not reached the detector, the oldest first. -/
  requests : List LivenessRequest
  /-- The reports that have not reached the oracle, the oldest first. -/
  reports : List LivenessReport
  /-- The numbers of all subscriptions so far. -/
  numbers : List RequestId

namespace LivenessLink

inductive Step where
  | install (view : View)
  /-- Other parts of the node draw numbers from the source that the oracle draws from. -/
  | draw (ids : IdSource)
  /-- The detector gets a message from another node. -/
  | inbound (now : Duration) (source : NodeId) (message : Message)
  /-- The detector ends a round. -/
  | tick (now : Duration)
  /-- The oldest request reaches the detector. -/
  | request (now : Duration)
  /-- The oldest report reaches the oracle. -/
  | report

def start (self : NodeId) (ids : IdSource) (config : DetectorConfig) : LivenessLink :=
  ⟨.start self ids, .start self config, [], [], []⟩

/-- The oracle changes, and its requests are on their way. -/
def relay (l : LivenessLink) (next : Oracle × List Oracle.Output) : LivenessLink :=
  { l with
    oracle := next.1
    requests := l.requests ++ Oracle.requestsIn next.2
    numbers := l.numbers ++ (Oracle.requestsIn next.2).filterMap LivenessRequest.subscribed? }

/-- The detector handles an input, and its reports are on their way. -/
def detect (l : LivenessLink) (now : Duration) (input : Detector.Input) : LivenessLink :=
  { l with
    detector := (l.detector.handle now input).1
    reports := l.reports ++ Detector.reportsIn (l.detector.handle now input).2 }

def step (l : LivenessLink) : Step → LivenessLink
  | .install view => l.relay (l.oracle.install view)
  | .draw ids => { l with oracle := { l.oracle with ids } }
  | .inbound now src message => l.detect now (.inbound src message)
  | .tick now => l.detect now .tick
  | .request now =>
    match l.requests with
    | [] => l
    | q :: rest => { l with requests := rest }.detect now q.input
  | .report =>
    match l.reports with
    | [] => l
    | p :: rest => { l with reports := rest }.relay (l.oracle.liveness p)

def run (l : LivenessLink) (steps : List Step) : LivenessLink := steps.foldl step l

lemma relay_relay (l : LivenessLink) (o o' : Oracle) (out more : List Oracle.Output) :
    (l.relay (o, out)).relay (o', more) = l.relay (o', out ++ more) := by
  unfold relay
  simp only [Oracle.requestsIn_append, List.append_assoc, List.filterMap_append]

lemma relay_quiet {l : LivenessLink} {o : Oracle} {out : List Oracle.Output}
    (h : Oracle.requestsIn out = []) : l.relay (o, out) = { l with oracle := o } := by
  unfold relay
  simp only [h, List.filterMap_nil, List.append_nil]

/-- Numbers are only added. -/
lemma numbers_step (l : LivenessLink) (s : Step) : l.numbers <+: (l.step s).numbers := by
  cases s with
  | install view => exact List.prefix_append ..
  | draw ids => exact List.prefix_rfl
  | inbound now src message => exact List.prefix_rfl
  | tick now => exact List.prefix_rfl
  | request now =>
    unfold step
    cases l.requests with
    | nil => exact List.prefix_rfl
    | cons q rest => exact List.prefix_rfl
  | report =>
    unfold step
    cases l.reports with
    | nil => exact List.prefix_rfl
    | cons p rest => exact List.prefix_append ..

/-! ## Requests on their way -/

/-- Who is watched under each number once some requests are through. -/
def settle (watched : RequestId → Option NodeId) (requests : List LivenessRequest) :
    RequestId → Option NodeId :=
  requests.foldl LivenessRequest.apply watched

/-- No request subscribes to a node that is watched already when its turn comes. -/
def Orderly (watched : RequestId → Option NodeId) : List LivenessRequest → Prop
  | [] => True
  | q :: rest =>
    (∀ r n, q = .subscribe r n → ∀ r', watched r' ≠ some n) ∧ Orderly (q.apply watched) rest

section

variable {watched : RequestId → Option NodeId} {requests more : List LivenessRequest}

lemma settle_append : settle watched (requests ++ more) = settle (settle watched requests) more :=
  List.foldl_append

lemma settle_subscribe (r r' : RequestId) (n : NodeId) :
    settle watched (requests ++ [.subscribe r n]) r' =
      if r' = r then some n else settle watched requests r' := by
  rw [settle_append]
  exact Function.update_apply ..

lemma settle_unsubscribe (r r' : RequestId) :
    settle watched (requests ++ [.unsubscribe r]) r' =
      if r' = r then none else settle watched requests r' := by
  rw [settle_append]
  exact Function.update_apply ..

lemma orderly_append :
    Orderly watched (requests ++ more) ↔
      Orderly watched requests ∧ Orderly (settle watched requests) more := by
  induction requests generalizing watched with
  | nil => exact (and_iff_right trivial).symm
  | cons q rest ih =>
    show _ ∧ Orderly _ (rest ++ more) ↔ (_ ∧ Orderly _ rest) ∧ _
    rw [ih, and_assoc]
    rfl

lemma orderly_subscribe (h : Orderly watched requests) {r : RequestId} {n : NodeId}
    (hn : ∀ r', settle watched requests r' ≠ some n) :
    Orderly watched (requests ++ [.subscribe r n]) := by
  refine orderly_append.2 ⟨h, fun r' m heq => ?_, trivial⟩
  obtain ⟨rfl, rfl⟩ := LivenessRequest.subscribe.inj heq
  exact hn

lemma orderly_unsubscribe (h : Orderly watched requests) (r : RequestId) :
    Orderly watched (requests ++ [.unsubscribe r]) := by
  refine orderly_append.2 ⟨h, fun r' m heq => ?_, trivial⟩
  cases heq

/-- Ends of subscriptions leave who is watched under the other numbers. -/
lemma settle_ends (rs : List RequestId) (r : RequestId) :
    settle watched (rs.map .unsubscribe) r = if r ∈ rs then none else watched r := by
  induction rs generalizing watched with
  | nil => rw [if_neg List.not_mem_nil]; rfl
  | cons r' rest ih =>
    show settle _ (rest.map .unsubscribe) r = _
    rw [ih]
    by_cases hrest : r ∈ rest
    · rw [if_pos hrest, if_pos (List.mem_cons_of_mem _ hrest)]
    · rw [if_neg hrest]
      show Function.update watched r' none r = _
      rw [Function.update_apply]
      simp only [List.mem_cons, hrest, or_false]

lemma orderly_ends (rs : List RequestId) : Orderly watched (rs.map .unsubscribe) := by
  induction rs generalizing watched with
  | nil => trivial
  | cons r rest ih =>
    refine ⟨fun r' m heq => ?_, ih⟩
    cases heq

end

end LivenessLink

end ReplicaRing
