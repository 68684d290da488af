import ReplicaRing.Transfer.Exchange
import ReplicaRing.Proofs.SenderSessions

/-!
Two movers between which every frame is delivered once and in order. What one delivery does and
tells is put together to what a row of deliveries does and tells, `Exchange.Reaches.trans`. Once
the wire is empty nothing more happens, however many further deliveries there is room for.
-/

namespace ReplicaRing

/-- A mover at some instant. -/
def Mover.atInstant (m : Mover) (now : Duration) : Mover :=
  { m with timers := { m.timers with now } }

lemma Mover.handle_inbound {m m₁ : Mover} {src : NodeId} {message : Message} {out : List Output}
    (h : m.onMessage src message = (m₁, out)) :
    m.handle (.inbound src message) = .ok (m₁.finishTeardown, out) := by
  unfold handle
  simp only [h]
  rfl

namespace Exchange

/-! ## Traces -/

namespace Trace

@[simp] lemma events_append (t t' : Trace) : (t ++ t').events = t.events ++ t'.events := rfl

lemma append_eq (t t' : Trace) :
    t ++ t' = ⟨t.sent ++ t'.sent, t.events ++ t'.events, t.retries ++ t'.retries⟩ := rfl

lemma append_empty (t : Trace) : t ++ ∅ = t := by
  show (⟨t.sent ++ [], t.events ++ [], t.retries ++ []⟩ : Trace) = t
  rw [List.append_nil, List.append_nil, List.append_nil]

lemma append_assoc (t t' t'' : Trace) : t ++ t' ++ t'' = t ++ (t' ++ t'') := by
  simp only [append_eq, List.append_assoc]

end Trace

/-! ## Rows of deliveries -/

/-- Delivering frames in order comes to a state, and some events are told on the way. -/
def Reaches (x : Exchange) (events : List (NodeId × MoverEvent)) (x' : Exchange) : Prop :=
  ∃ frames trace, trace.events.map Prod.snd = events ∧
    ∀ more, pump (frames + more) x = (pump more x').map fun r => (r.1, trace ++ r.2)

namespace Reaches

variable {x x' x'' : Exchange} {events events' : List (NodeId × MoverEvent)} {trace : Trace}

lemma trans (h : Reaches x events x') (h' : Reaches x' events' x'') :
    Reaches x (events ++ events') x'' := by
  obtain ⟨frames, trace, rfl, hpump⟩ := h
  obtain ⟨frames', trace', rfl, hpump'⟩ := h'
  refine ⟨frames + frames', trace ++ trace', by simp, fun more => ?_⟩
  rw [Nat.add_assoc, hpump, hpump']
  cases pump more x'' with
  | error e => rfl
  | ok r =>
    show Except.ok (r.1, trace ++ (trace' ++ r.2)) = Except.ok (r.1, trace ++ trace' ++ r.2)
    rw [Trace.append_assoc]

/-- One delivery. -/
lemma of_deliver (h : x.deliver 0 = some (.ok (x', trace))) :
    Reaches x (trace.events.map Prod.snd) x' := by
  refine ⟨1, trace, rfl, fun more => ?_⟩
  rw [Nat.add_comm, pump, h]
  cases hmore : pump more x' with
  | error e => simp [hmore, bind, Except.bind, Except.map]
  | ok r => simp [hmore, bind, Except.bind, Except.map, pure, Except.pure]

/-- With an empty wire it ends. -/
theorem stable (h : Reaches x events x') (hwire : x'.wire = []) : ∃ frames trace,
    trace.events.map Prod.snd = events ∧ ∀ n, frames ≤ n → pump n x = .ok (x', trace) := by
  obtain ⟨frames, trace, hevents, hpump⟩ := h
  refine ⟨frames, trace, hevents, fun n hn => ?_⟩
  have hidle : ∀ more, pump more x' = .ok (x', ∅) := by
    intro more
    cases more with
    | zero => rfl
    | succ more =>
      unfold pump deliver
      rw [hwire]
      rfl
  obtain ⟨more, rfl⟩ := Nat.exists_eq_add_of_le hn
  rw [hpump, hidle]
  show Except.ok (x', trace ++ ∅) = _
  rw [Trace.append_empty]

end Reaches

/-! ## Two movers -/

/-- The events that a node tells among some outputs. -/
def toldBy (n : NodeId) (out : List Mover.Output) : List (NodeId × MoverEvent) :=
  (Mover.eventsIn out).map fun e => (n, e)

lemma traceOf_events (now : Duration) (n : NodeId) (out : List Mover.Output) :
    (traceOf now n out).events.map Prod.snd = toldBy n out := by
  unfold traceOf toldBy Mover.eventsIn
  rw [List.map_filterMap, List.map_filterMap]
  congr 1
  funext o
  cases o with
  | send e => rfl
  | event e => rfl

lemma traceOf_sent (now : Duration) (n : NodeId) (out : List Mover.Output) :
    (traceOf now n out).sent.map Prod.snd = Mover.envelopes out := by
  unfold traceOf Mover.envelopes
  rw [List.map_filterMap]
  congr 1
  funext o
  cases o with
  | send e => rfl
  | event e => rfl

section

variable {m m' m₁ : Mover} {a b src : NodeId} {input : Mover.Input} {out : List Mover.Output}
  {now : Duration} (ha : m.self = a)
  (hb : m'.self = b) (hne : a ≠ b)

include ha hb hne

lemma handle_first (wire : List Envelope)
    (h : (m.atInstant now).handle input = .ok (m₁, out)) :
    (⟨[m, m'], wire, now⟩ : Exchange).handle a input =
      .ok (⟨[m₁, m'], wire ++ Mover.envelopes out, now⟩, traceOf now a out) := by
  have hfind : (⟨[m, m'], wire, now⟩ : Exchange).mover? a = some m := by simp [mover?, ha]
  unfold handle
  rw [hfind]
  replace h : Mover.handle { m with timers := { m.timers with now := now } } input = _ := h
  simp only [h, bind, Except.bind, pure, Except.pure, traceOf_sent]
  simp [update, ha, hb, hne.symm]

lemma handle_second (wire : List Envelope)
    (h : (m'.atInstant now).handle input = .ok (m₁, out)) :
    (⟨[m, m'], wire, now⟩ : Exchange).handle b input =
      .ok (⟨[m, m₁], wire ++ Mover.envelopes out, now⟩, traceOf now b out) := by
  have hfind : (⟨[m, m'], wire, now⟩ : Exchange).mover? b = some m' := by
    simp [mover?, ha, hb, hne]
  unfold handle
  rw [hfind]
  replace h : Mover.handle { m' with timers := { m'.timers with now := now } } input = _ := h
  simp only [h, bind, Except.bind, pure, Except.pure, traceOf_sent]
  simp [update, ha, hb, hne]

/-- The only frame on the wire is for the first mover. -/
lemma reaches_first (message : Message)
    (h : (m.atInstant now).onMessage src message = (m₁, out)) :
    Reaches ⟨[m, m'], [⟨src, a, message⟩], now⟩ (toldBy a out)
      ⟨[m₁.finishTeardown, m'], Mover.envelopes out, now⟩ := by
  rw [← traceOf_events now]
  exact .of_deliver (congrArg some (handle_first ha hb hne [] (Mover.handle_inbound h)))

/-- The only frame on the wire is for the second mover. -/
lemma reaches_second (message : Message)
    (h : (m'.atInstant now).onMessage src message = (m₁, out)) :
    Reaches ⟨[m, m'], [⟨src, b, message⟩], now⟩ (toldBy b out)
      ⟨[m, m₁.finishTeardown], Mover.envelopes out, now⟩ := by
  rw [← traceOf_events now]
  exact .of_deliver (congrArg some (handle_second ha hb hne [] (Mover.handle_inbound h)))

end

end Exchange

end ReplicaRing
