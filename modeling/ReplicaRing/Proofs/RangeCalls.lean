import Mathlib.Order.WellFounded
import ReplicaRing.Proofs.ReplicaService

/-!
A range query on its way through a replica. It is asked for page by page, and its current page is at
one place: submitted, decided or answered, `Service.At`. How far the call is from its answer is
measured by the live entries that are left to ask for, and then by where the page is. What the
router, the engine and the log do for others leaves the page where it is, `Service.IsAt.hand` and
`Service.IsAt.arrive`.
-/

namespace ReplicaRing

/-! ## Places in a queue -/

/-- The number of an operation, as one that every operation has. -/
def Operation.number? (op : Operation) : Option OperationId := some op.id

/-- Nothing in a queue has a number. -/
def Lacks {α : Type} (number? : α → Option OperationId) (n : OperationId) (queue : List α) : Prop :=
  ∀ y ∈ queue, number? y ≠ some n

/-- A queue has an entry at a place, and its number nowhere else. -/
def HasAt {α : Type} (number? : α → Option OperationId) (n : OperationId) (x : α) (place : ℕ)
    (queue : List α) : Prop :=
  ∃ front back, queue = front ++ x :: back ∧ front.length = place ∧ Lacks number? n (front ++ back)

/-- A queue grows by what has other numbers. -/
def Grows {α : Type} (number? : α → Option OperationId) (n : OperationId) (queue queue' : List α) :
    Prop :=
  ∃ more, queue' = queue ++ more ∧ Lacks number? n more

section

variable {α : Type} {number? : α → Option OperationId} {n : OperationId} {x y : α} {place : ℕ}
  {queue more : List α}

lemma lacks_nil : Lacks number? n [] := fun y hy => by cases hy

lemma Lacks.append (h : Lacks number? n queue) (hmore : Lacks number? n more) :
    Lacks number? n (queue ++ more) :=
  fun y hy => (List.mem_append.1 hy).elim (h y) (hmore y)

lemma lacks_singleton (hy : number? y ≠ some n) : Lacks number? n [y] := by
  intro z hz
  rw [List.mem_singleton.1 hz]
  exact hy

lemma Lacks.head (h : Lacks number? n (y :: queue)) : number? y ≠ some n :=
  h y List.mem_cons_self

lemma Lacks.tail (h : Lacks number? n (y :: queue)) : Lacks number? n queue :=
  fun z hz => h z (List.mem_cons_of_mem _ hz)

/-- What joins a queue stands at its end. -/
lemma Lacks.concat (h : Lacks number? n queue) (x : α) :
    HasAt number? n x queue.length (queue ++ [x]) :=
  ⟨queue, [], rfl, rfl, by rwa [List.append_nil]⟩

lemma HasAt.append (h : HasAt number? n x place queue) (hmore : Lacks number? n more) :
    HasAt number? n x place (queue ++ more) := by
  obtain ⟨front, back, rfl, hlength, hlacks⟩ := h
  refine ⟨front, back ++ more, by simp, hlength, ?_⟩
  rw [← List.append_assoc]
  exact hlacks.append hmore

lemma not_hasAt_nil : ¬ HasAt number? n x place [] := by
  rintro ⟨front, back, heq, -⟩
  simp at heq

lemma Grows.refl (queue : List α) : Grows number? n queue queue :=
  ⟨[], (List.append_nil _).symm, lacks_nil⟩

lemma Grows.append (hmore : Lacks number? n more) : Grows number? n queue (queue ++ more) :=
  ⟨more, rfl, hmore⟩

lemma Lacks.grow (h : Lacks number? n queue) {queue' : List α}
    (hgrows : Grows number? n queue queue') : Lacks number? n queue' := by
  obtain ⟨more, rfl, hmore⟩ := hgrows
  exact h.append hmore

lemma HasAt.grow (h : HasAt number? n x place queue) {queue' : List α}
    (hgrows : Grows number? n queue queue') : HasAt number? n x place queue' := by
  obtain ⟨more, rfl, hmore⟩ := hgrows
  exact h.append hmore

/-- An entry at the first place is the next to be taken. -/
lemma HasAt.zero (h : HasAt number? n x 0 (y :: queue)) : y = x ∧ Lacks number? n queue := by
  obtain ⟨front, back, heq, hlength, hlacks⟩ := h
  obtain rfl := List.eq_nil_of_length_eq_zero hlength
  obtain ⟨rfl, rfl⟩ := List.cons.inj heq
  exact ⟨rfl, hlacks⟩

/-- Any other moves up when one is taken. -/
lemma HasAt.succ (h : HasAt number? n x (place + 1) (y :: queue)) :
    number? y ≠ some n ∧ HasAt number? n x place queue := by
  obtain ⟨front, back, heq, hlength, hlacks⟩ := h
  cases front with
  | nil => cases hlength
  | cons first front =>
    obtain ⟨rfl, rfl⟩ := List.cons.inj heq
    exact ⟨hlacks.head, front, back, rfl, Nat.succ.inj hlength, hlacks.tail⟩

end

/-! ## Calls -/

/-- A caller's query of a range, and the store that it is about. -/
structure RangeCall where
  id : OperationId
  reply : ReplyTo
  range : KeyRange
  store : Store

/-- All live entries of the range, in key order, and nothing left to ask for. -/
def RangeCall.answer (c : RangeCall) : ReplyTo × Answer :=
  (c.reply, ⟨c.id, .range (c.store.live c.range) none, .zero⟩)

/-- The page that a call waits for: the number it goes under, the range that it is asked for, and
the items of the pages before. -/
structure Leg where
  number : OperationId
  range : KeyRange
  collected : List (Key × Bytes)

def Leg.query (leg : Leg) : Operation := ⟨leg.number, .rangeQuery leg.range none⟩

/-- Where a page is on its way. -/
inductive Station where
  | told
  | decided
  | submitted
  deriving DecidableEq

/-- How many stations come after one. -/
def Station.rank : Station → ℕ
  | told => 0
  | decided => 1
  | submitted => 2

/-- How far a call is from its answer: the live entries that are left to ask for, and where the
page is. -/
structure Distance where
  left : ℕ
  station : Station
  place : ℕ

/-- Fewer entries first, then fewer stations, then fewer places. -/
def Distance.Nearer (d d' : Distance) : Prop :=
  Prod.Lex (· < ·) (Prod.Lex (· < ·) (· < ·)) (d.left, d.station.rank, d.place)
    (d'.left, d'.station.rank, d'.place)

lemma Distance.wf_nearer : WellFounded Distance.Nearer :=
  InvImage.wf (fun d : Distance => (d.left, d.station.rank, d.place))
    (WellFounded.prod_lex Nat.lt_wfRel.wf (WellFounded.prod_lex Nat.lt_wfRel.wf Nat.lt_wfRel.wf))

lemma Distance.Nearer.place (left : ℕ) (station : Station) {place place' : ℕ}
    (h : place' < place) : Nearer ⟨left, station, place'⟩ ⟨left, station, place⟩ :=
  .right _ (.right _ h)

lemma Distance.Nearer.station (left : ℕ) {station station' : Station} (place place' : ℕ)
    (h : station'.rank < station.rank) : Nearer ⟨left, station', place'⟩ ⟨left, station, place⟩ :=
  .right _ (.left _ _ h)

lemma Distance.Nearer.left {left left' : ℕ} (station station' : Station) (place place' : ℕ)
    (h : left' < left) : Nearer ⟨left', station', place'⟩ ⟨left, station, place⟩ :=
  Prod.Lex.left _ _ h

namespace Service

/-- The answers that were given under a number. -/
def answersTo (s : Service) (q : OperationId) : List (ReplyTo × Answer) :=
  s.given.filter fun g => g.2.id = q

/-- What is asked of the engine as long as a call waits: it is ready and responsible for the range,
and its store is as it was. -/
structure Serves (s : Service) (c : RangeCall) : Prop where
  ready : s.engine.state = .ready
  responsible : ∃ r, s.engine.installed = some r ∧ r.responsibility.covers c.range = true
  store : s.engine.store = c.store

/-- The call waits for a page of what is left of its range. -/
structure Awaits (s : Service) (c : RangeCall) (leg : Leg) : Prop where
  waits : OnlyEntry s.router.pending c.id
    (some (leg.number, ⟨c.id, c.reply, true, leg.collected, none⟩))
  unanswered : ∀ g ∈ s.given, g.2.id ≠ c.id
  entries : c.store.live c.range = leg.collected ++ c.store.live leg.range
  covered : ∀ r : KeyRange, r.covers c.range = true → r.covers leg.range = true

/-- The page is at a station, and nothing else has its number. -/
inductive At (s : Service) (c : RangeCall) (leg : Leg) : Station → ℕ → Prop
  | submitted {place : ℕ} :
      HasAt Operation.number? leg.number leg.query place s.submitted →
      Lacks LogValue.number? leg.number s.decided → Lacks EngineEvent.number? leg.number s.events →
      s.engine.executed.contains leg.number = false → s.At c leg .submitted place
  | decided {place : ℕ} :
      Lacks Operation.number? leg.number s.submitted →
      HasAt LogValue.number? leg.number (.operation leg.query) place s.decided →
      Lacks EngineEvent.number? leg.number s.events →
      s.engine.executed.contains leg.number = false → s.At c leg .decided place
  | told {place : ℕ} (items : List (Key × Bytes)) (remaining : Option KeyRange) :
      Lacks Operation.number? leg.number s.submitted →
      Lacks LogValue.number? leg.number s.decided →
      HasAt EngineEvent.number? leg.number
        (.response ⟨leg.number, .range items remaining, .zero⟩) place s.events →
      c.store.PageOf leg.range items remaining → s.At c leg .told place

/-- The call is under way, at a distance from its answer. -/
structure IsAt (s : Service) (c : RangeCall) (d : Distance) (leg : Leg) : Prop where
  awaits : s.Awaits c leg
  left : (c.store.live leg.range).length = d.left
  position : s.At c leg d.station d.place

def UnderWay (s : Service) (c : RangeCall) (d : Distance) : Prop := ∃ leg, s.IsAt c d leg

/-- The call is answered, and nobody waits under its number. -/
structure Answered (s : Service) (c : RangeCall) : Prop where
  waits : OnlyEntry s.router.pending c.id none
  given : s.answersTo c.id = [c.answer]

/-- The station whose queue a step serves. -/
def Step.serves? : Step → Option Station
  | .submission => some .submitted
  | .decision => some .decided
  | .event => some .told
  | .value _ | .engine _ _ | .router _ _ | .amid _ _ _ _ => none

/-- What becomes of a call at a distance: it stays there, it gets nearer to its answer, or it is
answered. It does not stay where its queue is served. -/
inductive Onward (c : RangeCall) (d : Distance) (served : Option Station) (s' : Service) : Prop
  | stays : served ≠ some d.station → s'.UnderWay c d → Onward c d served s'
  | nearer (d' : Distance) : d'.Nearer d → s'.UnderWay c d' → Onward c d served s'
  | answered : s'.Answered c → Onward c d served s'

variable {s : Service} {c : RangeCall} {d : Distance} {leg : Leg} {n : OperationId}

/-- A call waits as before, as long as the router and its answers are the same. -/
lemma Awaits.same (h : s.Awaits c leg) {s' : Service} (hrouter : s'.router = s.router)
    (hgiven : s'.given = s.given) : s'.Awaits c leg :=
  ⟨hrouter ▸ h.waits, hgiven ▸ h.unanswered, h.entries, h.covered⟩

/-! ## What leaves a page where it is -/

/-- The queues grow by what has other numbers, and no such number is put in mind. -/
structure Extends (n : OperationId) (s s' : Service) : Prop where
  submitted : Grows Operation.number? n s.submitted s'.submitted
  decided : Grows LogValue.number? n s.decided s'.decided
  events : Grows EngineEvent.number? n s.events s'.events
  executed : s'.engine.executed.contains n = true → s.engine.executed.contains n = true

lemma At.extend {station : Station} {place : ℕ} (h : s.At c leg station place) {s' : Service}
    (hextends : Extends leg.number s s') : s'.At c leg station place := by
  obtain ⟨hsubmitted, hdecided, hevents, hexecuted⟩ := hextends
  have hnew : s.engine.executed.contains leg.number = false →
      s'.engine.executed.contains leg.number = false := by
    intro hbefore
    rw [Bool.eq_false_iff] at hbefore ⊢
    exact fun hafter => hbefore (hexecuted hafter)
  cases h with
  | submitted hat hd he hx =>
    exact .submitted (hat.grow hsubmitted) (hd.grow hdecided) (he.grow hevents) (hnew hx)
  | decided hs hat he hx =>
    exact .decided (hs.grow hsubmitted) (hat.grow hdecided) (he.grow hevents) (hnew hx)
  | told items remaining hs hd hat hpage =>
    exact .told items remaining (hs.grow hsubmitted) (hd.grow hdecided) (hat.grow hevents) hpage

/-- A fresh number is nowhere in the queues. -/
lemma Fresh.lacks (h : s.Fresh n) :
    Lacks Operation.number? n s.submitted ∧ Lacks LogValue.number? n s.decided ∧
      Lacks EngineEvent.number? n s.events := by
  have hunused := h.unused
  unfold numbers at hunused
  simp only [List.mem_append, not_or] at hunused
  obtain ⟨⟨hsubmitted, hdecided⟩, hevents⟩ := hunused
  refine ⟨fun op hop heq => hsubmitted ?_, fun value hvalue heq => hdecided ?_,
    fun event hevent heq => hevents ?_⟩
  · exact List.mem_map.2 ⟨op, hop, Option.some.inj heq⟩
  · exact List.mem_filterMap.2 ⟨value, hvalue, heq⟩
  · exact List.mem_filterMap.2 ⟨event, hevent, heq⟩

/-- A fresh number is not the one that a call waits under. -/
lemma Awaits.ne_of_fresh (h : s.Awaits c leg) (hfresh : s.Fresh n) : n ≠ leg.number := by
  rintro rfl
  have hget := h.waits.get?
  rw [hfresh.pending] at hget
  cases hget

/-- A call waits under the number of its page. -/
lemma Awaits.waitsUnder (h : s.Awaits c leg) : s.WaitsUnder c.id leg.number :=
  ⟨_, h.waits.get?, rfl⟩

/-- What the router handles for others leaves the page where it is. -/
lemma IsAt.hand (h : s.IsAt c d leg) {input : Router.Input}
    (hwanted : ∀ op reply, input.wanted? = some (op, reply) → op.id ≠ c.id)
    (hanswer : ∀ a, input.answer? = some a → a.id ≠ leg.number)
    (hdrawn : ∀ old new, s.router.renews? input = some (old, new) → new ≠ leg.number) :
    (s.hand input).IsAt c d leg := by
  have hother : ∀ m, m ≠ leg.number → ∀ p,
      some (leg.number, (⟨c.id, c.reply, true, leg.collected, none⟩ : PendingOperation)) ≠
        some (m, p) :=
    fun m hm p heq => hm (Prod.mk.inj (Option.some.inj heq)).1.symm
  -- the entry of the call is spared, as no number that the input is about is its own
  obtain ⟨hwaits, hgiven, hsubmitted⟩ := Router.spares_handle h.awaits.waits
    (fun m p heq => by cases heq; rfl) input hwanted (fun a ha => hother _ (hanswer a ha))
    (fun old new hnew => hother _ (hdrawn old new hnew))
  refine ⟨⟨hwaits, fun g hg => ?_, h.awaits.entries, h.awaits.covered⟩, h.left,
    h.position.extend ?_⟩
  · exact (List.mem_append.1 hg).elim (h.awaits.unanswered g) (hgiven g)
  · refine ⟨.append fun op hop heq => ?_, .refl _, .refl _, id⟩
    exact hsubmitted op hop _ (by rw [← Option.some.inj heq])

/-- What an engine says on an input, and what it puts in mind, has the numbers of what the input
decides. -/
lemma InOrder.lacks_of_decides {e : Engine} (horder : InOrder e) (hready : e.state = .ready)
    {i : Engine.Input} (hn : n ∉ e.decides i) :
    Lacks LogValue.number? n (Engine.proposalsIn (e.outputOf i)) ∧
      Lacks EngineEvent.number? n (Engine.eventsIn (e.outputOf i)) ∧
      ((e.receive i).executed.contains n = true → e.executed.contains n = true) := by
  have hnone : e.deferred = [] := horder.consistent.deferred
    (horder.consistent.awaiting_of_ne_syncing (by rw [hready]; simp))
  refine ⟨?_, fun event hevent heq => hn ?_, fun hafter => ?_⟩
  · rw [Engine.proposalsIn_outputOf horder.consistent]
    exact lacks_nil
  · exact Engine.decides_of_told horder.consistent hnone i hevent heq
  · exact (Engine.decides_of_executed horder.consistent hnone i hafter).resolve_right hn

/-- What comes to the engine from elsewhere leaves the page where it is. -/
lemma IsAt.arrive (h : s.IsAt c d leg) (horder : InOrder s.engine) (hserves : s.Serves c)
    {a : Engine.Arrival} (haside : a.isAside = true) : (s.arrive a).IsAt c d leg := by
  refine ⟨h.awaits.same rfl rfl, h.left, h.position.extend ?_⟩
  cases a with
  | input i =>
    have hnone : leg.number ∉ s.engine.decides i := by
      rw [Engine.decides_of_not_decision (by simpa [Engine.Arrival.isAside] using haside)]
      simp
    obtain ⟨hproposed, htold, hexecuted⟩ := horder.lacks_of_decides hserves.ready hnone
    exact ⟨.refl _, .append hproposed, .append htold, hexecuted⟩
  | submit op => cases haside
  | store store => exact ⟨.refl _, .append lacks_nil, .append lacks_nil, id⟩
  | propose r =>
    have hsaid : s.engine.outputOn (.propose r) = [.log (.propose (.reconfigure r))] ∨
        s.engine.outputOn (.propose r) = [] := by
      show s.engine.propose r = _ ∨ s.engine.propose r = _
      unfold Engine.propose
      split
      · exact .inl rfl
      · exact .inr rfl
    refine ⟨.refl _, .append ?_, .append ?_, id⟩
    · rcases hsaid with hsaid | hsaid
      · rw [hsaid]
        exact lacks_singleton fun heq => by cases heq
      · rw [hsaid]
        exact lacks_nil
    · rcases hsaid with hsaid | hsaid
      · rw [hsaid]
        exact lacks_nil
      · rw [hsaid]
        exact lacks_nil

end Service

end ReplicaRing
