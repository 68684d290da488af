import Mathlib.Tactic.IntervalCases
import ReplicaRing.Proofs.RangeCalls

/-!
Every range query is answered as a whole. A step leaves a call that is under way where it is, or
brings it nearer to its answer, `Service.onward_step`: further along its queue, from one queue to
the next, or to a page for fewer live entries. So if every queue is served again and again, the
caller gets one answer, with all live entries of the range, `Service.range_answered`.
-/

namespace ReplicaRing

namespace Service

variable {s : Service} {c : RangeCall} {d : Distance} {leg : Leg}

/-! ## What brings a page on -/

/-- The engine proposes the oldest submission. -/
lemma onward_submission (h : s.UnderWay c d) (hserves : s.Serves c) :
    Onward c d (some .submitted) (s.step .submission) := by
  obtain ⟨leg, ⟨hawaits, hleft, hat⟩⟩ := h
  obtain ⟨left, station, place⟩ := d
  cases hqueue : s.submitted with
  | nil =>
    have hstep : s.step .submission = s := by simp only [Service.step, hqueue]
    rw [hstep]
    refine .stays (fun heq => ?_) ⟨leg, hawaits, hleft, hat⟩
    cases heq
    cases hat with
    | submitted hhas _ _ _ => exact not_hasAt_nil (hqueue ▸ hhas)
  | cons op rest =>
    have hstep : s.step .submission = { s with
        submitted := rest
        decided := s.decided ++ [.operation op]
        events := s.events ++ [] } := by
      have hsaid : s.engine.submit op = [.log (.propose (.operation op))] := by
        unfold Engine.submit
        rw [if_neg (by rw [hserves.ready]; simp)]
      simp only [Service.step, hqueue]
      unfold Service.arrive
      show ({ s with submitted := rest, decided := _, events := _ } : Service) = _
      simp only [Engine.outputOn, hsaid]
      rfl
    rw [hstep, List.append_nil]
    cases hat with
    | submitted hhas hd he hx =>
      rw [hqueue] at hhas
      cases place with
      | zero =>
        obtain ⟨rfl, hrest⟩ := hhas.zero
        refine .nearer ⟨left, .decided, s.decided.length⟩ (.station _ _ _ (by decide))
          ⟨leg, hawaits.same rfl rfl, hleft, ?_⟩
        exact .decided hrest (hd.concat _) he hx
      | succ place =>
        obtain ⟨hne, hrest⟩ := hhas.succ
        refine .nearer ⟨left, .submitted, place⟩ (.place _ _ (by omega))
          ⟨leg, hawaits.same rfl rfl, hleft, ?_⟩
        exact .submitted hrest (hd.append (lacks_singleton hne)) he hx
    | decided hs hhas he hx =>
      rw [hqueue] at hs
      refine .stays (by simp) ⟨leg, hawaits.same rfl rfl, hleft, ?_⟩
      exact .decided hs.tail (hhas.append (lacks_singleton hs.head)) he hx
    | told items remaining hs hd hhas hpage =>
      rw [hqueue] at hs
      refine .stays (by simp) ⟨leg, hawaits.same rfl rfl, hleft, ?_⟩
      exact .told items remaining hs.tail (hd.append (lacks_singleton hs.head)) hhas hpage

/-- The engine applies the oldest decision: its own page is answered, and others are to others. -/
lemma onward_decision (h : s.UnderWay c d) (horder : InOrder s.engine) (hserves : s.Serves c)
    (hscan : c.store.refused.contains .scan = false) :
    Onward c d (some .decided) (s.step .decision) := by
  obtain ⟨leg, ⟨hawaits, hleft, hat⟩⟩ := h
  obtain ⟨left, station, place⟩ := d
  cases hqueue : s.decided with
  | nil =>
    have hstep : s.step .decision = s := by simp only [Service.step, hqueue]
    rw [hstep]
    refine .stays (fun heq => ?_) ⟨leg, hawaits, hleft, hat⟩
    cases heq
    cases hat with
    | decided _ hhas _ _ => exact not_hasAt_nil (hqueue ▸ hhas)
  | cons value rest =>
    have hstep : s.step .decision =
        ({ s with decided := rest } : Service).arrive
          (.input (.decided s.engine.next value)) := by
      simp only [Service.step, hqueue]
    rw [hstep]
    -- a value with another number says nothing about the page
    have hextends : value.number? ≠ some leg.number → Extends leg.number { s with decided := rest }
        (({ s with decided := rest } : Service).arrive
          (.input (.decided s.engine.next value))) := by
      intro hne
      have hnot : leg.number ∉ s.engine.decides (.decided s.engine.next value) := by
        rw [Engine.decides_of_held_empty horder.held, Option.mem_toList]
        exact hne
      obtain ⟨hproposed, htold, hexecuted⟩ := horder.lacks_of_decides hserves.ready hnot
      exact ⟨.refl _, .append hproposed, .append htold, hexecuted⟩
    cases hat with
    | submitted hhas hd he hx =>
      rw [hqueue] at hd
      refine .stays (by simp) ⟨leg, hawaits.same rfl rfl, hleft, ?_⟩
      exact (At.submitted (s := { s with decided := rest }) hhas hd.tail he hx).extend
        (hextends hd.head)
    | told items remaining hs hd hhas hpage =>
      rw [hqueue] at hd
      refine .stays (by simp) ⟨leg, hawaits.same rfl rfl, hleft, ?_⟩
      exact (At.told (s := { s with decided := rest }) items remaining hs hd.tail hhas hpage).extend
        (hextends hd.head)
    | decided hs hhas he hx =>
      rw [hqueue] at hhas
      cases place with
      | succ place =>
        obtain ⟨hne, hrest⟩ := hhas.succ
        refine .nearer ⟨left, .decided, place⟩ (.place _ _ (by omega))
          ⟨leg, hawaits.same rfl rfl, hleft, ?_⟩
        exact (At.decided (s := { s with decided := rest }) hs hrest he hx).extend (hextends hne)
      | zero =>
        obtain ⟨rfl, hrest⟩ := hhas.zero
        obtain ⟨r, hinstalled, hcovers⟩ := hserves.responsible
        obtain ⟨items, remaining, hexecute, hpage⟩ := Engine.execute_range
          (hserves.store ▸ hscan) horder.pageItems hinstalled (hawaits.covered _ hcovers) hx
        rw [hserves.store] at hpage
        have htold : Engine.eventsIn (s.engine.outputOn
            (.input (.decided s.engine.next (.operation leg.query)))) =
              [.response ⟨leg.number, .range items remaining, .zero⟩] := by
          have hwait := horder.consistent.awaiting_of_ne_syncing (by rw [hserves.ready]; simp)
          rw [← hexecute]
          exact Engine.eventsIn_operation horder.held hwait leg.query
        have hproposed : Engine.proposalsIn (s.engine.outputOn
            (.input (.decided s.engine.next (.operation leg.query)))) = [] :=
          Engine.proposalsIn_outputOf horder.consistent
            (.decided s.engine.next (.operation leg.query))
        refine .nearer ⟨left, .told, s.events.length⟩ (.station _ _ _ (by decide))
          ⟨leg, hawaits.same rfl rfl, hleft, .told items remaining hs ?_ ?_ hpage⟩
        · show Lacks _ _ (rest ++ Engine.proposalsIn _)
          rw [hproposed, List.append_nil]
          exact hrest
        · show HasAt _ _ _ _ (s.events ++ Engine.eventsIn _)
          rw [htold]
          exact he.concat _

/-- The last page answers the call. -/
lemma Awaits.answered_of_last (h : s.Awaits c leg) {items : List (Key × Bytes)}
    (hall : c.store.live leg.range = items) :
    (s.hand (.engine (.response ⟨leg.number, .range items none, .zero⟩))).Answered c := by
  have hwaits : OnlyEntry ({ s.router with
      stats := s.router.stats.recordDelta .zero } : Router).pending c.id
      (some (leg.number, ⟨c.id, c.reply, true, leg.collected, none⟩)) := h.waits
  obtain ⟨hfree, -, hgiven⟩ := Router.respond_last hwaits items .zero
  have hbefore : s.given.filter (fun g => g.2.id = c.id) = [] :=
    List.filter_eq_nil_iff.2 fun g hg => by simpa using h.unanswered g hg
  refine ⟨hfree, ?_⟩
  show (s.given ++ Router.givenIn (Router.respond _ _).2).filter _ = [c.answer]
  rw [hgiven, List.filter_append, hbefore, ← hall, ← h.entries]
  simp [RangeCall.answer]

/-- Any other page is kept, and the next one is submitted. -/
lemma Awaits.awaits_of_more (h : s.Awaits c leg) {items : List (Key × Bytes)} {rest : KeyRange}
    (hsplit : c.store.live leg.range = items ++ c.store.live rest)
    (hcovered : ∀ r : KeyRange, r.covers leg.range = true → r.covers rest = true) :
    let next : Leg := ⟨s.router.ids.next.1, rest, leg.collected ++ items⟩
    let s' := s.hand (.engine (.response ⟨leg.number, .range items (some rest), .zero⟩))
    s'.Awaits c next ∧ s'.submitted = s.submitted ++ [next.query] := by
  have hwaits : OnlyEntry ({ s.router with
      stats := s.router.stats.recordDelta .zero } : Router).pending c.id
      (some (leg.number, ⟨c.id, c.reply, true, leg.collected, none⟩)) := h.waits
  obtain ⟨hwaits', hsubmitted, hgiven⟩ := Router.respond_more hwaits rfl items rest .zero
  refine ⟨⟨hwaits', fun g hg => h.unanswered g ?_, ?_, fun r hr => hcovered r (h.covered r hr)⟩, ?_⟩
  · have hin : g ∈ s.given ++ Router.givenIn (Router.respond _ _).2 := hg
    rwa [hgiven, List.append_nil] at hin
  · rw [h.entries, hsplit, List.append_assoc]
  · show s.submitted ++ Router.submittedIn (Router.respond _ _).2 = _
    rw [hsubmitted]
    rfl

/-- The router takes the oldest event: the answer with its own page, or something for others. -/
lemma onward_event (h : s.UnderWay c d)
    (hdraws : ∀ event ∈ s.events.head?, s.DrawsFresh (.engine event)) :
    Onward c d (some .told) (s.step .event) := by
  obtain ⟨leg, ⟨hawaits, hleft, hat⟩⟩ := h
  obtain ⟨left, station, place⟩ := d
  cases hqueue : s.events with
  | nil =>
    have hstep : s.step .event = s := by simp only [Service.step, hqueue]
    rw [hstep]
    refine .stays (fun heq => ?_) ⟨leg, hawaits, hleft, hat⟩
    cases heq
    cases hat with
    | told items remaining _ _ hhas _ => exact not_hasAt_nil (hqueue ▸ hhas)
  | cons event rest =>
    have hfresh : s.DrawsFresh (.engine event) := hdraws event (by rw [hqueue]; rfl)
    have hstep : s.step .event = ({ s with events := rest } : Service).hand (.engine event) := by
      simp only [Service.step, hqueue]
    rw [hstep]
    have hother : event.number? ≠ some leg.number → ∀ place',
        ({ s with events := rest } : Service).At c leg station place' →
        (({ s with events := rest } : Service).hand (.engine event)).IsAt c
          ⟨left, station, place'⟩ leg := by
      intro hne place' hat'
      have hbefore : ({ s with events := rest } : Service).IsAt c ⟨left, station, place'⟩ leg :=
        ⟨hawaits.same rfl rfl, hleft, hat'⟩
      refine hbefore.hand (fun op reply heq => by cases heq) (fun a ha heq => hne ?_)
        fun old new hnew => hawaits.ne_of_fresh (hfresh old new hnew)
      cases event with
      | response a' =>
        cases ha
        exact congrArg some heq
      | _ => cases ha
    cases hat with
    | submitted hhas hd he hx =>
      rw [hqueue] at he
      exact .stays (by simp) ⟨leg, hother he.head _ (.submitted hhas hd he.tail hx)⟩
    | decided hs hhas he hx =>
      rw [hqueue] at he
      exact .stays (by simp) ⟨leg, hother he.head _ (.decided hs hhas he.tail hx)⟩
    | told items remaining hs hd hhas hpage =>
      rw [hqueue] at hhas
      cases place with
      | succ place =>
        obtain ⟨hne, hrest⟩ := hhas.succ
        exact .nearer ⟨left, .told, place⟩ (.place _ _ (by omega))
          ⟨leg, hother hne _ (.told items remaining hs hd hrest hpage)⟩
      | zero =>
        obtain ⟨rfl, hrest⟩ := hhas.zero
        have hown : ({ s with events := rest } : Service).Awaits c leg := hawaits.same rfl rfl
        cases hpage with
        | last hall => exact .answered (hown.answered_of_last hall)
        | more rest' hne hsplit hcovered =>
          obtain ⟨hnext, hsubmitted⟩ := hown.awaits_of_more hsplit hcovered
          have hnew : s.Fresh s.router.ids.next.1 :=
            hfresh _ _ (Router.renewedBy_more hawaits.waits rfl items rest' .zero)
          obtain ⟨hs', hd', he'⟩ := hnew.lacks
          -- the page was not empty, so fewer entries are left than before
          have hless : (c.store.live rest').length < left := by
            have hpage : 0 < items.length := List.length_pos_iff.2 hne
            have hall : (c.store.live leg.range).length = left := hleft
            rw [hsplit, List.length_append] at hall
            omega
          refine .nearer ⟨(c.store.live rest').length, .submitted, s.submitted.length⟩
            (.left _ _ _ _ hless)
            ⟨_, hnext, rfl, .submitted ?_ hd' (hqueue ▸ he').tail hnew.executed⟩
          rw [hsubmitted]
          exact hs'.concat _

/-! ## Schedules -/

/-- Whatever happens, a call that is under way stays where it is, gets nearer to its answer or is
answered. -/
theorem onward_step (h : s.UnderWay c d) (horder : InOrder s.engine) (hserves : s.Serves c)
    (hscan : c.store.refused.contains .scan = false) {t : Step} (hrespects : s.Respects c.id t) :
    Onward c d t.serves? (s.step t) := by
  cases t with
  | submission => exact onward_submission h hserves
  | decision => exact onward_decision h horder hserves hscan
  | event => exact onward_event h hrespects
  | value value =>
    obtain ⟨leg, hat⟩ := h
    refine .stays (by simp [Step.serves?]) ⟨leg, hat.awaits.same rfl rfl, hat.left,
      hat.position.extend ⟨.refl _, .append ?_, .refl _, id⟩⟩
    exact lacks_singleton fun heq => hrespects _ heq hat.awaits.waitsUnder
  | engine a haside =>
    obtain ⟨leg, hat⟩ := h
    exact .stays (by simp [Step.serves?]) ⟨leg, hat.arrive horder hserves haside⟩
  | router input hinput =>
    obtain ⟨leg, hat⟩ := h
    obtain ⟨hwanted, hanswer, hdraws⟩ := hrespects
    refine .stays (by simp [Step.serves?]) ⟨leg, hat.hand hwanted (fun a ha heq => ?_)
      fun old new hnew => hat.awaits.ne_of_fresh (hdraws old new hnew)⟩
    exact hanswer a ha (heq ▸ hat.awaits.waitsUnder)
  | amid ids timers placement placementFault =>
    obtain ⟨leg, hat⟩ := h
    refine .stays (by simp [Step.serves?])
      ⟨leg, ⟨hat.awaits.waits, hat.awaits.unanswered, hat.awaits.entries, hat.awaits.covered⟩,
        hat.left, hat.position.extend ⟨.refl _, .refl _, .refl _, id⟩⟩

/-- A call that is answered stays so, and is not answered again. -/
lemma Answered.step (h : s.Answered c) {t : Step} (hrespects : s.Respects c.id t) :
    (s.step t).Answered c := by
  have hhand : ∀ s' : Service, s'.Answered c → ∀ input : Router.Input,
      (∀ op reply, input.wanted? = some (op, reply) → op.id ≠ c.id) →
      (s'.hand input).Answered c := by
    intro s' h' input hwanted
    obtain ⟨hwaits, hgiven, -⟩ := Router.spares_handle h'.waits (fun n p heq => by cases heq) input
      hwanted (fun a _ p heq => by cases heq) (fun old new _ p heq => by cases heq)
    refine ⟨hwaits, ?_⟩
    have hnone :
        (Router.givenIn (s'.router.handle input).2).filter (fun g => g.2.id = c.id) = [] :=
      List.filter_eq_nil_iff.2 fun g hg => by simpa using hgiven g hg
    show (s'.given ++ Router.givenIn _).filter _ = _
    rw [List.filter_append, hnone, List.append_nil]
    exact h'.given
  cases t with
  | submission =>
    unfold Service.step
    cases s.submitted with
    | nil => exact h
    | cons op rest => exact ⟨h.waits, h.given⟩
  | decision =>
    unfold Service.step
    cases s.decided with
    | nil => exact h
    | cons value rest => exact ⟨h.waits, h.given⟩
  | event =>
    unfold Service.step
    cases s.events with
    | nil => exact h
    | cons event rest =>
      exact hhand { s with events := rest } ⟨h.waits, h.given⟩ (.engine event)
        fun op reply heq => by cases heq
  | value value => exact ⟨h.waits, h.given⟩
  | engine a haside => exact ⟨h.waits, h.given⟩
  | router input hinput => exact hhand s h input hrespects.1
  | amid ids timers placement placementFault => exact ⟨h.waits, h.given⟩

lemma UnderWay.unanswered (h : s.UnderWay c d) : s.answersTo c.id = [] := by
  obtain ⟨leg, hat⟩ := h
  exact List.filter_eq_nil_iff.2 fun g hg => by simpa using hat.awaits.unanswered g hg

/-- A request that an active router takes for its own range is under way. -/
lemma underWay_request {q : OperationId} {range : KeyRange} (reply : ReplyTo)
    (hactive : s.router.state = .active)
    (hinside : s.router.responsibility.any (·.covers range) = true)
    (hwaits : OnlyEntry s.router.pending q none) (hgiven : s.answersTo q = [])
    (hfresh : s.Fresh q) :
    ∃ d, (s.hand (.request ⟨q, .rangeQuery range none⟩ reply)).UnderWay
      ⟨q, reply, range, s.engine.store⟩ d := by
  obtain ⟨hwaits', hsubmitted, hnone⟩ :=
    Router.request_range hwaits hactive hinside hfresh.pending reply
  obtain ⟨hs, hd, he⟩ := hfresh.lacks
  refine ⟨⟨(s.engine.store.live range).length, .submitted, s.submitted.length⟩, ⟨q, range, []⟩,
    ⟨hwaits', fun g hg => ?_, rfl, fun r hr => hr⟩, rfl, .submitted ?_ hd he hfresh.executed⟩
  · have hin : g ∈ s.given ++ Router.givenIn (Router.request _ _ _).2 := hg
    rw [hnone, List.append_nil] at hin
    simpa using List.filter_eq_nil_iff.1 hgiven g hin
  · show HasAt _ _ _ _ (s.submitted ++ Router.submittedIn (Router.request _ _ _).2)
    rw [hsubmitted]
    exact hs.concat _

/-- A schedule that a call can be answered under: the store lets scans through, each step respects
the numbers of the call, and the engine serves it as long as it is not answered. -/
structure Steady (s : Service) (c : RangeCall) (schedule : ℕ → Step) : Prop where
  inOrder : InOrder s.engine
  scans : c.store.refused.contains .scan = false
  respects : ∀ k, (s.after schedule k).Respects c.id (schedule k)
  serves : ∀ k, (s.after schedule k).answersTo c.id = [] → (s.after schedule k).Serves c

/-- Every queue is served again and again. -/
def Fair (schedule : ℕ → Step) : Prop :=
  ∀ station k, ∃ j, k ≤ j ∧ (schedule j).serves? = some station

namespace Steady

variable {schedule : ℕ → Step} {k : ℕ}

lemma onward (h : s.Steady c schedule) (hunder : (s.after schedule k).UnderWay c d) :
    Onward c d (schedule k).serves? (s.after schedule (k + 1)) :=
  onward_step hunder (h.inOrder.after schedule k) (h.serves k hunder.unanswered) h.scans
    (h.respects k)

lemma underWay_or_answered (h : s.Steady c schedule) (hunder : ∃ d, s.UnderWay c d) (k : ℕ) :
    (∃ d, (s.after schedule k).UnderWay c d) ∨ (s.after schedule k).Answered c := by
  induction k with
  | zero => exact .inl hunder
  | succ k ih =>
    rcases ih with ⟨d, hd⟩ | hanswered
    · cases h.onward hd with
      | stays _ hnext => exact .inl ⟨d, hnext⟩
      | nearer d' _ hnext => exact .inl ⟨d', hnext⟩
      | answered hdone => exact .inr hdone
    · exact .inr (hanswered.step (h.respects k))

lemma answered_of_le (h : s.Steady c schedule) (hanswered : (s.after schedule k).Answered c)
    {j : ℕ} (hj : k ≤ j) : (s.after schedule j).Answered c := by
  induction j, hj using Nat.le_induction with
  | base => exact hanswered
  | succ j _ ih => exact ih.step (h.respects j)

/-- Where every queue is served again and again, a call that is under way is answered. -/
theorem eventually (h : s.Steady c schedule) (hfair : Fair schedule)
    (hunder : (s.after schedule k).UnderWay c d) :
    ∃ j, k ≤ j ∧ (s.after schedule j).Answered c := by
  induction d using Distance.wf_nearer.induction generalizing k with
  | h d ih =>
    -- the call waits until its queue is served, or gets on before
    obtain ⟨j, hj, hserved⟩ := hfair d.station k
    obtain ⟨wait, rfl⟩ := Nat.exists_eq_add_of_le hj
    clear hj
    induction wait generalizing k with
    | zero =>
      cases h.onward hunder with
      | stays hother _ => exact absurd hserved hother
      | nearer d' hd' hnext =>
        obtain ⟨j, hj, hdone⟩ := ih d' hd' hnext
        exact ⟨j, by omega, hdone⟩
      | answered hdone => exact ⟨k + 1, by omega, hdone⟩
    | succ wait ihwait =>
      cases h.onward hunder with
      | stays _ hnext =>
        obtain ⟨j, hj, hdone⟩ := ihwait hnext (by rwa [Nat.add_right_comm, Nat.add_assoc])
        exact ⟨j, by omega, hdone⟩
      | nearer d' hd' hnext =>
        obtain ⟨j, hj, hdone⟩ := ih d' hd' hnext
        exact ⟨j, by omega, hdone⟩
      | answered hdone => exact ⟨k + 1, by omega, hdone⟩

end Steady

/-- A range query without a limit that comes to an active router, for a range that the replica is
responsible for and under a fresh number, is answered once: after some time with all live entries
of the range in key order, and before that not at all. -/
theorem range_answered {s started : Service} {q : OperationId} {range : KeyRange} {reply : ReplyTo}
    {schedule : ℕ → Step} (hactive : s.router.state = .active)
    (hinside : s.router.responsibility.any (·.covers range) = true)
    (hwaits : OnlyEntry s.router.pending q none) (hgiven : s.answersTo q = [])
    (hfresh : s.Fresh q)
    (hstarted : started = s.hand (.request ⟨q, .rangeQuery range none⟩ reply))
    (hsteady : started.Steady ⟨q, reply, range, s.engine.store⟩ schedule) (hfair : Fair schedule) :
    ∃ items : List (Key × Bytes),
      items.Pairwise (fun x y => compare x.1 y.1 = .lt) ∧
      (∀ k v, (k, v) ∈ items ↔ s.engine.store.value? k = some v ∧ range.contains k = true) ∧
      (∀ k, (started.after schedule k).answersTo q = [] ∨
        (started.after schedule k).answersTo q = [(reply, ⟨q, .range items none, .zero⟩)]) ∧
      ∃ k, ∀ j, k ≤ j →
        (started.after schedule j).answersTo q = [(reply, ⟨q, .range items none, .zero⟩)] := by
  have hunder := underWay_request reply hactive hinside hwaits hgiven hfresh
  rw [← hstarted] at hunder
  refine ⟨s.engine.store.live range, s.engine.store.ascending_live range,
    fun k v => Store.mem_live, fun k => ?_, ?_⟩
  · rcases hsteady.underWay_or_answered hunder k with ⟨d, hd⟩ | hanswered
    · exact .inl hd.unanswered
    · exact .inr hanswered.given
  · obtain ⟨d, hd⟩ := hunder
    obtain ⟨k, -, hanswered⟩ := hsteady.eventually hfair (k := 0) hd
    exact ⟨k, fun j hj => (hsteady.answered_of_le hanswered hj).given⟩

namespace TwoPages

def a : NodeId := ⟨"a", 1, none⟩

/-- Two live entries with a tombstone between them. -/
def store : Store := (Store.ofList [([1], [7]), ([2], [7]), ([3], [8])]).write [2] none

/-- A replica whose pages hold one item. -/
def idle : Service :=
  ⟨.start a 5 (.ofList [([], [a])]) ⟨0, 0⟩, [], .start a { pageItems := 1 } store, [], [], []⟩

/-- The log decides a view of this replica alone, for a range that holds no data yet, and the engine
and the router take it in. -/
def opened : Service :=
  (((idle.step (.value (.reconfigure ⟨.ofList 1 [a], 1, 0, .halfOpen [] [9]⟩))).step .decision).step
    .event).step .event

def asked : Service := opened.hand (.request ⟨10, .rangeQuery (.closed [1] [5]) none⟩ (.caller 0))

/-- The queues are served in turn. -/
def inTurn (k : ℕ) : Step :=
  if k % 3 = 0 then .submission else if k % 3 = 1 then .decision else .event

lemma fair_inTurn : Fair inTurn := by
  intro station k
  cases station with
  | submitted => exact ⟨3 * k, by omega, by simp [inTurn, Step.serves?]⟩
  | decided =>
    refine ⟨3 * k + 1, by omega, ?_⟩
    simp [inTurn, Step.serves?, Nat.add_mod]
  | told =>
    refine ⟨3 * k + 2, by omega, ?_⟩
    simp [inTurn, Step.serves?, Nat.add_mod]

/-- Both pages are read after six steps, and from then on nothing is left to take. -/
lemma after_inTurn (k : ℕ) : asked.after inTurn k = asked.after inTurn (min k 6) := by
  have hsettled : ∀ n, asked.after inTurn (6 + n) = asked.after inTurn 6 := by
    intro n
    induction n with
    | zero => rfl
    | succ n ih =>
      show (asked.after inTurn (6 + n)).step (inTurn (6 + n)) = _
      rw [ih]
      unfold inTurn
      split
      · rfl
      · split
        · rfl
        · rfl
  by_cases hk : k ≤ 6
  · rw [Nat.min_eq_left hk]
  · obtain ⟨n, rfl⟩ := Nat.exists_eq_add_of_le (Nat.le_of_not_le hk)
    rw [hsettled, Nat.min_eq_right (by omega)]

lemma inOrder_opened : InOrder opened.engine := by
  have hidle : InOrder idle.engine := ⟨Engine.consistent_start _ _ _, rfl, Nat.le_refl 1⟩
  exact (((hidle.step _).step .decision).step .event).step .event

lemma respects_inTurn (k : ℕ) : (asked.after inTurn k).Respects 10 (inTurn k) := by
  have hturn : inTurn k = .submission ∨ inTurn k = .decision ∨ inTurn k = .event ∧ k % 3 = 2 := by
    unfold inTurn
    split
    · exact .inl rfl
    · split
      · exact .inr (.inl rfl)
      · exact .inr (.inr ⟨rfl, by omega⟩)
  rcases hturn with hturn | hturn | ⟨hturn, hk⟩
  · rw [hturn]
    trivial
  · rw [hturn]
    trivial
  · -- a number is drawn with the first page only
    rw [hturn, after_inTurn]
    have hevents : min k 6 = 2 ∨ min k 6 = 5 ∨ min k 6 = 6 := by omega
    intro event hevent old new hnew
    rcases hevents with hk | hk | hk
    · rw [hk] at hevent hnew ⊢
      cases hevent
      obtain ⟨-, rfl⟩ : 10 = old ∧ 1 = new := Prod.mk.inj (Option.some.inj hnew)
      exact ⟨rfl, rfl, by decide⟩
    · rw [hk] at hevent hnew
      cases hevent
      cases hnew
    · rw [hk] at hevent
      cases hevent

lemma serves_inTurn (k : ℕ) : (asked.after inTurn k).Serves
    ⟨10, .caller 0, .closed [1] [5], opened.engine.store⟩ := by
  rw [after_inTurn]
  have hk : min k 6 ≤ 6 := Nat.min_le_right k 6
  generalize min k 6 = n at hk
  interval_cases n
  · exact ⟨rfl, ⟨_, rfl, rfl⟩, rfl⟩
  · exact ⟨rfl, ⟨_, rfl, rfl⟩, rfl⟩
  · exact ⟨rfl, ⟨_, rfl, rfl⟩, rfl⟩
  · exact ⟨rfl, ⟨_, rfl, rfl⟩, rfl⟩
  · exact ⟨rfl, ⟨_, rfl, rfl⟩, rfl⟩
  · exact ⟨rfl, ⟨_, rfl, rfl⟩, rfl⟩
  · exact ⟨rfl, ⟨_, rfl, rfl⟩, rfl⟩

end TwoPages

open TwoPages in
/-- Two live entries in pages of one item are answered together, without the tombstone between. -/
theorem range_answered_two_pages : ∃ k, ∀ j, k ≤ j → (asked.after inTurn j).answersTo 10 =
    [(.caller 0, ⟨10, .range [([1], [7]), ([3], [8])] none, .zero⟩)] := by
  have hasked : asked =
      opened.hand (.request ⟨10, .rangeQuery (.closed [1] [5]) none⟩ (.caller 0)) := rfl
  obtain ⟨items, -, -, -, k, hanswered⟩ := range_answered rfl rfl (onlyEntry_empty 10) rfl
    ⟨rfl, rfl, by decide⟩ hasked
    ⟨inOrder_opened, rfl, respects_inTurn, fun n _ => serves_inTurn n⟩ fair_inTurn
  refine ⟨k, fun j hj => ?_⟩
  have hlast := hanswered (6 + k) (by omega)
  have hread : (asked.after inTurn (6 + k)).answersTo 10 =
      [(.caller 0, ⟨10, .range [([1], [7]), ([3], [8])] none, .zero⟩)] := by
    rw [after_inTurn, Nat.min_eq_right (by omega)]
    rfl
  rw [hanswered j hj, ← hread, ← hlast]

end Service

end ReplicaRing
