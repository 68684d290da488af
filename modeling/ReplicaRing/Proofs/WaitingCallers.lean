import ReplicaRing.Proofs.MapContents
import ReplicaRing.Proofs.RouterSteps

/-!
The callers of a router over a whole run. A desk is a router with the forward timeouts that have
fired and wait to be handled, and keeps a record of who was accepted and who was answered. Every
caller that was accepted is answered once, under its own number, or still waits, and whoever waits
for another node waits with a timeout, `Desk.run_accounts`. A further request is dropped exactly if
its number is the one that some operation is under way with, `Desk.dropped_iff`; the range of a
caller that goes on under another number is under way with that. The time that passes at a router
is a run of a desk as well, `Desk.exists_run_advance`.
-/

namespace ReplicaRing

/-! ## Timers -/

lemma Timers.advance_eq {κ ε : Type} [Ord κ] [Std.TransOrd κ] [Std.LawfulEqOrd κ] [Ord ε]
    (t : Timers κ ε) (span : Duration) : t.advance span =
      ((t.fireUntil (t.now + span) (t.firingBound span)).1,
        ⟨t.now + span, (t.fireUntil (t.now + span) (t.firingBound span)).2.armed⟩) := by
  unfold advance
  simp only

lemma Timers.armed_fire {κ ε : Type} [Ord κ] [Std.TransOrd κ] [Std.LawfulEqOrd κ]
    (t : Timers κ ε) (key : κ) {timer : Timer ε} (h : timer.period = none) :
    (t.fire key timer).armed = t.armed.erase key := by
  obtain ⟨deadline, period, event⟩ := timer
  cases h
  rfl

/-- The timer that fires next is armed. -/
lemma Timers.get?_of_next? {κ ε : Type} [Ord κ] [Std.LawfulEqOrd κ] [Ord ε] (t : Timers κ ε)
    {e : κ × Timer ε} (h : t.next? = some e) : t.armed.get? e.1 = some e.2 := by
  rw [SortedMap.get?_eq_some_iff]
  unfold next? at h
  refine List.foldlRecOn (motive := fun best => ∀ e, best = some e → e ∈ t.armed.entries) _ _
    (fun e he => by cases he) (fun best hbest a ha e he => ?_) e h
  cases best with
  | none =>
    cases he
    exact ha
  | some b =>
    simp only at he
    split at he
    · exact hbest e he
    · cases he
      exact ha

namespace Router

variable {timeout : Duration} {pending pending' : SortedMap OperationId PendingOperation}
  {timers timers' : Timers OperationId OperationId} {accepted : Option Call}
  {answers : List Call} {renewed : Option (OperationId × OperationId)}

/-! ## Who waits -/

/-- The callers that wait. -/
def waiting (pending : SortedMap OperationId PendingOperation) : List Call :=
  pending.values.map PendingOperation.call

lemma waiting_insert {id : OperationId} {p : PendingOperation} (h : pending.contains id = false) :
    (waiting (pending.insert id p)).Perm (p.call :: waiting pending) :=
  (SortedMap.perm_insert h).map _

lemma waiting_erase {id : OperationId} {p : PendingOperation} (h : pending.get? id = some p) :
    (waiting pending).Perm (p.call :: waiting (pending.erase id)) := (SortedMap.perm_erase h).map _

/-- Who is answered and who waits then are those who waited before and who is accepted, as long as
a range does not take the number of another operation. -/
theorem Change.perm (h : Change timeout pending timers accepted answers renewed pending' timers')
    (hfresh : ∀ x, renewed = some x → (pending.erase x.1).contains x.2 = false) :
    (answers ++ waiting pending').Perm (waiting pending ++ accepted.toList) := by
  cases h with
  | quiet => exact .of_eq (List.append_nil _).symm
  | refused c => exact List.perm_append_comm
  | submitted id reply paginate hnew =>
    exact (waiting_insert hnew).trans (List.perm_append_singleton _ _).symm
  | forwarded id reply peer hnew =>
    exact (waiting_insert hnew).trans (List.perm_append_singleton _ _).symm
  | answered id p hp =>
    rw [Option.toList_none, List.append_nil]
    exact (waiting_erase hp).symm
  | givenUp id p hp =>
    rw [Option.toList_none, List.append_nil]
    exact (waiting_erase hp).symm
  | continued id p next collected hp =>
    rw [Option.toList_none, List.append_nil]
    exact (waiting_insert (hfresh _ rfl)).trans (waiting_erase hp).symm
  | suspected n =>
    unfold waiting
    rw [Option.toList_none, List.append_nil, ← List.map_append]
    exact (SortedMap.perm_filter pending fun _ p => p.forwardedTo == some n).map _

/-! ## Entries -/

lemma now_foldl_cancel (ids : List OperationId) (timers : Timers OperationId OperationId) :
    (ids.foldl Timers.cancel timers).now = timers.now := by
  induction ids generalizing timers with
  | nil => rfl
  | cons id ids ih => exact ih (timers.cancel id)

lemma armed_foldl_cancel {ids : List OperationId} {n : OperationId} (h : n ∉ ids)
    (timers : Timers OperationId OperationId) :
    (ids.foldl Timers.cancel timers).armed.get? n = timers.armed.get? n := by
  induction ids generalizing timers with
  | nil => rfl
  | cons id ids ih =>
    rw [List.mem_cons, not_or] at h
    rw [List.foldl_cons, ih h.2]
    exact (SortedMap.get?_erase timers.armed id n).trans (if_neg h.1)

lemma armed_cancel_if {id n : OperationId} (h : n ≠ id) (c : Bool)
    (timers : Timers OperationId OperationId) :
    (if c then timers.cancel id else timers).armed.get? n = timers.armed.get? n := by
  cases c with
  | false => rfl
  | true => exact (SortedMap.get?_erase timers.armed id n).trans (if_neg h)

lemma Change.now (h : Change timeout pending timers accepted answers renewed pending' timers') :
    timers'.now = timers.now := by
  cases h with
  | answered id p =>
    split
    · rfl
    · rfl
  | continued id p =>
    split
    · rfl
    · rfl
  | suspected n => exact now_foldl_cancel _ timers
  | _ => rfl

lemma armed_cancel {id n : OperationId} {t : Timer OperationId}
    (h : (timers.cancel id).armed.get? n = some t) : timers.armed.get? n = some t := by
  replace h : (timers.armed.erase id).get? n = some t := h
  rw [SortedMap.get?_erase] at h
  split at h
  · cases h
  · exact h

/-- A timer that is armed was armed before or fires once. -/
lemma Change.armed (h : Change timeout pending timers accepted answers renewed pending' timers')
    {n : OperationId} {t : Timer OperationId} (hn : timers'.armed.get? n = some t) :
    timers.armed.get? n = some t ∨ t.period = none := by
  cases h with
  | forwarded id reply peer =>
    replace hn : (timers.armed.insert id ⟨timers.now + timeout, none, id⟩).get? n = some t := hn
    rw [SortedMap.get?_insert] at hn
    split at hn
    · cases hn
      exact .inr rfl
    · exact .inl hn
  | answered id p =>
    split at hn
    · exact .inl (armed_cancel hn)
    · exact .inl hn
  | continued id p =>
    split at hn
    · exact .inl (armed_cancel hn)
    · exact .inl hn
  | suspected node =>
    generalize (pending.filter fun _ p => p.forwardedTo == some node).keys = ids at hn
    induction ids generalizing timers with
    | nil => exact .inl hn
    | cons id ids ih => exact (ih hn).imp_left armed_cancel
  | _ => exact .inl hn

/-- Where an entry comes from: it was there, with the timeout that it had; it is new, under its
caller's number, and has a timeout if it waits for another node; or it is a range that went on. -/
theorem Change.entry (h : Change timeout pending timers accepted answers renewed pending' timers')
    {n : OperationId} {p : PendingOperation} (hn : pending'.get? n = some p) :
    (pending.get? n = some p ∧ timers'.armed.get? n = timers.armed.get? n) ∨
      (n = p.origin ∧ (p.forwardedTo = none ∨ p.paginate = false ∧
        timers'.armed.get? n = some ⟨timers.now + timeout, none, n⟩)) ∨
      ∃ id q, renewed = some (id, n) ∧ pending.get? id = some q ∧ q.paginate = true ∧
        p.paginate = true ∧ p.forwardedTo = q.forwardedTo := by
  have herased : ∀ id, (pending.erase id).get? n = some p → n ≠ id ∧ pending.get? n = some p := by
    intro id hget
    rw [SortedMap.get?_erase] at hget
    split at hget
    · cases hget
    · rename_i hne
      exact ⟨hne, hget⟩
  cases h with
  | quiet => exact .inl ⟨hn, rfl⟩
  | refused => exact .inl ⟨hn, rfl⟩
  | submitted id reply paginate hnew =>
    rw [SortedMap.get?_insert] at hn
    split at hn
    · rename_i hid
      cases hn
      exact .inr (.inl ⟨hid, .inl rfl⟩)
    · exact .inl ⟨hn, rfl⟩
  | forwarded id reply peer hnew =>
    have harmed := SortedMap.get?_insert timers.armed id n ⟨timers.now + timeout, none, id⟩
    rw [SortedMap.get?_insert] at hn
    split at hn
    · rename_i hid
      cases hn
      rw [if_pos hid] at harmed
      exact .inr (.inl ⟨hid, .inr ⟨rfl, hid ▸ harmed⟩⟩)
    · rename_i hid
      rw [if_neg hid] at harmed
      exact .inl ⟨hn, harmed⟩
  | answered id q hq =>
    obtain ⟨hne, hget⟩ := herased id hn
    exact .inl ⟨hget, armed_cancel_if hne _ timers⟩
  | givenUp id q hq =>
    obtain ⟨-, hget⟩ := herased id hn
    exact .inl ⟨hget, rfl⟩
  | continued id q next collected hq hpages =>
    rw [SortedMap.get?_insert] at hn
    split at hn
    · rename_i hnext
      cases hn
      exact .inr (.inr ⟨id, q, by rw [hnext], hq, hpages, hpages, rfl⟩)
    · obtain ⟨hne, hget⟩ := herased id hn
      exact .inl ⟨hget, armed_cancel_if hne _ timers⟩
  | suspected node =>
    rw [SortedMap.get?_filter, Option.filter_eq_some_iff] at hn
    refine .inl ⟨hn.1, armed_foldl_cancel (fun hmem => ?_) timers⟩
    obtain ⟨q, hq, hsuspected⟩ := SortedMap.mem_keys_filter hmem
    obtain rfl : p = q := Option.some_inj.1 (hn.1.symm.trans hq)
    have hkept := hn.2
    rw [bne, hsuspected] at hkept
    cases hkept

/-- Whoever waits for another node has a timeout that was queued, or one that will be. -/
def Timed (timeout : Duration) (pending : SortedMap OperationId PendingOperation)
    (timers : Timers OperationId OperationId) (queued : List OperationId) : Prop :=
  ∀ n p, pending.get? n = some p → p.forwardedTo.isSome = true →
    n ∈ queued ∨ ∃ t, timers.armed.get? n = some t ∧ t.event = n ∧ t.period = none ∧
      t.deadline ≤ timers.now + timeout

/-- An operation is under way with its caller's number, or is a range that went on under one that
was drawn and is read here. -/
def Numbered (pending : SortedMap OperationId PendingOperation) (drawn : List OperationId) : Prop :=
  ∀ n p, pending.get? n = some p → (p.paginate = true → p.forwardedTo = none) ∧
    (n = p.origin ∨ p.paginate = true ∧ n ∈ drawn)

lemma Change.numbered {drawn : List OperationId}
    (h : Change timeout pending timers accepted answers renewed pending' timers')
    (hbefore : Numbered pending drawn) :
    Numbered pending' (drawn ++ (renewed.map Prod.snd).toList) := by
  intro n p hn
  rcases h.entry hn with ⟨hget, -⟩ | ⟨horigin, hplace⟩ | ⟨id, q, rfl, hq, hpages, hpages', hplace⟩
  · obtain ⟨hlocal, hnumber⟩ := hbefore n p hget
    exact ⟨hlocal, hnumber.imp_right fun hdrawn =>
      ⟨hdrawn.1, List.mem_append.2 (.inl hdrawn.2)⟩⟩
  · refine ⟨fun hpages => hplace.resolve_right fun hforwarded => ?_, .inl horigin⟩
    rw [hforwarded.1] at hpages
    cases hpages
  · refine ⟨fun _ => hplace.trans ((hbefore id q hq).1 hpages), .inr ⟨hpages', ?_⟩⟩
    exact List.mem_append.2 (.inr (List.mem_singleton.2 rfl))

lemma Change.timed {drawn queued : List OperationId}
    (h : Change timeout pending timers accepted answers renewed pending' timers')
    (hnumbered : Numbered pending drawn) (hbefore : Timed timeout pending timers queued) :
    Timed timeout pending' timers' queued := by
  intro n p hn hforwarded
  rw [h.now]
  rcases h.entry hn with ⟨hget, hkept⟩ | ⟨-, hplace | ⟨-, harmed⟩⟩ | ⟨id, q, -, hq, hpages, -, hplace⟩
  · rw [hkept]
    exact hbefore n p hget hforwarded
  · rw [hplace] at hforwarded
    cases hforwarded
  · exact .inr ⟨_, harmed, rfl, rfl, Nat.le_refl _⟩
  · rw [hplace, (hnumbered id q hq).1 hpages] at hforwarded
    cases hforwarded

/-- The entry that a timeout was for is gone, unless it waits for no other node. -/
lemma forwardTimeoutFired_get? {r : Router} {id : OperationId} {p : PendingOperation}
    (h : (r.forwardTimeoutFired id).1.pending.get? id = some p) : p.forwardedTo = none := by
  have houtcome := r.timedOut id
  generalize r.forwardTimeoutFired id = result at houtcome h
  cases houtcome with
  | nothing hlocal => exact hlocal p h
  | refused hp hpeer =>
    rw [SortedMap.get?_erase, if_pos rfl] at h
    cases h

/-- A forward timeout that fired is handled, after others that have put out something. -/
def handleFired (s : Router × List Output) (fired : Duration × OperationId) :
    Router × List Output :=
  ((s.1.forwardTimeoutFired fired.2).1, s.2 ++ (s.1.forwardTimeoutFired fired.2).2)

lemma advance_eq (r : Router) (span : Duration) : r.advance span =
    ((r.timers.advance span).1.map Prod.snd, (r.timers.advance span).1.foldl handleFired
      ({ r with timers := (r.timers.advance span).2 }, [])) := by
  unfold advance
  generalize r.timers.advance span = t
  obtain ⟨fired, timers⟩ := t
  rfl

/-- A timeout that was handled is not needed any more. -/
lemma Timed.handled {queued : List OperationId} {id : OperationId}
    (h : Timed timeout pending timers queued)
    (hid : ∀ p, pending.get? id = some p → p.forwardedTo = none) :
    Timed timeout pending timers (queued.erase id) := by
  intro n p hn hforwarded
  have hne : n ≠ id := by
    rintro rfl
    rw [hid p hn] at hforwarded
    cases hforwarded
  exact (h n p hn hforwarded).imp_left (List.mem_erase_of_ne hne).2

/-- A request puts out nothing only if its number is waited for. -/
lemma request_eq_nil_iff {r : Router} {op : Operation} {reply : ReplyTo} :
    (r.request op reply).2 = [] ↔ r.pending.contains op.id = true := by
  have houtcome := r.requested op reply
  generalize r.request op reply = result at houtcome ⊢
  cases houtcome with
  | dropped hwaits => simp [hwaits]
  | refused reason hnew => simp [hnew]
  | submitted paginate hnew => simp [hnew]
  | forwarded peer draws hnew howner => simp [hnew, forward]

end Router

/-! ## Runs -/

/-- A router, the forward timeouts that have fired and wait to be handled, and a record of what
happened so far. -/
structure Desk where
  router : Router
  queued : List OperationId
  accepted : List Call
  answers : List Call
  /-- The numbers under which ranges went on. -/
  drawn : List OperationId
  /-- Those of them that some other operation was under way with when they were drawn. -/
  clashes : List OperationId

namespace Desk

inductive Event where
  | input (input : Router.Input)
  /-- The forward timeout of an operation fires and is queued. -/
  | fire (id : OperationId)
  | pass (span : Duration)
  /-- Other parts of the node draw numbers, and the placement changes or fails. -/
  | amid (ids : IdSource) (placement : Placement) (placementFault : Option Fault)

def start (router : Router) : Desk := ⟨router, [], [], [], [], []⟩

/-- The router handles an input, and a timeout that comes is taken off the queue. -/
def handles (d : Desk) (input : Router.Input) : Desk where
  router := (d.router.handle input).1
  queued := match input with
    | .forwardTimeout id => d.queued.erase id
    | _ => d.queued
  accepted := d.accepted ++ (d.router.accepts? input).toList
  answers := d.answers ++ Router.answeredIn (d.router.handle input).2
  drawn := d.drawn ++ ((d.router.renews? input).map Prod.snd).toList
  clashes := d.clashes ++ (((d.router.renews? input).filter fun x =>
    (d.router.pending.erase x.1).contains x.2).map Prod.snd).toList

def step (d : Desk) : Event → Desk
  | .input input => d.handles input
  | .fire id =>
    match d.router.timers.armed.get? id with
    | none => d
    | some t =>
      { d with
        router := { d.router with timers := d.router.timers.cancel id }
        queued := d.queued ++ [t.event] }
  | .pass span =>
    let timers := { d.router.timers with now := d.router.timers.now + span }
    { d with router := { d.router with timers } }
  | .amid ids placement placementFault =>
    { d with router := { d.router with ids, placement, placementFault } }

def run (d : Desk) (events : List Event) : Desk := events.foldl step d

/-- What holds of a desk at any time. -/
structure Inv (timeout : Duration) (d : Desk) : Prop where
  forwardTimeout : d.router.forwardTimeout = timeout
  oneShot : ∀ n t, d.router.timers.armed.get? n = some t → t.period = none
  numbered : Router.Numbered d.router.pending d.drawn
  timed : Router.Timed timeout d.router.pending d.router.timers d.queued
  accounts : d.clashes = [] →
    (d.answers ++ Router.waiting d.router.pending).Perm d.accepted

variable {timeout : Duration} {d : Desk}

lemma inv_start (self : NodeId) (timeout : Duration) (placement : Placement) (ids : IdSource)
    (draws : Nat → Nat) : Inv timeout (start (.start self timeout placement ids draws)) where
  forwardTimeout := rfl
  oneShot := fun n t h => by cases (SortedMap.get?_empty n).symm.trans h
  numbered := fun n p h => by cases (SortedMap.get?_empty n).symm.trans h
  timed := fun n p h => by cases (SortedMap.get?_empty n).symm.trans h
  accounts := fun _ => .refl _

/-- Whatever the router handles, the invariant stays. -/
lemma Inv.handles (h : Inv timeout d) (input : Router.Input) : Inv timeout (d.handles input) := by
  obtain ⟨htimeout, hchange⟩ := Router.changes_handle (r := d.router) input
  rw [h.forwardTimeout] at htimeout hchange
  have htimed := hchange.timed h.numbered h.timed
  refine ⟨htimeout, fun n t hn => (hchange.armed hn).elim (h.oneShot n t) id,
    hchange.numbered h.numbered, ?_, fun hclashes => ?_⟩
  · cases input with
    | forwardTimeout id =>
      exact htimed.handled fun p hp => Router.forwardTimeoutFired_get? hp
    | _ => exact htimed
  · obtain ⟨hbefore, hnow⟩ := List.append_eq_nil_iff.1 hclashes
    have hfresh : ∀ x, d.router.renews? input = some x →
        (d.router.pending.erase x.1).contains x.2 = false := by
      intro x hx
      rw [hx] at hnow
      by_contra hclash
      rw [Bool.not_eq_false] at hclash
      simp [Option.filter, hclash] at hnow
    have hnew := (hchange.perm hfresh).append_left d.answers
    rw [← List.append_assoc, ← List.append_assoc] at hnew
    exact hnew.trans ((h.accounts hbefore).append_right _)

/-- Every event keeps the invariant. -/
theorem Inv.step (h : Inv timeout d) (event : Event) : Inv timeout (d.step event) := by
  cases event with
  | input input => exact h.handles input
  | fire id =>
    unfold Desk.step
    simp only
    split
    · exact h
    · rename_i t ht
      refine ⟨h.forwardTimeout, fun n t hn => h.oneShot n t (Router.armed_cancel hn), h.numbered,
        fun n p hn hforwarded => ?_, h.accounts⟩
      show n ∈ d.queued ++ [t.event] ∨ _
      rcases h.timed n p hn hforwarded with hqueued | ⟨t', ht', hevent, hperiod, hdeadline⟩
      · exact .inl (List.mem_append.2 (.inl hqueued))
      · by_cases hid : n = id
        · -- the timeout that fired is the one that is queued
          rw [hid, ht, Option.some_inj] at ht'
          rw [ht', hevent]
          exact .inl (List.mem_append.2 (.inr (List.mem_singleton.2 rfl)))
        · refine .inr ⟨t', ?_, hevent, hperiod, hdeadline⟩
          exact (SortedMap.get?_erase _ id n).trans ((if_neg hid).trans ht')
  | pass span =>
    refine ⟨h.forwardTimeout, h.oneShot, h.numbered, fun n p hn hforwarded => ?_, h.accounts⟩
    refine (h.timed n p hn hforwarded).imp_right fun ⟨t, ht, hevent, hperiod, hdeadline⟩ => ?_
    refine ⟨t, ht, hevent, hperiod, Nat.le_trans hdeadline ?_⟩
    exact Nat.add_le_add_right (Nat.le_add_right _ span) timeout
  | amid ids placement placementFault =>
    exact ⟨h.forwardTimeout, h.oneShot, h.numbered, h.timed, h.accounts⟩

theorem Inv.run (h : Inv timeout d) (events : List Event) : Inv timeout (d.run events) := by
  unfold Desk.run
  induction events generalizing d with
  | nil => exact h
  | cons event events ih => exact ih (h.step event)

/-! ## Time -/

lemma run_append (d : Desk) (events more : List Event) :
    d.run (events ++ more) = (d.run events).run more := List.foldl_append

/-- The timers that are due fire one by one and are queued. -/
lemma exists_run_fireUntil (stop : Duration) (fuel : Nat)
    (h : ∀ n t, d.router.timers.armed.get? n = some t → t.period = none)
    (timers : Timers OperationId OperationId) (htimers : timers.armed = d.router.timers.armed) :
    ∃ events, d.run events = { d with
      router := { d.router with
        timers := ⟨d.router.timers.now, (timers.fireUntil stop fuel).2.armed⟩ }
      queued := d.queued ++ (timers.fireUntil stop fuel).1.map Prod.snd } := by
  induction fuel generalizing d timers with
  | zero =>
    refine ⟨[], ?_⟩
    rw [Timers.fireUntil, htimers, List.map_nil, List.append_nil]
    rfl
  | succ fuel ih =>
    have hidle : ∃ events, d.run events = { d with
        router := { d.router with timers := ⟨d.router.timers.now, timers.armed⟩ }
        queued := d.queued ++ [] } := by
      refine ⟨[], ?_⟩
      rw [htimers, List.append_nil]
      rfl
    unfold Timers.fireUntil
    cases hnext : timers.next? with
    | none => exact hidle
    | some e =>
      obtain ⟨id, t⟩ := e
      simp only
      split
      · have hget : d.router.timers.armed.get? id = some t :=
          htimers ▸ timers.get?_of_next? hnext
        have hstep : d.step (.fire id) = { d with
            router := { d.router with timers := d.router.timers.cancel id }
            queued := d.queued ++ [t.event] } := by
          unfold Desk.step
          simp only [hget]
        have hfire : (timers.fire id t).armed = (d.router.timers.cancel id).armed := by
          rw [timers.armed_fire id (h id t hget), htimers]
          rfl
        obtain ⟨events, hrun⟩ := ih (d := d.step (.fire id))
          (fun n t hn => h n t (Router.armed_cancel (by rwa [hstep] at hn)))
          (timers.fire id t) (by rw [hstep, hfire])
        refine ⟨.fire id :: events, ?_⟩
        show (d.step (.fire id)).run events = _
        rw [hrun, hstep, List.append_assoc]
        rfl
      · exact hidle

/-- The timeouts that were queued are handled one by one. -/
lemma exists_run_queued (fired : List (Duration × OperationId)) (out : List Router.Output)
    (hqueued : d.queued = fired.map Prod.snd) :
    ∃ events more, (fired.foldl Router.handleFired (d.router, out)).2 = out ++ more ∧
      d.run events = { d with
        router := (fired.foldl Router.handleFired (d.router, out)).1
        queued := []
        answers := d.answers ++ Router.answeredIn more } := by
  induction fired generalizing d out with
  | nil =>
    refine ⟨[], [], (List.append_nil _).symm, ?_⟩
    show d = { d with queued := [], answers := d.answers ++ [] }
    rw [List.append_nil]
    rw [List.map_nil] at hqueued
    rw [← hqueued]
  | cons x fired ih =>
    obtain ⟨_, id⟩ := x
    have hstep : d.step (.input (.forwardTimeout id)) = { d with
        router := (d.router.forwardTimeoutFired id).1
        queued := fired.map Prod.snd
        answers := d.answers ++ Router.answeredIn (d.router.forwardTimeoutFired id).2 } := by
      have herase : d.queued.erase id = fired.map Prod.snd := by
        rw [hqueued, List.map_cons, List.erase_cons_head]
      show Desk.mk _ (d.queued.erase id) (d.accepted ++ []) _ (d.drawn ++ []) (d.clashes ++ []) = _
      rw [herase, List.append_nil, List.append_nil, List.append_nil]
      rfl
    obtain ⟨events, more, hout, hrun⟩ := ih (d := d.step (.input (.forwardTimeout id)))
      (out ++ (d.router.forwardTimeoutFired id).2) (by rw [hstep])
    rw [hstep] at hout hrun
    refine ⟨.input (.forwardTimeout id) :: events,
      (d.router.forwardTimeoutFired id).2 ++ more, ?_, ?_⟩
    · rw [List.foldl_cons, Router.handleFired, hout, List.append_assoc]
    · show (d.step (.input (.forwardTimeout id))).run events = _
      rw [hstep, hrun, List.foldl_cons, Router.handleFired, List.append_assoc]
      unfold Router.answeredIn
      rw [List.filterMap_append]

/-- Letting time pass at a router is a run of a desk that has handled what fired before: the due
timeouts fire and are queued, the time passes, and they are handled in their order. -/
theorem exists_run_advance (h : Inv timeout d) (hqueued : d.queued = []) (span : Duration) :
    ∃ events, d.run events = { d with
      router := (d.router.advance span).2.1
      answers := d.answers ++ Router.answeredIn (d.router.advance span).2.2 } := by
  obtain ⟨fires, hfires⟩ := exists_run_fireUntil (d.router.timers.now + span)
    (d.router.timers.firingBound span) h.oneShot d.router.timers rfl
  rw [Router.advance_eq, Timers.advance_eq]
  generalize d.router.timers.fireUntil (d.router.timers.now + span)
    (d.router.timers.firingBound span) = r at hfires ⊢
  obtain ⟨fired, timers⟩ := r
  obtain ⟨handled, more, hout, hhandled⟩ := exists_run_queued
    (d := (d.run fires).step (.pass span)) fired [] (by rw [hfires, hqueued]; rfl)
  refine ⟨fires ++ .pass span :: handled, ?_⟩
  rw [run_append]
  show ((d.run fires).step (.pass span)).run handled = _
  rw [hfires] at hout hhandled ⊢
  rw [hhandled, ← hqueued]
  replace hout : (fired.foldl Router.handleFired
    ({ d.router with timers := ⟨d.router.timers.now + span, timers.armed⟩ }, [])).2 = more := hout
  rw [hout]
  rfl

variable {self : NodeId} {placement : Placement} {ids : IdSource} {draws : Nat → Nat}
  {events : List Event}

/-- As long as no range goes on under the number of another operation, the callers that were
accepted are those that were answered, each once and under its own number, and those that wait;
and whoever waits for another node has a timeout that is queued or will be in time. -/
theorem run_accounts (hrun : d = (start (.start self timeout placement ids draws)).run events)
    (hfresh : d.clashes = []) :
    (d.answers ++ Router.waiting d.router.pending).Perm d.accepted ∧
      ∀ n p, d.router.pending.get? n = some p → p.forwardedTo.isSome = true →
        n ∈ d.queued ∨ ∃ t, d.router.timers.armed.get? n = some t ∧ t.event = n ∧
          t.period = none ∧ t.deadline ≤ d.router.timers.now + timeout := by
  have hinv := (inv_start self timeout placement ids draws).run events
  rw [← hrun] at hinv
  exact ⟨hinv.accounts hfresh, hinv.timed⟩

namespace TwoCallers

def a : NodeId := ⟨"a", 1, none⟩

def b : NodeId := ⟨"b", 1, none⟩

def c : NodeId := ⟨"c", 1, none⟩

/-- Of two live members the second one is drawn. -/
def initial : Desk := start (.start a 5 (.ofList [([], [b])]) ⟨0, 1000⟩ fun _ => 1)

/-- A caller asks for a key while the replica is not caught up on it yet; then another one asks for
a range, and the first page of it arrives. -/
def happened : List Event :=
  [.input (.engine (.viewInstalled (.ofList 1 [a, b, c]) (.halfOpen [1] [5]) .syncing)),
    .input (.request ⟨20, .get [2]⟩ (.caller 1)),
    .input (.engine (.synced 1)),
    .input (.request ⟨10, .rangeQuery (.halfOpen [1] [4]) none⟩ (.caller 0)),
    .input (.engine (.response ⟨10, .range [([1], [7])] (some (.halfOpen [2] [4])), .zero⟩))]

/-- The desk before the page arrives. -/
def before : Desk := initial.run happened.dropLast

/-- The desk after it arrived. -/
def after : Desk := initial.run happened

/-- The range goes on under the first number that is drawn. -/
lemma after_get? : after.router.pending.get? 1001 =
    some ⟨10, .caller 0, true, [([1], [7])], none⟩ := rfl

end TwoCallers

open TwoCallers in
/-- Both callers wait, one of them for the member that was drawn, and with a timeout. -/
theorem run_accounts_two : after.clashes = [] ∧
    (after.answers ++ Router.waiting after.router.pending).Perm
      [(20, .caller 1), (10, .caller 0)] ∧
    after.router.pending.get? 20 = some ⟨20, .caller 1, false, [], some c⟩ ∧
    (20 ∈ after.queued ∨ ∃ t, after.router.timers.armed.get? 20 = some t ∧ t.event = 20 ∧
      t.period = none ∧ t.deadline ≤ after.router.timers.now + 5) := by
  have hfresh : after.clashes = [] := rfl
  have hforwarded : after.router.pending.get? 20 = some ⟨20, .caller 1, false, [], some c⟩ := rfl
  obtain ⟨hcallers, htimed⟩ := run_accounts (d := after) rfl hfresh
  exact ⟨hfresh, hcallers, hforwarded, htimed 20 _ hforwarded rfl⟩

/-- While a caller waits, a further request with its number is dropped exactly if some operation
is under way with that number. The caller's own is, unless it is a range that went on under
another one. -/
theorem dropped_iff (hrun : d = (start (.start self timeout placement ids draws)).run events)
    {n : OperationId} {p : PendingOperation} (hwait : d.router.pending.get? n = some p)
    {input : Router.Input} {op : Operation} {reply : ReplyTo}
    (hwanted : input.wanted? = some (op, reply)) (hid : op.id = p.origin) :
    ((d.router.handle input).2 = [] ↔ d.router.pending.contains p.origin = true) ∧
      (n = p.origin ∨ p.paginate = true ∧ p.forwardedTo = none ∧ n ∈ d.drawn) := by
  have hinv := (inv_start self timeout placement ids draws).run events
  rw [← hrun] at hinv
  constructor
  · rw [← hid]
    cases input with
    | request op' reply' =>
      cases hwanted
      exact Router.request_eq_nil_iff
    | message m =>
      cases m with
      | forward op' replyTo =>
        cases hwanted
        exact Router.request_eq_nil_iff
      | _ => cases hwanted
    | _ => cases hwanted
  · obtain ⟨hlocal, hnumber⟩ := hinv.numbered n p hwait
    exact hnumber.imp_right fun hdrawn => ⟨hdrawn.1, hlocal hdrawn.1, hdrawn.2⟩

open TwoCallers in
/-- Before the first page arrives the number of the range is waited for. -/
theorem dropped_iff_before :
    (before.router.handle (.message (.forward ⟨10, .get [1]⟩ b))).2 = [] := by
  have hwait : before.router.pending.get? 10 = some ⟨10, .caller 0, true, [], none⟩ := rfl
  have hwanted : (Router.Input.message (.forward ⟨10, .get [1]⟩ b)).wanted? =
      some (⟨10, .get [1]⟩, .remote b) := rfl
  exact (dropped_iff (d := before) rfl hwait hwanted rfl).1.2 rfl

open TwoCallers in
/-- Once the range goes on under another number, a further request with the number of its caller
is run. -/
theorem not_dropped_after :
    (∃ p, after.router.pending.get? 1001 = some p ∧ p.call = (10, .caller 0)) ∧
      (10, .caller 0) ∈ after.accepted ∧ after.answers = [] ∧
      (after.router.handle (.request ⟨10, .get [1]⟩ (.caller 2))).2 =
        [.submit ⟨10, .get [1]⟩] :=
  ⟨⟨_, after_get?, rfl⟩, List.mem_cons_of_mem _ List.mem_cons_self, rfl, rfl⟩

end Desk

end ReplicaRing
