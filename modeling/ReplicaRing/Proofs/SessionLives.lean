import ReplicaRing.Proofs.MoverRuns

/-!
The lives of a mover's outbound sessions. There is one open session for each destination at most,
the one that the index has there. A session whose number is drawn once leaves the table once, with
one event or none, and after that it is silent.
-/

namespace ReplicaRing

namespace Mover

/-- A session that is no longer heard of: it is not open, sends no frame, and nothing is told of
it. -/
structure Silent (id : SessionId) (moments : List Moment) : Prop where
  gone : ∀ x ∈ moments, x.after.outbound.get? id = none
  frames : framesIn id moments = []
  told : toldIn id moments = []

section

variable {m : Mover} {x : Moment} {moments : List Moment} {happenings : List Happening}
  {id : SessionId}

/-- A session that is not open stays so and is silent, as long as its number is not drawn. -/
lemma silent_of_course (hm : m.Tidy) (hnone : m.outbound.get? id = none)
    (hrun : m.course happenings = .ok moments) (hdrawn : id ∉ numbers moments) :
    Silent id moments := by
  have hinv := course_induction
    (motive := fun past m' => m'.Tidy ∧
      (id ∉ numbers past → m'.outbound.get? id = none ∧ Silent id past))
    ⟨hm, fun _ => ⟨hnone, by simp, rfl, rfl⟩⟩
    (fun past x h ⟨htidy, ih⟩ hmeet => ⟨tidy_of_meet htidy hmeet, fun hnew => ?_⟩) hrun
  · exact (hinv.2 hdrawn).2
  · rw [numbers_concat, List.mem_append, not_or, Option.mem_toList] at hnew
    obtain ⟨hnone, hpast⟩ := ih hnew.1
    have hturn := sessionTurn_of_meet htidy hmeet id
    rw [Moment.opening?_eq_none_iff.2 hnew.2, hnone] at hturn
    obtain ⟨hgone, hframes, htold⟩ := hturn.of_none
    refine ⟨hgone, fun y hy => ?_, ?_, ?_⟩
    · rcases List.mem_append.1 hy with hy | hy
      · exact hpast.gone y hy
      · rw [List.mem_singleton.1 hy, hgone]
    · rw [framesIn_concat, hpast.frames, hframes, List.append_nil]
    · rw [toldIn_concat, hpast.told, htold, List.append_nil]

/-- At most one event tells of a session, and once it is told the session is not open. -/
lemma told_once (hm : m.Orderly []) (hrun : m.course happenings = .ok moments)
    (hfresh : (numbers moments).Nodup) (id : SessionId) :
    toldIn id moments = [] ∨ (toldIn id moments).length = 1 ∧ id ∈ numbers moments ∧
      (m.final moments).outbound.get? id = none := by
  refine (orderly_induction
    (motive := fun past m' => (numbers past).Nodup → toldIn id past = [] ∨
      (toldIn id past).length = 1 ∧ id ∈ numbers past ∧ m'.outbound.get? id = none)
    hm (fun _ => .inl rfl) (fun past x h horderly ih hmeet hnodup => ?_) hrun).2 hfresh
  have hnew : x.drawn? = some id → id ∉ numbers past := not_drawn_before hnodup
  have hturn := sessionTurn_of_meet horderly.tidy hmeet id
  rw [numbers_concat] at hnodup ⊢
  rw [toldIn_concat]
  rcases ih (List.nodup_append.1 hnodup).1 with htold | ⟨hone, hdrawn, hnone⟩
  · rw [htold, List.nil_append]
    refine hturn.told_cases.imp_right fun ⟨hlength, hopen, hgone⟩ => ⟨hlength, ?_, hgone⟩
    exact List.mem_append_left _ (horderly.known id (.inl hopen))
  · -- the session has ended, and its number is not drawn again
    have hopening : x.opening? id = none :=
      Moment.opening?_eq_none_iff.2 fun hid => hnew hid hdrawn
    rw [hopening, hnone] at hturn
    obtain ⟨hgone, -, hquiet⟩ := hturn.of_none
    rw [hquiet, List.append_nil]
    exact .inr ⟨hone, List.mem_append_left _ hdrawn, hgone⟩

/-- Between inputs no session waits to be dropped, and sessions and index are inverse to each
other. -/
lemma settled_of_course (hm : m.Orderly []) (hs : m.Settled)
    (hrun : m.course happenings = .ok moments) (hfresh : (numbers moments).Nodup) :
    ∀ x ∈ moments, x.after.teardown = [] ∧ x.after.Settled := by
  refine (orderly_induction
    (motive := fun past m' => (numbers past).Nodup → m'.Settled ∧
      ∀ x ∈ past, x.after.teardown = [] ∧ x.after.Settled)
    hm (fun _ => ⟨hs, by simp⟩) (fun past x h horderly ih hmeet hnodup => ?_) hrun).2 hfresh |>.2
  have hpast : (numbers past).Nodup := by
    rw [numbers_concat] at hnodup
    exact (List.nodup_append.1 hnodup).1
  obtain ⟨hbefore, hall⟩ := ih hpast
  have hsettled := settled_of_meet horderly hbefore hmeet fun id => not_drawn_before hnodup
  refine ⟨hsettled, fun y hy => ?_⟩
  rcases List.mem_append.1 hy with hy | hy
  · exact hall y hy
  · rw [List.mem_singleton.1 hy]
    exact ⟨(tidy_of_meet horderly.tidy hmeet).teardown, hsettled⟩

/-- Whatever happens to a mover that draws no number twice: between inputs no session waits to be
dropped, and the open sessions and the index by destination are inverse to each other. A session
that leaves the table sends nothing then and is silent from then on, and at most one event tells
that it ended. -/
theorem session_lives {self : NodeId} {config : TransferConfig} {store : Store} {ids : IdSource}
    {c : BlockCompression.Compressor}
    (hrun : (start self config store ids c).course happenings = .ok moments)
    (hfresh : (numbers moments).Nodup) :
    (∀ x ∈ moments, x.after.teardown = [] ∧ x.after.Settled) ∧
    (∀ front x back id, moments = front ++ x :: back →
      x.before.outbound.get? id ≠ none → x.after.outbound.get? id = none →
        framesOf id x.out = [] ∧ Silent id back) ∧
    ∀ id, (toldIn id moments).length ≤ 1 := by
  have hstart := orderly_start self config store ids c
  refine ⟨settled_of_course hstart (settled_start self config store ids c) hrun hfresh,
    fun front x back id hsplit hopen hgone => ?_, fun id => ?_⟩
  · subst hsplit
    have hbefore := orderly_of_course hstart hrun
    obtain ⟨-, -, ⟨h, hmeet⟩, later, hlater⟩ := course_split hrun
    have hturn := sessionTurn_of_meet hbefore.tidy hmeet id
    rw [hgone] at hturn
    have htidy := tidy_of_meet hbefore.tidy hmeet
    refine ⟨hturn.frames_of_gone, silent_of_course htidy hgone hlater fun hdrawn => ?_⟩
    -- the number was drawn before, when the session was opened
    rw [numbers_append, numbers_cons] at hfresh
    obtain ⟨-, -, hcross⟩ := List.nodup_append.1 hfresh
    exact hcross id (hbefore.known id (.inl hopen)) id (List.mem_append_right _ hdrawn) rfl
  · rcases told_once hstart hrun hfresh id with hnone | ⟨hone, -⟩
    · simp [hnone]
    · exact Nat.le_of_eq hone

end

namespace Superseded

def a : NodeId := ⟨"a", 1, none⟩

def b : NodeId := ⟨"b", 1, none⟩

def mover : Mover := start a { compression := false } (.ofList [([1], [9])]) ⟨0, 0⟩

/-- The second session to a node takes the place of the first, whose acknowledgement comes late;
then it is carried through, and a copy of its grant comes late. -/
def happenings : List Happening :=
  [.input (.command (.startSend b .full 1)), .input (.command (.startSend b .full 2)),
    .input (.inbound b (.ack 1)), .input (.inbound b (.ack 2)),
    .input (.inbound b (.clearToSend 2 100)), .input (.inbound b (.allReceived 2)),
    .input (.inbound b (.clearToSend 2 100))]

end Superseded

open Superseded in
/-- A session that is superseded is never heard of again, and the one in its place finishes. -/
theorem session_lives_superseded : ∃ opened superseding later,
    mover.course happenings = .ok (opened :: superseding :: later) ∧
      (numbers (opened :: superseding :: later)).Nodup ∧
      superseding.before.outbound.get? 1 ≠ none ∧ superseding.after.outbound.get? 1 = none ∧
      Silent 1 later ∧ toldIn 2 (opened :: superseding :: later) = [.sendFinished 2 b 1 2] := by
  obtain ⟨moments, hrun⟩ : ∃ moments, mover.course happenings = .ok moments := ⟨_, rfl⟩
  obtain ⟨opened, rest, rfl, hopened, hrest⟩ := course_cons hrun
  obtain ⟨superseding, later, rfl, hsuperseding, hlater⟩ := course_cons hrest
  have hnumbers : (mover.course happenings).toOption.map numbers = some [1, 2] := rfl
  have htold : (mover.course happenings).toOption.map (toldIn 2) =
      some [.sendFinished 2 b 1 2] := rfl
  have hbefore : ((mover.course happenings).toOption.map fun moments =>
      (moments.map fun x => (x.before.outbound.contains 1, x.after.outbound.get? 1)).tail.head?) =
      some (some (true, none)) := rfl
  rw [hrun] at hnumbers htold hbefore
  simp only [Except.toOption, Option.map_some, Option.some_inj, List.map_cons, List.tail_cons,
    List.head?_cons, Prod.mk.injEq] at hnumbers htold hbefore
  have hfresh : (numbers (opened :: superseding :: later)).Nodup := by
    rw [hnumbers]
    decide
  have hopen : superseding.before.outbound.get? 1 ≠ none :=
    Option.isSome_iff_ne_none.1 hbefore.1
  obtain ⟨-, hsilent, -⟩ := session_lives hrun hfresh
  exact ⟨opened, superseding, later, hrun, hfresh, hopen, hbefore.2,
    (hsilent [opened] superseding later 1 rfl hopen hbefore.2).2, htold⟩

end Mover

end ReplicaRing
