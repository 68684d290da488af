import Mathlib.Data.List.Induction
import ReplicaRing.Proofs.TransferLink

/-!
Runs of a mover. Between its inputs other parts of the node change the store that the mover reads
and writes, draw numbers from the same source and publish timeouts, and time passes. A run is the
list of its moments, each with the mover before and after it and with what the mover put out.

Whatever happens, the mover stays `Mover.Orderly`: a session that is open or remembered as ended has
a number that was drawn for a session before.
-/

namespace ReplicaRing

/-- What every step keeps holds after all steps, if none fails. -/
lemma foldlM_invariant {α β ε : Type} {f : β → α → Except ε β} {motive : β → Prop}
    (step : ∀ b a b', motive b → f b a = .ok b' → motive b') {l : List α} {b b' : β}
    (h : motive b) (hrun : l.foldlM f b = .ok b') : motive b' := by
  induction l generalizing b with
  | nil =>
    cases hrun
    exact h
  | cons a l ih =>
    rw [List.foldlM_cons] at hrun
    cases hstep : f b a with
    | error e => simp [hstep, bind, Except.bind] at hrun
    | ok next =>
      simp only [hstep, bind, Except.bind] at hrun
      exact ih (step b a next h hstep) hrun

namespace Mover

open BlockCompression (Compressor)

/-- What happens to a mover. -/
inductive Happening where
  | input (input : Input)
  | amid (w : Surroundings)

structure Moment where
  before : Mover
  happening : Happening
  out : List Output
  after : Mover

namespace Moment

/-- The session that is opened under a number. -/
def opening? (x : Moment) (id : SessionId) : Option (NodeId × TransferMetadata) :=
  match x.happening with
  | .input input => x.before.opening? input id
  | .amid _ => none

/-- The grant that comes for a session. -/
def grant? (x : Moment) (id : SessionId) : Option UInt64 :=
  match x.happening with
  | .input input => x.before.grant? input id
  | .amid _ => none

/-- The number that is drawn for a session. -/
def drawn? (x : Moment) : Option SessionId :=
  match x.happening with
  | .input (.command (.startSend ..)) => some x.before.ids.next.1
  | _ => none

/-- A session is opened under the number that is drawn for it. -/
lemma opening?_eq_none_iff {x : Moment} {id : SessionId} :
    x.opening? id = none ↔ x.drawn? ≠ some id := by
  unfold opening? drawn?
  cases x.happening with
  | amid w => simp
  | input input =>
    cases input with
    | command c => cases c <;> simp [Mover.opening?]
    | inbound src message => simp [Mover.opening?]
    | retry id => simp [Mover.opening?]

end Moment

def meet (m : Mover) : Happening → Except Crash Moment
  | .input input => (m.handle input).map fun r => ⟨m, .input input, r.2, r.1⟩
  | .amid w => .ok ⟨m, .amid w, [], m.amid w⟩

/-- The moments of a run, one for each thing that happens. -/
def course (m : Mover) : List Happening → Except Crash (List Moment)
  | [] => .ok []
  | h :: rest => do
    let x ← m.meet h
    let later ← x.after.course rest
    return x :: later

/-- The mover at the end of a run. -/
def final (m : Mover) (moments : List Moment) : Mover :=
  (moments.getLast?.map Moment.after).getD m

/-- The numbers that are drawn for sessions in a run. -/
def numbers (moments : List Moment) : List SessionId := moments.filterMap Moment.drawn?

/-- The frames that an outbound session sends in a run. -/
def framesIn (id : SessionId) (moments : List Moment) : List Envelope :=
  moments.flatMap fun x => framesOf id x.out

/-- The events of a run that tell of an outbound session. -/
def toldIn (id : SessionId) (moments : List Moment) : List MoverEvent :=
  moments.flatMap fun x => toldOf id x.out

section

variable {m : Mover} {x : Moment} {front back moments : List Moment} {h : Happening}
  {happenings : List Happening} {id : SessionId}

lemma numbers_append (front back : List Moment) :
    numbers (front ++ back) = numbers front ++ numbers back := List.filterMap_append

lemma numbers_cons (x : Moment) (later : List Moment) :
    numbers (x :: later) = x.drawn?.toList ++ numbers later := by
  cases hx : x.drawn? with
  | none => exact List.filterMap_cons_none hx
  | some id => exact List.filterMap_cons_some hx

lemma numbers_concat (past : List Moment) (x : Moment) :
    numbers (past ++ [x]) = numbers past ++ x.drawn?.toList := by
  rw [numbers_append, numbers_cons]
  exact congrArg _ (List.append_nil _)

lemma mem_numbers : id ∈ numbers moments ↔ ∃ x ∈ moments, x.drawn? = some id :=
  List.mem_filterMap

@[simp] lemma framesIn_nil (id : SessionId) : framesIn id [] = [] := rfl

@[simp] lemma toldIn_nil (id : SessionId) : toldIn id [] = [] := rfl

lemma framesIn_concat (id : SessionId) (past : List Moment) (x : Moment) :
    framesIn id (past ++ [x]) = framesIn id past ++ framesOf id x.out := by
  unfold framesIn
  rw [List.flatMap_append, List.flatMap_singleton]

lemma toldIn_concat (id : SessionId) (past : List Moment) (x : Moment) :
    toldIn id (past ++ [x]) = toldIn id past ++ toldOf id x.out := by
  unfold toldIn
  rw [List.flatMap_append, List.flatMap_singleton]

/-! ## Runs and their parts -/

/-- A moment comes of handling an input, or of what happens around the mover. -/
lemma meet_cases (hx : m.meet h = .ok x) : x.before = m ∧ x.happening = h ∧
    ((∃ input, h = .input input ∧ m.handle input = .ok (x.after, x.out)) ∨
      ∃ w, h = .amid w ∧ x.after = m.amid w ∧ x.out = []) := by
  cases h with
  | input input =>
    cases hhandle : m.handle input with
    | error crash => simp [meet, hhandle, Except.map] at hx
    | ok r =>
      simp only [meet, hhandle, Except.map, Except.ok.injEq] at hx
      subst hx
      exact ⟨rfl, rfl, .inl ⟨input, rfl, hhandle⟩⟩
  | amid w =>
    cases hx
    exact ⟨rfl, rfl, .inr ⟨w, rfl, rfl, rfl⟩⟩

lemma course_cons (hrun : m.course (h :: happenings) = .ok moments) :
    ∃ x later, moments = x :: later ∧ m.meet h = .ok x ∧ x.after.course happenings = .ok later := by
  unfold course at hrun
  cases hx : m.meet h with
  | error crash => simp [hx, bind, Except.bind] at hrun
  | ok x =>
    cases hlater : x.after.course happenings with
    | error crash => simp [hx, hlater, bind, Except.bind] at hrun
    | ok later =>
      simp only [hx, hlater, bind, Except.bind, pure, Except.pure, Except.ok.injEq] at hrun
      exact ⟨x, later, hrun.symm, rfl, hlater⟩

@[simp] lemma final_append_cons (m : Mover) (front : List Moment) (x : Moment)
    (back : List Moment) : m.final (front ++ x :: back) = x.after.final back := by
  unfold final
  rw [List.getLast?_append, List.getLast?_cons]
  cases back.getLast? with
  | none => rfl
  | some y => rfl

/-- A part of a run is a run, and a moment starts where those before it end. -/
lemma course_split (hrun : m.course happenings = .ok (front ++ x :: back)) :
    (∃ earlier, m.course earlier = .ok front) ∧ x.before = m.final front ∧
      (∃ h, x.before.meet h = .ok x) ∧ ∃ later, x.after.course later = .ok back := by
  induction front generalizing m happenings with
  | nil =>
    cases happenings with
    | nil => cases hrun
    | cons h rest =>
      obtain ⟨x', later, heq, hx, hlater⟩ := course_cons hrun
      obtain ⟨rfl, rfl⟩ := List.cons_eq_cons.1 heq
      obtain ⟨hbefore, -⟩ := meet_cases hx
      exact ⟨⟨[], rfl⟩, hbefore, ⟨h, hbefore ▸ hx⟩, rest, hlater⟩
  | cons y front ih =>
    cases happenings with
    | nil => cases hrun
    | cons h rest =>
      obtain ⟨y', later, heq, hy, hlater⟩ := course_cons hrun
      obtain ⟨rfl, rfl⟩ := List.cons_eq_cons.1 heq
      obtain ⟨⟨earlier, hearlier⟩, hbefore, hmeet, hback⟩ := ih hlater
      refine ⟨⟨h :: earlier, ?_⟩, ?_, hmeet, hback⟩
      · unfold course
        simp only [hy, hearlier, bind, Except.bind, pure, Except.pure]
      · rw [hbefore]
        exact (final_append_cons m [] y front).symm

lemma course_front (hrun : m.course happenings = .ok (front ++ back)) :
    ∃ earlier, m.course earlier = .ok front := by
  cases back with
  | nil => exact ⟨happenings, by rwa [List.append_nil] at hrun⟩
  | cons x back => exact (course_split hrun).1

/-- What holds of a mover and is kept moment by moment holds at the end of a run. -/
lemma course_induction {motive : List Moment → Mover → Prop} (start : motive [] m)
    (step : ∀ past x h, motive past x.before → x.before.meet h = .ok x →
      motive (past ++ [x]) x.after)
    (hrun : m.course happenings = .ok moments) : motive moments (m.final moments) := by
  induction moments using List.reverseRecOn generalizing happenings with
  | nil => exact start
  | append_singleton past x ih =>
    obtain ⟨⟨earlier, hearlier⟩, hbefore, ⟨h, hmeet⟩, -⟩ := course_split hrun
    rw [final_append_cons]
    exact step past x h (hbefore ▸ ih hearlier) hmeet

/-! ## One moment -/

lemma tidy_of_meet (hm : m.Tidy) (hx : m.meet h = .ok x) : x.after.Tidy := by
  obtain ⟨-, -, ⟨input, -, hhandle⟩ | ⟨w, -, hafter, -⟩⟩ := meet_cases hx
  · exact tidy_of_handle hm hhandle
  · rw [hafter]
    exact hm.amid w

/-- Whatever happens, each outbound session takes one of the turns. -/
lemma sessionTurn_of_meet (hm : m.Tidy) (hx : m.meet h = .ok x) (id : SessionId) :
    SessionTurn m.compressor m.store m.self id (x.opening? id) (x.grant? id) (m.outbound.get? id)
      (framesOf id x.out) (toldOf id x.out) (x.after.outbound.get? id) := by
  obtain ⟨hbefore, hhappening, ⟨input, rfl, hhandle⟩ | ⟨w, rfl, hafter, hout⟩⟩ := meet_cases hx
  · have hturn := sessionTurn_of_handle hm hhandle id
    unfold Moment.opening? Moment.grant?
    rw [hhappening, hbefore]
    exact hturn
  · unfold Moment.opening? Moment.grant?
    rw [hhappening, hafter, hout]
    exact .same _

lemma self_of_meet (hm : m.Tidy) (hx : m.meet h = .ok x) : x.after.self = m.self := by
  obtain ⟨-, -, ⟨input, -, hhandle⟩ | ⟨w, -, hafter, -⟩⟩ := meet_cases hx
  · exact (handle_self hm hhandle).1
  · rw [hafter]
    rfl

lemma compressor_of_meet (hm : m.Tidy) (hx : m.meet h = .ok x) :
    x.after.compressor = m.compressor := by
  obtain ⟨-, -, ⟨input, -, hhandle⟩ | ⟨w, -, hafter, -⟩⟩ := meet_cases hx
  · exact (handle_rest hm hhandle).2.2.1
  · rw [hafter]
    rfl

lemma ended_of_meet (hm : m.Tidy) (hx : m.meet h = .ok x)
    (hfinished : x.after.finished.contains id = true) :
    m.finished.contains id = true ∨ m.outbound.get? id ≠ none ∧
      (x.opening? id = none → x.after.outbound.get? id = none) := by
  obtain ⟨hbefore, hhappening, ⟨input, rfl, hhandle⟩ | ⟨w, -, hafter, -⟩⟩ := meet_cases hx
  · have hended := ended_of_handle hm hhandle hfinished
    unfold Moment.opening?
    rw [hhappening, hbefore]
    exact hended
  · rw [hafter] at hfinished
    exact .inl hfinished

/-- A mover between the moments of a run in which some numbers were drawn: no session that is open
or remembered as ended has a number but those. -/
structure Orderly (m : Mover) (drawn : List SessionId) : Prop where
  tidy : m.Tidy
  known : ∀ id, m.outbound.get? id ≠ none ∨ m.finished.contains id = true → id ∈ drawn

lemma start_outbound (self : NodeId) (config : TransferConfig) (store : Store) (ids : IdSource)
    (c : Compressor) (id : SessionId) :
    (start self config store ids c).outbound.get? id = none :=
  SortedMap.get?_empty id

lemma orderly_start (self : NodeId) (config : TransferConfig) (store : Store) (ids : IdSource)
    (c : Compressor) : (start self config store ids c).Orderly [] := by
  refine ⟨tidy_start self config store ids c, fun id hid => ?_⟩
  rcases hid with hid | hid
  · exact absurd (start_outbound self config store ids c id) hid
  · exact absurd (SortedSet.contains_iff_mem.1 hid) (SortedSet.not_mem_empty id)

lemma settled_start (self : NodeId) (config : TransferConfig) (store : Store) (ids : IdSource)
    (c : Compressor) : (start self config store ids c).Settled := by
  have hnone := start_outbound self config store ids c
  refine ⟨fun n id => ?_, fun id s hs => ?_⟩
  · unfold destination?
    rw [hnone id]
    exact iff_of_false (fun h => nomatch (SortedMap.get?_empty n).symm.trans h) (fun h => nomatch h)
  · cases (hnone id).symm.trans hs

/-- A session that is opened has the number that is drawn then. -/
lemma orderly_of_meet {drawn : List SessionId} (hm : m.Orderly drawn) (hx : m.meet h = .ok x) :
    x.after.Orderly (drawn ++ x.drawn?.toList) := by
  refine ⟨tidy_of_meet hm.tidy hx, fun id => ?_⟩
  rintro (hid | hid)
  · by_cases hdrawn : x.drawn? = some id
    · simp [hdrawn]
    · have hturn := sessionTurn_of_meet hm.tidy hx id
      rw [Moment.opening?_eq_none_iff.2 hdrawn] at hturn
      refine List.mem_append_left _ (hm.known id (.inl fun hnone => hid ?_))
      rw [hnone] at hturn
      exact hturn.of_none.1
  · refine List.mem_append_left _ (hm.known id ?_)
    exact (ended_of_meet hm.tidy hx hid).symm.imp_left And.left

/-- Sessions and index stay inverse to each other while numbers are drawn that were not drawn
before. -/
lemma settled_of_meet {drawn : List SessionId} (hm : m.Orderly drawn) (hs : m.Settled)
    (hx : m.meet h = .ok x) (hfresh : ∀ id, x.drawn? = some id → id ∉ drawn) :
    x.after.Settled := by
  obtain ⟨hbefore, hhappening, ⟨input, rfl, hhandle⟩ | ⟨w, -, hafter, -⟩⟩ := meet_cases hx
  · refine settled_of_handle hm.tidy hs hhandle fun id hopen => ?_
    by_contra hold
    have hopening : m.opening? input id = x.opening? id := by
      unfold Moment.opening?
      rw [hhappening, hbefore]
    refine hfresh id ?_ (hm.known id (.inl hold))
    by_contra hdrawn
    rw [hopening, Moment.opening?_eq_none_iff.2 hdrawn] at hopen
    cases hopen
  · rw [hafter]
    exact ⟨hs.indexed, hs.active⟩

/-! ## Runs from the start -/

/-- What holds of an orderly mover and is kept moment by moment holds at the end of a run, and the
mover is orderly there. -/
lemma orderly_induction {motive : List Moment → Mover → Prop} (hm : m.Orderly [])
    (start : motive [] m)
    (step : ∀ past x h, x.before.Orderly (numbers past) → motive past x.before →
      x.before.meet h = .ok x → motive (past ++ [x]) x.after)
    (hrun : m.course happenings = .ok moments) :
    (m.final moments).Orderly (numbers moments) ∧ motive moments (m.final moments) := by
  refine course_induction (motive := fun past m' => m'.Orderly (numbers past) ∧ motive past m')
    ⟨hm, start⟩ (fun past x h ⟨horderly, hmotive⟩ hmeet => ⟨?_, ?_⟩) hrun
  · rw [numbers_concat]
    exact orderly_of_meet horderly hmeet
  · exact step past x h horderly hmotive hmeet

/-- A mover is orderly before each moment of a run. -/
lemma orderly_of_course (hm : m.Orderly [])
    (hrun : m.course happenings = .ok (front ++ x :: back)) : x.before.Orderly (numbers front) := by
  obtain ⟨⟨earlier, hearlier⟩, hbefore, -, -⟩ := course_split hrun
  rw [hbefore]
  exact (orderly_induction (motive := fun _ _ => True) hm trivial (fun _ _ _ _ _ _ => trivial)
    hearlier).1

lemma kept_of_course (hm : m.Tidy) (hrun : m.course happenings = .ok (front ++ x :: back)) :
    x.before.self = m.self ∧ x.before.compressor = m.compressor := by
  obtain ⟨⟨earlier, hearlier⟩, hbefore, -, -⟩ := course_split hrun
  rw [hbefore]
  refine (course_induction (motive := fun _ m' =>
      m'.Tidy ∧ m'.self = m.self ∧ m'.compressor = m.compressor) ⟨hm, rfl, rfl⟩
    (fun past y h ⟨htidy, hself, hcompressor⟩ hmeet => ?_) hearlier).2
  exact ⟨tidy_of_meet htidy hmeet, (self_of_meet htidy hmeet).trans hself,
    (compressor_of_meet htidy hmeet).trans hcompressor⟩

/-- A number that is drawn in a run without repetition was not drawn before. -/
lemma not_drawn_before (hfresh : (numbers (front ++ [x])).Nodup) (hid : x.drawn? = some id) :
    id ∉ numbers front := by
  rw [numbers_concat] at hfresh
  exact fun hmem => (List.nodup_append.1 hfresh).2.2 id hmem id (by simp [hid]) rfl

end

end Mover

end ReplicaRing
