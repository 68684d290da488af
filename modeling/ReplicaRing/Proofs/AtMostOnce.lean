import Mathlib.Data.Finset.Card
import Mathlib.Data.List.DropRight
import ReplicaRing.Proofs.Arrivals
import ReplicaRing.Proofs.RecentMemory

/-!
An operation runs at most once within the window of the memory. The memory holds the numbers that
ran last, as many as the window is wide, `Engine.remembers_arrivals`; an operation runs only if its
number is none of them. So between two runs of one number there is a window full of others,
`Spaced.window_le`, and a number that is still in the window is answered as a duplicate,
`Engine.at_most_once`.
-/

namespace ReplicaRing

/-! ## Values that keep a distance -/

/-- Equal values stand further apart than some width. -/
def Spaced {α : Type} (w : Nat) (l : List α) : Prop :=
  ∀ i j a, i < j → j ≤ i + w → l[i]? = some a → l[j]? ≠ some a

section

variable {α : Type} {w : Nat} {l : List α} {a : α}

lemma spaced_nil (w : Nat) : Spaced w ([] : List α) := fun _ _ _ _ _ hi => by cases hi

/-- A value that is none of the last ones keeps the distance. -/
lemma Spaced.append_singleton (h : Spaced w l) (ha : a ∉ l.rtake w) : Spaced w (l ++ [a]) := by
  intro i j b hij hw hi hj
  have hlength : j < l.length + 1 := by
    have hlt := (List.getElem?_eq_some_iff.1 hj).1
    rwa [List.length_append, List.length_singleton] at hlt
  rw [List.getElem?_append_left (by omega)] at hi
  by_cases hlast : j < l.length
  · rw [List.getElem?_append_left hlast] at hj
    exact h i j b hij hw hi hj
  · -- the new value stands at the end, and the other one is among the last before it
    have hend : j = l.length := by omega
    rw [hend, List.getElem?_concat_length, Option.some.injEq] at hj
    subst hj
    apply ha
    have hin : (l.drop (l.length - w))[i - (l.length - w)]? = some a := by
      rw [List.getElem?_drop, Nat.add_sub_cancel' (by omega)]
      exact hi
    exact List.mem_of_getElem? hin

/-- Between two equal values stand as many others, all different, as the width says. -/
theorem Spaced.window_le [DecidableEq α] {front mid rest : List α}
    (h : Spaced w (front ++ a :: mid ++ a :: rest)) : w ≤ (mid.toFinset.erase a).card := by
  set l := front ++ a :: mid ++ a :: rest with hl
  have hfirst : l[front.length]? = some a := by simp [hl]
  have hsecond : l[front.length + 1 + mid.length]? = some a := by
    have hlength : (front ++ a :: mid).length = front.length + 1 + mid.length := by
      rw [List.length_append, List.length_cons]
      omega
    rw [hl, ← hlength]
    simp
  have hmid : ∀ n b, mid[n]? = some b → l[front.length + 1 + n]? = some b := by
    intro n b hn
    have hlt := (List.getElem?_eq_some_iff.1 hn).1
    have hsplit : l = (front ++ [a]) ++ (mid ++ a :: rest) := by simp [hl]
    rw [hsplit, List.getElem?_append_right (by simp), List.getElem?_append_left (by simpa)]
    simpa using hn
  -- the two are further apart than the width
  have hfar : w ≤ mid.length := by
    by_contra hnear
    exact h _ _ a (by omega) (by omega) hfirst hsecond
  -- so the first ones between them are different from each other and from the value
  have htake : ∀ n b, (mid.take w)[n]? = some b → n < w ∧ l[front.length + 1 + n]? = some b := by
    intro n b hn
    rw [List.getElem?_take] at hn
    split at hn
    · exact ⟨‹n < w›, hmid n b hn⟩
    · cases hn
  have hnodup : (mid.take w).Nodup := by
    rw [List.nodup_iff_getElem?_ne_getElem?]
    intro i j hij hj heq
    obtain ⟨hw, hsecond⟩ := htake j _ (List.getElem?_eq_getElem hj)
    obtain ⟨-, hfirst⟩ := htake i _ (heq.trans (List.getElem?_eq_getElem hj))
    exact h _ _ _ (by omega) (by omega) hfirst hsecond
  have hother : a ∉ mid.take w := by
    intro hin
    obtain ⟨n, hn⟩ := List.getElem?_of_mem hin
    obtain ⟨hw, hlater⟩ := htake n a hn
    exact h _ _ a (by omega) (by omega) hfirst hlater
  calc w = (mid.take w).toFinset.card := by
        rw [List.toFinset_card_of_nodup hnodup, List.length_take, Nat.min_eq_left hfar]
    _ ≤ (mid.toFinset.erase a).card := by
        refine Finset.card_le_card fun b hb => ?_
        rw [List.mem_toFinset] at hb
        rw [Finset.mem_erase, List.mem_toFinset]
        exact ⟨fun heq => hother (heq ▸ hb), List.mem_of_mem_take hb⟩

end

/-! ## The memory as a window -/

/-- A memory that holds the last of some numbers, as many as its capacity allows. -/
structure RecentSet.Window (w : Nat) (ids : List OperationId) (s : RecentSet OperationId) :
    Prop where
  valid : s.Valid
  capacity : s.capacity = w
  order : s.order = ids.rtake w

namespace RecentSet

variable {w : Nat} {ids : List OperationId} {s : RecentSet OperationId} {id : OperationId}

lemma window_empty (w : Nat) : (empty w : RecentSet OperationId).Window w [] :=
  ⟨valid_empty w, rfl, (List.rtake_nil ..).symm⟩

lemma Window.contains_iff (h : s.Window w ids) (id : OperationId) :
    s.contains id = true ↔ id ∈ ids.rtake w := by
  rw [h.valid.contains_iff, h.order]

/-- A number that is new to the memory moves the window on. -/
lemma Window.insert (h : s.Window w ids) (hnew : s.contains id = false) :
    (s.insert id).Window w (ids ++ [id]) := by
  refine ⟨h.valid.insert id, (capacity_insert s id).trans h.capacity, ?_⟩
  have hkept : ids.drop (ids.length - w) ++ [id] = (ids ++ [id]).drop (ids.length - w) :=
    (List.drop_append_of_le_length (Nat.sub_le ..)).symm
  rw [order_insert hnew, h.order, h.capacity, List.rtake, List.rtake, hkept, List.drop_drop,
    List.length_drop, List.length_append, List.length_singleton]
  congr 1
  omega

end RecentSet

namespace Execution

variable {w : Nat} {ids : List OperationId} {memory : RecentSet OperationId}

/-- An operation is a duplicate if its number is in the window. -/
lemma verdict_eq_duplicate_iff {x : Execution} :
    x.verdict = .duplicate ↔ x.before.executed.contains x.op.id = true := by
  unfold verdict Verdict.of
  split
  · simp [*]
  · split
    · simp [*]
    · simp [*]

/-- An execution moves the window on if it runs, which keeps the distance. -/
lemma window_after {x : Execution} (hx : x.before.executed = memory) (hw : memory.Window w ids)
    (hs : Spaced w ids) :
    (memoryAfter memory [x]).Window w (ids ++ ranIds [x]) ∧ Spaced w (ids ++ ranIds [x]) := by
  by_cases hruns : x.verdict = .accepted
  · have hnew : memory.contains x.op.id = false := by
      have hne : x.verdict ≠ .duplicate := by simp [hruns]
      rw [Ne, verdict_eq_duplicate_iff, hx, Bool.not_eq_true] at hne
      exact hne
    rw [memoryAfter_singleton, ranIds_singleton, if_pos hruns, if_pos hruns]
    refine ⟨hw.insert hnew, hs.append_singleton fun hin => ?_⟩
    rw [(hw.contains_iff _).2 hin] at hnew
    cases hnew
  · rw [memoryAfter_singleton, ranIds_singleton, if_neg hruns, if_neg hruns, List.append_nil]
    exact ⟨hw, hs⟩

/-- Chained executions keep the distance, and each one finds the window of the numbers that ran
before it. -/
theorem Chained.window {xs : List Execution} (h : Chained memory xs) (hw : memory.Window w ids)
    (hs : Spaced w ids) :
    Spaced w (ids ++ ranIds xs) ∧
      ∀ front x rest, xs = front ++ x :: rest →
        x.before.executed.Window w (ids ++ ranIds front) := by
  induction xs generalizing memory ids with
  | nil =>
    refine ⟨?_, fun front x rest heq => by simp at heq⟩
    rw [show ranIds [] = [] from rfl, List.append_nil]
    exact hs
  | cons x xs ih =>
    obtain ⟨hx, hrest⟩ := h
    obtain ⟨hnext, hspaced⟩ := window_after hx hw hs
    obtain ⟨hall, hfound⟩ := ih hrest hnext hspaced
    have hids : ∀ ys, ids ++ ranIds [x] ++ ranIds ys = ids ++ ranIds (x :: ys) := by
      intro ys
      rw [List.append_assoc, ← ranIds_append]
      rfl
    rw [hids] at hall
    refine ⟨hall, fun front y rest heq => ?_⟩
    cases front with
    | nil =>
      obtain ⟨rfl, rfl⟩ := List.cons.inj heq
      rw [show ranIds [] = [] from rfl, List.append_nil, hx]
      exact hw
    | cons z front =>
      obtain ⟨rfl, hsplit⟩ := List.cons.inj heq
      rw [← hids]
      exact hfound front y rest hsplit

/-! ## Duplicates -/

/-- A duplicate is answered so, and nothing happens; nothing else is answered so. -/
lemma answer_duplicate_iff (x : Execution) :
    (x.verdict = .duplicate ↔ x.answer.response = .duplicate) ∧
      (x.verdict = .duplicate →
        x.answer = .unchanged x.op.id .duplicate ∧ x.after = x.before) := by
  rw [verdict_eq_duplicate_iff]
  have hx := x.handled
  generalize x.after = after, x.answer = answer at hx ⊢
  cases hx with
  | duplicate hknown => exact ⟨iff_of_true hknown rfl, fun _ => ⟨rfl, rfl⟩⟩
  | noView hnew | outside hnew | failed hnew => simp [hnew, Engine.unavailable, Answer.unchanged]
  | performed hnew hr hin hdone =>
    -- no operation is performed with this answer
    have hperformed := Engine.performed hdone
    generalize x.op.kind = kind at hperformed
    cases hperformed with
    | _ => simp [hnew]

end Execution

namespace Engine

open Execution

/-- Each execution of a run finds the window of the numbers that ran before it, and these keep the
distance of the window. -/
theorem remembers_arrivals (self : NodeId) (config : ReplicationConfig) (store : Store)
    (arrivals : List Arrival) :
    let xs := (start self config store).executions arrivals
    Spaced config.dedupWindow (ranIds xs) ∧
      ∀ front x rest, xs = front ++ x :: rest →
        x.before.executed.Window config.dedupWindow (ranIds front) :=
  (chained_arrivals (consistent_start self config store) arrivals).window
    (RecentSet.window_empty config.dedupWindow) (spaced_nil config.dedupWindow)

/-- In every run of an engine, between two runs of operations of one number as many operations of
other numbers run, all different, as the window is wide. An operation that comes up for execution
is answered as a duplicate if its number is among so many that ran last, and only then; it changes
nothing. What comes up is answered in that order, and all other answers are to operations that are
given up. -/
theorem at_most_once (self : NodeId) (config : ReplicationConfig) (store : Store)
    (arrivals : List Arrival) :
    let xs := (start self config store).executions arrivals
    (∀ front x mid y rest, accepted xs = front ++ x :: mid ++ y :: rest → x.op.id = y.op.id →
        config.dedupWindow ≤ ((mid.map fun z => z.op.id).toFinset.erase x.op.id).card) ∧
      (∀ front x rest, xs = front ++ x :: rest →
        (x.op.id ∈ (ranIds front).rtake config.dedupWindow ↔ x.answer.response = .duplicate) ∧
          (x.op.id ∈ (ranIds front).rtake config.dedupWindow →
            x.answer = .unchanged x.op.id .duplicate ∧ x.after = x.before)) ∧
      (xs.map Execution.answer).Sublist ((start self config store).answers arrivals) ∧
      ∀ a ∈ (start self config store).answers arrivals,
        a ∈ xs.map Execution.answer ∨ ∃ op, a = giveUp op := by
  intro xs
  obtain ⟨hspaced, hfound⟩ := remembers_arrivals self config store arrivals
  refine ⟨fun front x mid y rest hran hsame => ?_, fun front x rest hsplit => ?_,
    answers_arrivals _ arrivals⟩
  · have hids : ranIds xs = front.map (fun z => z.op.id) ++
        x.op.id :: mid.map (fun z => z.op.id) ++ x.op.id :: rest.map fun z => z.op.id := by
      unfold ranIds
      rw [hran]
      simp [hsame]
    rw [hids] at hspaced
    exact hspaced.window_le
  · have hwindow := (hfound front x rest hsplit).contains_iff x.op.id
    rw [← verdict_eq_duplicate_iff] at hwindow
    obtain ⟨hduplicate, hnothing⟩ := x.answer_duplicate_iff
    exact ⟨hwindow.symm.trans hduplicate, fun hin => hnothing (hwindow.2 hin)⟩

end Engine

end ReplicaRing
