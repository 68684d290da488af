import Mathlib.Data.List.DropRight
import Mathlib.Tactic.Common
import ReplicaRing.Transfer.RecentSet

/-!
A memory that holds its order. It contains exactly what stands in its order, each value once and
no more of them than its capacity. A value that is held when it comes does not count: what is
remembered are the last of those values that were not, `RecentSet.remembers_last_admitted`. Two
memories of one capacity that took the same values last contain the same of these, whatever they
took before and however much of it they forgot since, `RecentSet.Alike.insert`.
-/

namespace ReplicaRing

namespace RecentSet

/-- Going beyond a capacity drops of what is old first. -/
lemma drop_old {α : Type} (old new : List α) (capacity : Nat) (a : α) :
    ∃ old₁, (old ++ new ++ [a]).drop ((old ++ new).length + 1 - capacity) =
      old₁ ++ (new ++ [a]).drop (new.length + 1 - capacity) ∧ ∀ b ∈ old₁, b ∈ old := by
  refine ⟨old.drop ((old ++ new).length + 1 - capacity), ?_, fun b hb => List.mem_of_mem_drop hb⟩
  rw [List.append_assoc, List.drop_append, List.length_append]
  congr 2
  omega

variable {α : Type} [Ord α]

/-- The members are the order, without repetition and within the capacity. -/
structure Valid (s : RecentSet α) : Prop where
  members : ∀ a, a ∈ s.members ↔ a ∈ s.order
  nodup : s.order.Nodup
  bounded : s.order.length ≤ s.capacity

lemma valid_empty (capacity : Nat) : (empty capacity : RecentSet α).Valid :=
  ⟨fun a => ⟨fun h => absurd h (SortedSet.not_mem_empty a), fun h => (nomatch h)⟩, .nil,
    Nat.zero_le _⟩

variable [Std.TransOrd α] [Std.LawfulEqOrd α] {s s' : RecentSet α} {a b : α}

omit [Std.TransOrd α] in
lemma Valid.contains_iff (h : s.Valid) (a : α) : s.contains a = true ↔ a ∈ s.order := by
  rw [← h.members a]
  exact SortedSet.contains_iff_mem

omit [Std.TransOrd α] in
/-- What is erased in turn is gone. -/
lemma mem_foldl_erase {l : List α} {t : SortedSet α} :
    b ∈ l.foldl SortedSet.erase t ↔ b ∈ t ∧ b ∉ l := by
  induction l generalizing t with
  | nil => simp
  | cons c l ih =>
    rw [List.foldl_cons, ih, SortedSet.mem_erase, List.mem_cons, not_or, and_assoc]

omit [Std.LawfulEqOrd α] in
/-- A new value goes to the end, and what is too much goes from the front. -/
lemma order_insert (h : s.contains a = false) :
    (s.insert a).order = (s.order ++ [a]).drop (s.order.length + 1 - s.capacity) := by
  unfold insert
  rw [if_neg (by rw [h]; simp)]
  show (s.order ++ [a]).drop ((s.order ++ [a]).length - s.capacity) = _
  rw [List.length_append, List.length_singleton]

omit [Std.LawfulEqOrd α] in
lemma capacity_insert (s : RecentSet α) (a : α) : (s.insert a).capacity = s.capacity := by
  unfold insert
  split
  · rfl
  · rfl

omit [Std.LawfulEqOrd α] in
lemma insert_of_contains (h : s.contains a = true) : s.insert a = s := by
  unfold insert
  rw [if_pos h]

/-- A memory holds nothing new but the value that is put in. -/
lemma contains_of_insert (h : (s.insert a).contains b = true) : b = a ∨ s.contains b = true := by
  by_cases hknown : s.contains a = true
  · rw [insert_of_contains hknown] at h
    exact .inr h
  · -- what is forgotten on the way was held before or is the value itself
    unfold insert at h
    rw [if_neg hknown] at h
    have hmem := mem_foldl_erase.1 (SortedSet.contains_iff_mem.1 h)
    rcases SortedSet.mem_insert.1 hmem.1 with heq | hbefore
    · exact .inl heq
    · exact .inr (SortedSet.contains_iff_mem.2 hbefore)

lemma Valid.insert (h : s.Valid) (a : α) : (s.insert a).Valid := by
  by_cases hknown : s.contains a = true
  · rw [insert_of_contains hknown]
    exact h
  · have hnew : a ∉ s.order := fun ha => hknown ((h.contains_iff a).2 ha)
    have hnodup : (s.order ++ [a]).Nodup := by
      rw [List.nodup_append]
      refine ⟨h.nodup, by simp, fun x hx y hy => ?_⟩
      rw [List.mem_singleton.1 hy]
      exact fun heq => hnew (heq ▸ hx)
    rw [Bool.not_eq_true] at hknown
    have horder := order_insert hknown
    refine ⟨fun b => ?_, ?_, ?_⟩
    · have hmembers : (s.insert a).members =
          ((s.order ++ [a]).take (s.order.length + 1 - s.capacity)).foldl SortedSet.erase
            (s.members.insert a) := by
        unfold RecentSet.insert
        rw [if_neg (by rw [hknown]; simp)]
        show ((s.order ++ [a]).take ((s.order ++ [a]).length - s.capacity)).foldl _ _ = _
        rw [List.length_append, List.length_singleton]
      have hall : b ∈ s.members.insert a ↔ b ∈ s.order ++ [a] := by
        rw [SortedSet.mem_insert, h.members b, List.mem_append, List.mem_singleton, or_comm]
      rw [hmembers, horder, mem_foldl_erase, hall]
      -- what is not among the first is among the last, since nothing stands in both
      set n := s.order.length + 1 - s.capacity
      have hsplit : s.order ++ [a] = (s.order ++ [a]).take n ++ (s.order ++ [a]).drop n :=
        (List.take_append_drop n _).symm
      rw [hsplit, List.nodup_append] at hnodup
      constructor
      · rintro ⟨hb, hfirst⟩
        rw [hsplit, List.mem_append] at hb
        exact hb.resolve_left hfirst
      · intro hlast
        exact ⟨List.mem_of_mem_drop hlast, fun hfirst => hnodup.2.2 b hfirst b hlast rfl⟩
    · rw [horder]
      exact hnodup.sublist (List.drop_sublist _ _)
    · rw [horder, capacity_insert, List.length_drop, List.length_append, List.length_singleton]
      omega

/-! ## How long a value is remembered -/

/-- A value is remembered, with at most so many behind it. -/
def Aged (s : RecentSet α) (a : α) (age : Nat) : Prop :=
  ∃ older newer, s.order = older ++ a :: newer ∧ newer.length ≤ age

omit [Std.TransOrd α] in
lemma Aged.contains {age : Nat} (h : s.Aged a age) (hs : s.Valid) : s.contains a = true := by
  obtain ⟨older, newer, horder, -⟩ := h
  rw [hs.contains_iff, horder]
  simp

omit [Std.LawfulEqOrd α] in
lemma aged_insert_self (h : s.contains a = false) (hcapacity : 0 < s.capacity) :
    (s.insert a).Aged a 0 := by
  refine ⟨s.order.drop (s.order.length + 1 - s.capacity), [], ?_, Nat.le_refl 0⟩
  rw [order_insert h, List.drop_append_of_le_length (by omega)]

omit [Std.LawfulEqOrd α] in
/-- A value that is put in drops one that is older, as long as the capacity is not used up. -/
lemma Aged.insert {age : Nat} (h : s.Aged a age) (hage : age + 1 < s.capacity) (b : α) :
    (s.insert b).Aged a (age + 1) := by
  obtain ⟨older, newer, horder, hnewer⟩ := h
  by_cases hknown : s.contains b = true
  · rw [insert_of_contains hknown]
    exact ⟨older, newer, horder, by omega⟩
  · rw [Bool.not_eq_true] at hknown
    have hlength : s.order.length = older.length + (newer.length + 1) := by
      rw [horder, List.length_append, List.length_cons]
    refine ⟨older.drop (s.order.length + 1 - s.capacity), newer ++ [b], ?_, ?_⟩
    · rw [order_insert hknown, horder, List.append_assoc, ← horder,
        List.drop_append_of_le_length (by omega)]
      rfl
    · rw [List.length_append, List.length_singleton]
      omega

omit [Std.LawfulEqOrd α] in
/-- A value stays while fewer values are put in than the capacity has room for. -/
theorem Aged.foldl_insert {age : Nat} (h : s.Aged a age) {bs : List α}
    (hage : age + bs.length < s.capacity) :
    (bs.foldl RecentSet.insert s).Aged a (age + bs.length) := by
  induction bs generalizing s age with
  | nil => exact h
  | cons b bs ih =>
    rw [List.length_cons] at hage ⊢
    have hnext := ih (h.insert (by omega) b) (by rw [capacity_insert]; omega)
    rwa [Nat.add_assoc, Nat.add_comm 1] at hnext

lemma Valid.foldl_insert (h : s.Valid) (bs : List α) : (bs.foldl RecentSet.insert s).Valid :=
  List.foldlRecOn (motive := Valid) bs RecentSet.insert h fun _ hs b _ => hs.insert b

omit [Std.LawfulEqOrd α] in
lemma capacity_foldl_insert (s : RecentSet α) (bs : List α) :
    (bs.foldl RecentSet.insert s).capacity = s.capacity :=
  List.foldlRecOn (motive := fun s' => s'.capacity = s.capacity) bs RecentSet.insert rfl
    fun s' hs b _ => (capacity_insert s' b).trans hs

lemma contains_of_foldl_insert {bs : List α} (h : (bs.foldl RecentSet.insert s).contains a = true) :
    a ∈ bs ∨ s.contains a = true := by
  induction bs generalizing s with
  | nil => exact .inr h
  | cons b bs ih =>
    rcases ih h with hmem | hinsert
    · exact .inl (List.mem_cons_of_mem b hmem)
    · rcases contains_of_insert hinsert with rfl | hbefore
      · exact .inl List.mem_cons_self
      · exact .inr hbefore

/-! ## What is remembered -/

/-- The values that were not held when they came, of some that come one after another. -/
def admitted (s : RecentSet α) : List α → List α
  | [] => []
  | a :: rest =>
    if s.contains a then s.admitted rest else a :: (s.insert a).admitted rest

/-- The memory after some values. -/
def ofValues (capacity : Nat) (values : List α) : RecentSet α :=
  values.foldl RecentSet.insert (empty capacity)

/-- The last values of a list that begins with the last ones of another. -/
lemma rtake_rtake_append {α : Type} (l l' : List α) (n : Nat) :
    (l.rtake n ++ l').rtake n = (l ++ l').rtake n := by
  unfold List.rtake
  rw [← List.drop_append_of_le_length (Nat.sub_le l.length n), List.drop_drop, List.length_drop]
  congr 1
  rw [List.length_append]
  omega

omit [Std.LawfulEqOrd α] in
/-- The order ends with the values that were admitted last. -/
lemma order_foldl_insert (hbounded : s.order.length ≤ s.capacity) (values : List α) :
    (values.foldl RecentSet.insert s).order =
      (s.order ++ s.admitted values).rtake s.capacity := by
  induction values generalizing s with
  | nil =>
    unfold admitted List.rtake
    rw [List.append_nil, Nat.sub_eq_zero_of_le hbounded]
    rfl
  | cons a values ih =>
    unfold admitted
    rw [List.foldl_cons]
    by_cases hknown : s.contains a = true
    · rw [insert_of_contains hknown, if_pos hknown]
      exact ih hbounded
    · rw [if_neg hknown]
      rw [Bool.not_eq_true] at hknown
      have horder : (s.insert a).order = (s.order ++ [a]).rtake (s.insert a).capacity := by
        rw [order_insert hknown, capacity_insert]
        unfold List.rtake
        rw [List.length_append, List.length_singleton]
      have hbounded' : (s.insert a).order.length ≤ (s.insert a).capacity := by
        rw [horder]
        unfold List.rtake
        rw [List.length_drop]
        omega
      rw [ih hbounded', horder, rtake_rtake_append, capacity_insert, List.append_assoc]
      rfl

/-- After any values, the set and the order of a memory hold the same values, each of them once and
no more than its capacity. These are the last ones of the values that were not held when they
came. -/
theorem remembers_last_admitted (capacity : Nat) (values : List α) :
    (ofValues capacity values).members.toList.Perm (ofValues capacity values).order ∧
      (ofValues capacity values).order.Nodup ∧
      (ofValues capacity values).order.length ≤ capacity ∧
      ∀ a, (ofValues capacity values).contains a = true ↔
        a ∈ ((empty capacity).admitted values).rtake capacity := by
  have hvalid : (ofValues capacity values).Valid := (valid_empty capacity).foldl_insert values
  have hcapacity : (ofValues capacity values).capacity = capacity :=
    capacity_foldl_insert (empty capacity) values
  have horder : (ofValues capacity values).order =
      ((empty capacity).admitted values).rtake capacity :=
    order_foldl_insert (Nat.zero_le _) values
  refine ⟨?_, hvalid.nodup, hvalid.bounded.trans_eq hcapacity, fun a => ?_⟩
  · exact (List.perm_ext_iff_of_nodup (SortedSet.nodup_toList _) hvalid.nodup).2 hvalid.members
  · rw [hvalid.contains_iff, horder]

/-- A value that is held does not get younger, and one that was forgotten may come back. -/
theorem remembers_last_admitted_readmitted :
    (empty 2).admitted [1, 2, 1, 3, 1] = [1, 2, 3, 1] ∧
      (ofValues 2 [1, 2, 1, 3, 1]).order.length ≤ 2 ∧
      (ofValues 2 [1, 2, 1, 3, 1]).contains 1 = true ∧
      ¬ (ofValues 2 [1, 2, 1, 3, 1]).contains 2 = true := by
  have hadmitted : (empty 2).admitted [1, 2, 1, 3, 1] = [1, 2, 3, 1] := by decide
  obtain ⟨-, -, hbounded, hcontains⟩ := remembers_last_admitted 2 [1, 2, 1, 3, 1]
  rw [hadmitted] at hcontains
  exact ⟨hadmitted, hbounded, (hcontains 1).2 (by decide), fun h => absurd ((hcontains 2).1 h)
    (by decide)⟩

/-! ## Memories that took the same values last -/

/-- The orders end alike, and none of some values stands in front of that end. -/
def Alike (p : α → Prop) (s s' : RecentSet α) : Prop :=
  s.capacity = s'.capacity ∧ ∃ old old' new, s.order = old ++ new ∧ s'.order = old' ++ new ∧
    (∀ a ∈ old, ¬ p a) ∧ ∀ a ∈ old', ¬ p a

variable {p : α → Prop}

omit [Std.TransOrd α] [Std.LawfulEqOrd α] in
/-- Memories that hold none of the values are alike. -/
lemma alike_of_not_mem (hcapacity : s.capacity = s'.capacity) (h : ∀ a ∈ s.order, ¬ p a)
    (h' : ∀ a ∈ s'.order, ¬ p a) : Alike p s s' :=
  ⟨hcapacity, s.order, s'.order, [], (List.append_nil _).symm, (List.append_nil _).symm, h, h'⟩

omit [Std.TransOrd α] in
lemma Alike.contains (h : Alike p s s') (hs : s.Valid) (hs' : s'.Valid) (ha : p a) :
    s.contains a = s'.contains a := by
  obtain ⟨-, old, old', new, horder, horder', hold, hold'⟩ := h
  have hiff : s.contains a = true ↔ s'.contains a = true := by
    rw [hs.contains_iff, hs'.contains_iff, horder, horder', List.mem_append, List.mem_append]
    constructor
    · rintro (hin | hin)
      · exact absurd ha (hold a hin)
      · exact .inr hin
    · rintro (hin | hin)
      · exact absurd ha (hold' a hin)
      · exact .inr hin
  exact Bool.eq_iff_iff.2 hiff

/-- Memories that are alike stay so when both take the same value. -/
theorem Alike.insert (h : Alike p s s') (hs : s.Valid) (hs' : s'.Valid) (ha : p a) :
    Alike p (s.insert a) (s'.insert a) := by
  have hsame := h.contains hs hs' ha
  by_cases hknown : s.contains a = true
  · rw [insert_of_contains hknown, insert_of_contains (hsame ▸ hknown)]
    exact h
  · rw [Bool.not_eq_true] at hknown
    obtain ⟨hcapacity, old, old', new, horder, horder', hold, hold'⟩ := h
    -- what is dropped comes off the old first; the new shrinks by the same amount in both
    obtain ⟨old₁, hdrop, hsub⟩ := drop_old old new s.capacity a
    obtain ⟨old₁', hdrop', hsub'⟩ := drop_old old' new s'.capacity a
    refine ⟨by rw [capacity_insert, capacity_insert, hcapacity], old₁, old₁',
      (new ++ [a]).drop (new.length + 1 - s.capacity), ?_, ?_, fun b hb => hold b (hsub b hb),
      fun b hb => hold' b (hsub' b hb)⟩
    · rw [order_insert hknown, horder, hdrop]
    · rw [order_insert (hsame ▸ hknown), horder', hdrop', hcapacity]

end RecentSet

end ReplicaRing
