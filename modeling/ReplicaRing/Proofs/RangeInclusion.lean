import ReplicaRing.Proofs.KeyRanges

/-!
Emptiness and inclusion, which are read off the bounds of ranges, against the keys that the ranges
hold. A range without keys is found to be empty unless it is the one in front of the first key,
`KeyRange.isEmpty_iff`. A range that covers another includes it, and one that includes another
covers it unless the two write the same end in different ways, `KeyRange.covers_iff`. Covering is an
order, and whoever covers a range covers what of it lies above a key.
-/

namespace ReplicaRing

namespace KeyRange

variable {r other last : KeyRange} {k : Key}

/-! ## Ranges without keys -/

/-- The keys in front of the first one: there are none. -/
def belowAll : KeyRange := ⟨.unbounded, .excluded []⟩

/-- A range that holds a key holds the lowest that its start admits. -/
lemma contains_lowest (h : r.contains k = true) : r.contains r.start.lowest = true := by
  obtain ⟨hstart, hstop⟩ := contains_iff.1 h
  exact contains_iff.2 ⟨Std.le_refl _, fun e he => Std.lt_of_le_of_lt hstart (hstop e he)⟩

/-- A range holds nothing if it ends where it starts or before. -/
lemma holds_nothing_iff :
    (∀ k, r.contains k = false) ↔ ∃ e ∈ r.stop.beyond, e ≤ r.start.lowest := by
  constructor
  · intro hnone
    have hlowest : ¬ r.contains r.start.lowest = true := by simp [hnone]
    rw [contains_iff] at hlowest
    by_contra hnot
    refine hlowest ⟨Std.le_refl _, fun e he => Std.not_le.1 fun hle => hnot ⟨e, he, hle⟩⟩
  · rintro ⟨e, he, hle⟩ k
    rw [← Bool.not_eq_true, contains_iff]
    rintro ⟨hstart, hstop⟩
    exact Std.not_lt.2 (Std.le_trans hle hstart) (hstop e he)

lemma contains_belowAll (k : Key) : belowAll.contains k = false :=
  holds_nothing_iff.2 ⟨[], rfl, List.nil_le _⟩ k

/-- What is found to be empty holds nothing; the converse fails only in front of all keys. -/
lemma isEmpty_iff : r.isEmpty = true ↔ (∀ k, r.contains k = false) ∧ r ≠ belowAll := by
  obtain ⟨start, stop⟩ := r
  rw [holds_nothing_iff]
  cases start with
  | unbounded =>
    cases stop with
    | unbounded => simp [isEmpty, KeyBound.beyond]
    | included e => simp [isEmpty, KeyBound.beyond, KeyBound.lowest]
    | excluded e => simp [isEmpty, KeyBound.beyond, KeyBound.lowest, belowAll]
  | included s =>
    cases stop with
    | unbounded => simp [isEmpty, KeyBound.beyond]
    | included e =>
      simp [isEmpty, KeyBound.beyond, KeyBound.lowest, belowAll, Ordering.isGT_iff_eq_gt,
        Std.compare_eq_gt, Key.append_zero_le]
    | excluded e =>
      simp [isEmpty, KeyBound.beyond, KeyBound.lowest, belowAll, Std.isGE_compare]
  | excluded s =>
    cases stop with
    | unbounded => simp [isEmpty, KeyBound.beyond]
    | included e =>
      simp [isEmpty, KeyBound.beyond, KeyBound.lowest, belowAll, Std.isGE_compare,
        Key.append_zero_le, Key.lt_append_zero]
    | excluded e =>
      -- an exclusive pair is empty up to the next key
      simp only [isEmpty, KeyBound.beyond, KeyBound.lowest, belowAll, Std.isGE_compare,
        Bool.or_eq_true, beq_iff_eq, Option.mem_def, Option.some.injEq, exists_eq_left', ne_eq,
        mk.injEq, reduceCtorEq, false_and, not_false_eq_true, and_true]
      rw [Std.le_iff_lt_or_eq (a := e) (b := s ++ [0]), Key.lt_append_zero]

/-- A range is found to be empty exactly if it holds no key, whatever its bounds are, unless it is
the one in front of all keys. -/
theorem isEmpty_exact_iff (r : KeyRange) :
    (r.isEmpty = true ↔ ∀ k, r.contains k = false) ↔ r ≠ ⟨.unbounded, .excluded []⟩ := by
  rw [isEmpty_iff]
  constructor
  · rintro hexact rfl
    exact (hexact.2 contains_belowAll).2 rfl
  · intro hne
    exact ⟨And.left, fun hnone => ⟨hnone, hne⟩⟩

/-- No key lies in front of the empty one, and yet that range is not found to be empty. -/
theorem not_isEmpty_belowAll :
    (⟨.unbounded, .excluded []⟩ : KeyRange).isEmpty = false ∧
      (∀ k, (⟨.unbounded, .excluded []⟩ : KeyRange).contains k = false) ∧
      ¬ ∀ r : KeyRange, r.isEmpty = true ↔ ∀ k, r.contains k = false := by
  refine ⟨rfl, contains_belowAll, fun hexact => ?_⟩
  cases (hexact belowAll).2 contains_belowAll

/-! ## Covering -/

/-- Every key of the other range is a key of this one. -/
def Includes (r other : KeyRange) : Prop := ∀ k, other.contains k = true → r.contains k = true

/-- Of a range that holds a key, inclusion is a matter of where the bounds cut. -/
lemma includes_iff (hk : other.contains k = true) :
    r.Includes other ↔
      r.start.lowest ≤ other.start.lowest ∧
        ∀ x ∈ r.stop.beyond, ∃ y ∈ other.stop.beyond, y ≤ x := by
  constructor
  · intro hall
    have hlowest := contains_lowest hk
    obtain ⟨hstart, hbefore⟩ := contains_iff.1 (hall _ hlowest)
    refine ⟨hstart, fun x hx => ?_⟩
    -- otherwise `x` would be a key of the other range, and it is beyond this one
    by_contra hnot
    have hx' : other.contains x = true := by
      refine contains_iff.2 ⟨Std.le_of_lt (hbefore x hx), fun y hy => Std.not_le.1 fun hle => ?_⟩
      exact hnot ⟨y, hy, hle⟩
    exact Std.lt_irrefl ((contains_iff.1 (hall x hx')).2 x hx)
  · rintro ⟨hstart, hstop⟩ x hx
    obtain ⟨hlowest, hbefore⟩ := contains_iff.1 hx
    refine contains_iff.2 ⟨Std.le_trans hstart hlowest, fun e he => ?_⟩
    obtain ⟨y, hy, hle⟩ := hstop e he
    exact Std.lt_of_lt_of_le (hbefore y hy) hle

/-- How a range may include another and not cover it: an inclusive end of it is written in another
way there, or the other is the one in front of all keys, which is not found to be empty. -/
inductive Overlooks (r other : KeyRange) : Prop where
  /-- From the first key on, against from anywhere on. -/
  | first (hr : r.start = .included []) (hother : other.start = .unbounded)
  /-- From a key on, against from behind the one before it. -/
  | next (hempty : other.isEmpty = false) (s : Key) (hr : r.start = .included (s ++ [0]))
      (hother : other.start = .excluded s)
  /-- Up to a key, against up to in front of the one behind it. -/
  | last (hempty : other.isEmpty = false) (e : Key) (hr : r.stop = .included e)
      (hother : other.stop = .excluded (e ++ [0]))
  | nothing (hother : other = belowAll) (hr : r.start ≠ .unbounded)

lemma covers_iff_of_nonempty (h : other.isEmpty = false) :
    r.covers other = true ↔
      (r.start.compareStarts other.start).isLE = true ∧
        (r.stop.compareStops other.stop).isGE = true := by
  rw [covers, h, Bool.false_or, Bool.and_eq_true]

lemma covers_of_bounds (hstart : (r.start.compareStarts other.start).isLE = true)
    (hstop : (r.stop.compareStops other.stop).isGE = true) : r.covers other = true := by
  rw [covers, hstart, hstop, Bool.and_true, Bool.or_true]

lemma covers_of_isEmpty (h : other.isEmpty = true) : r.covers other = true := by
  rw [covers, h, Bool.true_or]

/-- A range in front of all keys is covered by what is not bounded below. -/
lemma covers_belowAll : r.covers belowAll = true ↔ r.start = .unbounded := by
  have hstop : (r.stop.compareStops (.excluded [])).isGE = true := by
    rw [KeyBound.compareStops_isGE]
    exact ⟨fun x _ => ⟨[], rfl, List.nil_le x⟩, fun e _ h => by simp at h⟩
  have hstart : (r.start.compareStarts .unbounded).isLE = true ↔ r.start = .unbounded := by
    cases r.start <;> simp [KeyBound.compareStarts]
  rw [covers_iff_of_nonempty rfl]
  exact ⟨fun h => hstart.1 h.1, fun h => ⟨hstart.2 h, hstop⟩⟩

/-- A range covers another exactly if it includes it and no end is written in two ways. -/
theorem covers_iff : r.covers other = true ↔ r.Includes other ∧ ¬ r.Overlooks other := by
  cases hempty : other.isEmpty with
  | true =>
    have hnone := (isEmpty_iff.1 hempty).1
    refine iff_of_true (covers_of_isEmpty hempty) ⟨fun k hk => by simp [hnone k] at hk, ?_⟩
    intro h
    cases h with
    | first hr hother => simp [isEmpty, hother] at hempty
    | next hother => simp [hempty] at hother
    | last hother => simp [hempty] at hother
    | nothing hother hr => exact (isEmpty_iff.1 hempty).2 hother
  | false =>
    by_cases hkey : ∃ k, other.contains k = true
    · obtain ⟨k, hk⟩ := hkey
      rw [covers_iff_of_nonempty hempty, includes_iff hk, KeyBound.compareStarts_isLE,
        KeyBound.compareStops_isGE]
      constructor
      · rintro ⟨⟨hlow, hstart⟩, hhigh, hstop⟩
        refine ⟨⟨hlow, hhigh⟩, fun h => ?_⟩
        cases h with
        | first hr hother => simp [hr, hother, KeyBound.lowest] at hstart
        | next _ s hr hother => simp [hr, hother, KeyBound.lowest] at hstart
        | last _ e hr hother => exact hstop e hr hother
        | nothing hother _ => simp [hother, contains_belowAll] at hk
      · rintro ⟨⟨hlow, hhigh⟩, hnot⟩
        refine ⟨⟨hlow, fun hr => ?_⟩, hhigh, fun e hr hother => hnot (.last hempty e hr hother)⟩
        cases hother : other.start with
        | unbounded => exact absurd (.first (by rw [hr, hother]; rfl) hother) hnot
        | included s => rw [hr, hother]; rfl
        | excluded s => exact absurd (.next hempty s (by rw [hr, hother]; rfl) hother) hnot
    · -- the range in front of all keys
      have hnone : ∀ k, other.contains k = false := by simpa using hkey
      have hother : other = belowAll := by
        by_contra hne
        simp [isEmpty_iff.2 ⟨hnone, hne⟩] at hempty
      rw [hother, covers_belowAll]
      constructor
      · intro hr
        refine ⟨fun k hk => by simp [← hother, hnone k] at hk, fun h => ?_⟩
        cases h with
        | nothing _ hne => exact hne hr
        | _ => simp_all [belowAll]
      · rintro ⟨-, hnot⟩
        by_contra hr
        exact hnot (.nothing rfl hr)

/-- Whoever covers a range holds every key of it. -/
theorem contains_of_covers (hcovers : r.covers other = true) (hk : other.contains k = true) :
    r.contains k = true :=
  (covers_iff.1 hcovers).1 k hk

/-! ## The order -/

theorem covers_refl (r : KeyRange) : r.covers r = true :=
  covers_of_bounds (KeyBound.compareStarts_refl r.start) (KeyBound.compareStops_refl r.stop)

/-- What is found to be empty covers only the like. -/
lemma isEmpty_of_covers (hr : r.isEmpty = true) (hcovers : r.covers other = true) :
    other.isEmpty = true := by
  obtain ⟨hnone, -⟩ := isEmpty_iff.1 hr
  rw [isEmpty_iff]
  constructor
  · intro k
    by_contra hk
    rw [Bool.not_eq_false] at hk
    simpa [hnone k] using contains_of_covers hcovers hk
  · rintro rfl
    simp [isEmpty, covers_belowAll.1 hcovers] at hr

theorem covers_trans (hr : r.covers other = true) (hother : other.covers last = true) :
    r.covers last = true := by
  cases hlast : last.isEmpty with
  | true => exact covers_of_isEmpty hlast
  | false =>
    have hmiddle : other.isEmpty = false := by
      by_contra hnot
      simp [isEmpty_of_covers (by simpa using hnot) hother] at hlast
    rw [covers_iff_of_nonempty hmiddle] at hr
    rw [covers_iff_of_nonempty hlast] at hother ⊢
    exact ⟨KeyBound.compareStarts_trans hr.1 hother.1, KeyBound.compareStops_trans hr.2 hother.2⟩

/-! ## What lies above a key -/

/-- A range covers what of it lies above a key. -/
lemma covers_self_after (r : KeyRange) (k : Key) : r.covers (r.after k) = true := by
  refine covers_of_bounds ?_ (KeyBound.compareStops_refl r.stop)
  unfold after
  by_cases hgt : (r.start.compareStarts (.excluded k)).isGT = true
  · rw [if_pos hgt]
    exact KeyBound.compareStarts_refl r.start
  · rw [if_neg hgt]
    rwa [Ordering.isGT_iff_eq_gt, ← Ordering.isLE_iff_ne_gt] at hgt

/-- Whoever covers a range covers what of it lies above a key. -/
theorem covers_after (h : r.covers other = true) (k : Key) : r.covers (other.after k) = true :=
  covers_trans h (covers_self_after other k)

end KeyRange

end ReplicaRing
