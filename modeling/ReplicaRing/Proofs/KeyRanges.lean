import Mathlib.Tactic.Common
import ReplicaRing.Key.Range

/-!
What ranges and the operations on them mean, in terms of the keys that a range holds. A key has a
next one, the key with a zero byte appended. So every bound cuts the order of keys in front of a
key: a start in front of the lowest key that it admits, an end in front of the first key that it
does not admit, if there is one. Two bounds compare as the keys do that they cut in front of, except
that of two that cut at the same place the inclusive one counts as the narrower.
-/

namespace ReplicaRing

/-! ## The order of keys -/

namespace Key

/-- Comparing keys decides their order. -/
lemma compare_eq_lt {a b : Key} : compare a b = .lt ↔ a < b := by
  rw [List.compare_eq_compareLex]
  induction a generalizing b with
  | nil => cases b <;> simp [List.compareLex_nil_nil, List.compareLex_nil_cons]
  | cons x a ih =>
    cases b with
    | nil => simp [List.compareLex_cons_nil]
    | cons y b =>
      rw [List.compareLex_cons_cons, Ordering.then_eq_lt, ih, List.cons_lt_cons_iff,
        Std.compare_eq_lt, Std.LawfulEqCmp.compare_eq_iff_eq]

instance : Std.LawfulOrderOrd Key where
  isLE_compare a b := by
    rw [← Std.not_lt, ← compare_eq_lt, Ordering.isLE_iff_ne_gt, Std.OrientedCmp.gt_iff_lt]
  isGE_compare a b := by
    rw [← Std.not_lt, ← compare_eq_lt, Ordering.isGE_iff_ne_lt]

/-- The key with a zero byte appended is the next one. -/
lemma append_zero_le {s k : Key} : s ++ [0] ≤ k ↔ s < k := by
  induction s generalizing k with
  | nil =>
    cases k with
    | nil => simp
    | cons b k =>
      have hzero : (0 : UInt8) < b ∨ 0 = b := UInt8.lt_or_eq_of_le UInt8.zero_le
      simp [List.cons_le_cons_iff, hzero]
  | cons a s ih =>
    cases k with
    | nil => simp
    | cons b k => rw [List.cons_append, List.cons_le_cons_iff, List.cons_lt_cons_iff, ih]

lemma lt_append_zero {s k : Key} : k < s ++ [0] ↔ k ≤ s := by
  rw [← Std.not_le, append_zero_le, Std.not_lt]

end Key

/-! ## Where bounds cut -/

namespace KeyBound

/-- The lowest key that a start admits. -/
def lowest : KeyBound → Key
  | unbounded => []
  | included s => s
  | excluded s => s ++ [0]

/-- The first key beyond an end, unless it admits all that follows. -/
def beyond : KeyBound → Option Key
  | unbounded => none
  | included e => some (e ++ [0])
  | excluded e => some e

lemma admitsAbove_iff {b : KeyBound} {k : Key} : b.admitsAbove k = true ↔ b.lowest ≤ k := by
  cases b with
  | unbounded => simp [admitsAbove, lowest]
  | included s => exact Std.isLE_compare
  | excluded s =>
    simp only [admitsAbove, lowest, Ordering.isLT_iff_eq_lt, Std.compare_eq_lt, Key.append_zero_le]

lemma admitsBelow_iff {b : KeyBound} {k : Key} :
    b.admitsBelow k = true ↔ ∀ e ∈ b.beyond, k < e := by
  cases b with
  | unbounded => simp [admitsBelow, beyond]
  | included e => simp [admitsBelow, beyond, Std.isLE_compare, Key.lt_append_zero]
  | excluded e => simp [admitsBelow, beyond, Ordering.isLT_iff_eq_lt, Std.compare_eq_lt]

lemma isLE_ite {p : Prop} [Decidable p] :
    (if p then Ordering.lt else .gt).isLE = true ↔ p := by
  split <;> simp [*]

lemma isGE_ite {p : Prop} [Decidable p] :
    (if p then Ordering.gt else .lt).isGE = true ↔ p := by
  split <;> simp [*]

/-- A start is not above another if it admits all keys that the other admits, unless it is the
inclusive one of two that admit the same keys. -/
lemma compareStarts_isLE {a b : KeyBound} :
    (a.compareStarts b).isLE = true ↔ a.lowest ≤ b.lowest ∧ (a = .included b.lowest → b = a) := by
  cases a with
  | unbounded => cases b <;> simp [compareStarts, lowest]
  | included x =>
    cases b with
    | unbounded => simp [compareStarts, lowest]
    | included y =>
      simp only [compareStarts, lowest, Std.isLE_compare, included.injEq]
      exact ⟨fun h => ⟨h, Eq.symm⟩, And.left⟩
    | excluded y =>
      -- the start at the next key of `y` admits as much, but it is taken to be higher
      simp only [compareStarts, lowest, Std.isLE_compare, isLE_ite, included.injEq, reduceCtorEq,
        imp_false]
      rw [← Key.lt_append_zero, Std.lt_iff_le_and_ne, ne_eq]
  | excluded x =>
    cases b with
    | unbounded => simp [compareStarts, lowest]
    | included y =>
      simp only [compareStarts, lowest, isLE_ite, Ordering.isLT_iff_eq_lt, Std.compare_eq_lt,
        Key.append_zero_le, reduceCtorEq, false_imp_iff, and_true]
    | excluded y =>
      simp only [compareStarts, lowest, Std.isLE_compare, Key.append_zero_le, Key.lt_append_zero,
        reduceCtorEq, false_imp_iff, and_true]

/-- An end is not below another if it admits all keys that the other admits, unless it is the
inclusive one of two that admit the same keys. -/
lemma compareStops_isGE {a b : KeyBound} :
    (a.compareStops b).isGE = true ↔
      (∀ x ∈ a.beyond, ∃ y ∈ b.beyond, y ≤ x) ∧
        ∀ e, a = .included e → b ≠ .excluded (e ++ [0]) := by
  cases a with
  | unbounded => cases b <;> simp [compareStops, beyond]
  | included x =>
    cases b with
    | unbounded => simp [compareStops, beyond]
    | included y =>
      simp [compareStops, beyond, Std.isGE_compare, Key.append_zero_le, Key.lt_append_zero]
    | excluded y =>
      simp only [compareStops, beyond, isGE_ite, Std.isGE_compare, Option.mem_def,
        Option.some.injEq, exists_eq_left', forall_eq', included.injEq, ne_eq, excluded.injEq]
      rw [← Key.lt_append_zero, Std.lt_iff_le_and_ne, ne_eq]
  | excluded x =>
    cases b with
    | unbounded => simp [compareStops, beyond]
    | included y =>
      simp [compareStops, beyond, isGE_ite, Ordering.isGT_iff_eq_gt, Std.compare_eq_gt,
        Key.append_zero_le]
    | excluded y => simp [compareStops, beyond, Std.isGE_compare]

lemma compareStarts_refl (b : KeyBound) : (b.compareStarts b).isLE = true := by
  rw [compareStarts_isLE]
  exact ⟨Std.le_refl _, fun _ => rfl⟩

lemma compareStarts_trans {a b c : KeyBound} (hab : (a.compareStarts b).isLE = true)
    (hbc : (b.compareStarts c).isLE = true) : (a.compareStarts c).isLE = true := by
  rw [compareStarts_isLE] at *
  refine ⟨Std.le_trans hab.1 hbc.1, fun ha => ?_⟩
  -- all three cut at the same place, so the inclusive one passes on its form
  have hlowest : b.lowest = c.lowest := by
    refine Std.le_antisymm hbc.1 ?_
    have hle := hab.1
    rwa [ha] at hle
  have hb : b = a := hab.2 (by rw [ha, hlowest])
  rw [hbc.2 (hb.trans ha), hb]

lemma compareStops_trans {a b c : KeyBound} (hab : (a.compareStops b).isGE = true)
    (hbc : (b.compareStops c).isGE = true) : (a.compareStops c).isGE = true := by
  rw [compareStops_isGE] at *
  constructor
  · intro x hx
    obtain ⟨y, hy, hyx⟩ := hab.1 x hx
    obtain ⟨z, hz, hzy⟩ := hbc.1 y hy
    exact ⟨z, hz, Std.le_trans hzy hyx⟩
  · rintro e ha hc
    obtain ⟨y, hy, hle⟩ := hab.1 (e ++ [0]) (by rw [ha]; rfl)
    obtain ⟨z, hz, hge⟩ := hbc.1 y hy
    rw [hc] at hz
    obtain rfl := Option.some.inj hz
    obtain rfl := Std.le_antisymm hge hle
    cases b with
    | unbounded => cases hy
    | included f =>
      obtain rfl := List.append_cancel_right (Option.some.inj hy)
      exact hbc.2 f rfl hc
    | excluded f =>
      obtain rfl := Option.some.inj hy
      exact hab.2 e ha rfl

lemma compareStops_refl (b : KeyBound) : (b.compareStops b).isGE = true := by
  rw [compareStops_isGE]
  exact ⟨fun x hx => ⟨x, hx, Std.le_refl _⟩, fun e he h => by simp [he] at h⟩

end KeyBound

/-! ## What ranges hold -/

namespace KeyRange

variable {r : KeyRange} {k x : Key}

lemma contains_iff : r.contains k = true ↔ r.start.lowest ≤ k ∧ ∀ e ∈ r.stop.beyond, k < e := by
  rw [contains, Bool.and_eq_true, KeyBound.admitsAbove_iff, KeyBound.admitsBelow_iff]

/-- What lies above a key starts no lower than the range and above the key. -/
lemma lowest_after_le : (r.after k).start.lowest ≤ x ↔ r.start.lowest ≤ x ∧ k < x := by
  have hnext : (KeyBound.excluded k).lowest ≤ x ↔ k < x := Key.append_zero_le
  unfold after
  by_cases hgt : (r.start.compareStarts (.excluded k)).isGT = true
  · -- the range starts at the key behind `k` or higher
    have habove : k ++ [0] ≤ r.start.lowest := by
      have hnot : ¬ (r.start.compareStarts (.excluded k)).isLE = true := by
        cases h : r.start.compareStarts (.excluded k) <;> simp [h] at hgt ⊢
      rw [KeyBound.compareStarts_isLE, not_and_or] at hnot
      rcases hnot with hlower | hequal
      · exact Std.le_of_not_ge hlower
      · obtain ⟨hstart, -⟩ := Classical.not_imp.1 hequal
        rw [hstart]
        exact Std.le_refl _
    rw [if_pos hgt]
    exact ⟨fun h => ⟨h, Key.append_zero_le.1 (Std.le_trans habove h)⟩, And.left⟩
  · have hbelow : r.start.lowest ≤ k ++ [0] := by
      have hle : (r.start.compareStarts (.excluded k)).isLE = true := by
        cases h : r.start.compareStarts (.excluded k) <;> simp [h] at hgt ⊢
      exact (KeyBound.compareStarts_isLE.1 hle).1
    rw [if_neg hgt, hnext]
    exact ⟨fun h => ⟨Std.le_trans hbelow (Key.append_zero_le.2 h), h⟩, And.right⟩

/-- The part of a range above a key holds the keys of the range above it. -/
theorem contains_after :
    (r.after k).contains x = true ↔ r.contains x = true ∧ compare k x = .lt := by
  have hstop : (r.after k).stop = r.stop := rfl
  rw [contains_iff, contains_iff, lowest_after_le, hstop, Std.compare_eq_lt]
  tauto

end KeyRange
end ReplicaRing
