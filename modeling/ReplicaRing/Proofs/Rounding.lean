import Mathlib.Algebra.Order.Field.Basic
import Mathlib.Algebra.Order.Field.Power
import Mathlib.Data.Rat.Cast.Order
import Mathlib.Data.Rat.Floor
import Mathlib.Tactic.FieldSimp
import Mathlib.Tactic.Linarith
import Mathlib.Tactic.Positivity
import Mathlib.Tactic.Ring

/-!
Rounding to the nearest number of a set. Rounding keeps the order and leaves the numbers of the set
where they are, however ties are broken. The sets are the whole numbers, and the numbers of the
binary64 format as if their exponents had no upper limit.
-/

namespace ReplicaRing

/-- A number of a set that no other number of the set is closer than. -/
structure Nearest (S : Set ℚ) (x y : ℚ) : Prop where
  mem : y ∈ S
  closest : ∀ z ∈ S, |x - y| ≤ |x - z|

namespace Nearest

variable {S : Set ℚ} {x x' y y' z : ℚ}

lemma self (h : x ∈ S) : Nearest S x x := by
  refine ⟨h, fun z _ => ?_⟩
  rw [sub_self, abs_zero]
  exact abs_nonneg _

lemma eq_of_mem (h : Nearest S x y) (hx : x ∈ S) : y = x := by
  have hzero := h.closest x hx
  rw [sub_self, abs_zero] at hzero
  exact (sub_eq_zero.1 (abs_nonpos_iff.1 hzero)).symm

/-- What is not closer to the lower of two numbers lies above their middle. -/
lemma above_middle (h : |x - y| ≤ |x - z|) (hlt : z < y) : y + z ≤ 2 * x := by
  have hsq := sq_le_sq.2 h
  have hpos : 0 < y - z := sub_pos.2 hlt
  by_contra hbelow
  nlinarith

lemma below_middle (h : |x - z| ≤ |x - y|) (hlt : z < y) : 2 * x ≤ y + z := by
  have hsq := sq_le_sq.2 h
  have hpos : 0 < y - z := sub_pos.2 hlt
  by_contra habove
  nlinarith

/-- The greater of two numbers is not rounded to less. -/
lemma mono (h : Nearest S x y) (h' : Nearest S x' y') (hlt : x < x') : y ≤ y' := by
  by_contra hgt
  have hx := above_middle (h.closest y' h'.mem) (not_le.1 hgt)
  have hx' := below_middle (h'.closest y h.mem) (not_le.1 hgt)
  linarith

/-- A number of the set that is not above a number is not above what this is rounded to. -/
lemma le_of_mem (h : Nearest S x y) (hz : z ∈ S) (hle : z ≤ x) : z ≤ y := by
  rcases hle.lt_or_eq with hlt | rfl
  · exact (self hz).mono h hlt
  · exact (h.eq_of_mem hz).ge

lemma ge_of_mem (h : Nearest S x y) (hz : z ∈ S) (hle : x ≤ z) : y ≤ z := by
  rcases hle.lt_or_eq with hlt | rfl
  · exact h.mono (self hz) hlt
  · exact (h.eq_of_mem hz).le

end Nearest

/-! ## Whole numbers -/

def wholeNumbers : Set ℚ := Set.range ((↑) : ℕ → ℚ)

/-- A multiple of a unit that is at most half a unit away is the nearest one. -/
lemma abs_sub_le_of_half {x u : ℚ} {n : ℤ} (hu : 0 < u) (hhalf : |x - n * u| ≤ u / 2) (k : ℤ) :
    |x - n * u| ≤ |x - k * u| := by
  by_cases hk : k = n
  · rw [hk]
  · have hone : (1 : ℚ) ≤ |(k : ℚ) - n| := by
      exact_mod_cast Int.one_le_abs (sub_ne_zero.2 hk)
    have hapart : u ≤ |k * u - n * u| := by
      rw [← sub_mul, abs_mul, abs_of_pos hu]
      exact le_mul_of_one_le_left hu.le hone
    have htriangle : |k * u - n * u| ≤ |x - n * u| + |x - k * u| := by
      rw [abs_sub_comm x (k * u), add_comm]
      exact abs_sub_le _ _ _
    linarith

lemma nearest_whole {x : ℚ} {n : ℕ} (h : |x - n| ≤ 1 / 2) : Nearest wholeNumbers x n := by
  refine ⟨⟨n, rfl⟩, ?_⟩
  rintro _ ⟨k, rfl⟩
  have hle := abs_sub_le_of_half (n := n) one_pos (by simpa using h) k
  simpa using hle

/-! ## The numbers of the format -/

/-- The numbers of the binary64 format: fractions of 53 bits times a power of two. -/
def binary64 : Set ℚ := {x | ∃ (m : ℕ) (e : ℤ), m < 2 ^ 53 ∧ -1074 ≤ e ∧ x = m * 2 ^ e}

lemma mem_binary64 {n : ℕ} {e : ℤ} (he : -1074 ≤ e) (hn : n ≤ 2 ^ 53) :
    (n : ℚ) * 2 ^ e ∈ binary64 := by
  rcases hn.lt_or_eq with hlt | rfl
  · exact ⟨n, e, hlt, he, rfl⟩
  · refine ⟨2 ^ 52, e + 1, by norm_num, by omega, ?_⟩
    rw [zpow_add_one₀ two_ne_zero]
    push_cast
    ring

lemma natCast_mem {n : ℕ} (hn : n ≤ 2 ^ 53) : (n : ℚ) ∈ binary64 := by
  simpa using mem_binary64 (e := 0) (by decide) hn

/-- Numbers of the format can be doubled. -/
lemma two_pow_mul_mem {x : ℚ} (hx : x ∈ binary64) (k : ℕ) : 2 ^ k * x ∈ binary64 := by
  obtain ⟨m, e, hm, he, rfl⟩ := hx
  refine ⟨m, e + k, hm, by omega, ?_⟩
  rw [zpow_add₀ two_ne_zero, zpow_natCast]
  ring

lemma two_pow_mem (k : ℕ) : (2 : ℚ) ^ k ∈ binary64 := by
  simpa using two_pow_mul_mem (natCast_mem (n := 1) (by decide)) k

lemma nearest_binary64 {x : ℚ} {n : ℕ} {e : ℤ} (he : -1074 ≤ e) (hn : n ≤ 2 ^ 53)
    (hhalf : |x - n * 2 ^ e| ≤ 2 ^ e / 2) (hnormal : e = -1074 ∨ 2 ^ 52 * 2 ^ e ≤ x) :
    Nearest binary64 x (n * 2 ^ e) := by
  have hu : (0 : ℚ) < 2 ^ e := zpow_pos two_pos e
  have hmultiple : ∀ k : ℕ, |x - n * 2 ^ e| ≤ |x - k * 2 ^ e| := fun k => by
    exact_mod_cast abs_sub_le_of_half (n := n) hu (by exact_mod_cast hhalf) k
  refine ⟨mem_binary64 he hn, ?_⟩
  rintro _ ⟨m, f, hm, hf, rfl⟩
  by_cases hfine : e ≤ f
  · -- it is a multiple of the same unit
    have hsplit : (m : ℚ) * 2 ^ f = (m * 2 ^ (f - e).toNat : ℕ) * 2 ^ e := by
      have hf' : f = ((f - e).toNat : ℤ) + e := by omega
      conv_lhs => rw [hf', zpow_add₀ two_ne_zero, zpow_natCast]
      push_cast
      ring
    rw [hsplit]
    exact hmultiple _
  · -- it is too small to have a unit of its own, and the least number of this unit is closer
    have hx : 2 ^ 52 * 2 ^ e ≤ x := hnormal.resolve_left (by omega)
    have hsmall : (m : ℚ) * 2 ^ f ≤ 2 ^ 52 * 2 ^ e := by
      have hm' : (m : ℚ) ≤ 2 ^ 53 := by exact_mod_cast hm.le
      have hf' : (2 : ℚ) ^ f ≤ 2 ^ (e - 1) := zpow_le_zpow_right₀ one_le_two (by omega)
      calc (m : ℚ) * 2 ^ f ≤ 2 ^ 53 * 2 ^ (e - 1) := by gcongr
        _ = 2 ^ 52 * 2 ^ e := by
          rw [zpow_sub_one₀ two_ne_zero]
          ring
    calc |x - n * 2 ^ e| ≤ |x - (2 ^ 52 : ℕ) * 2 ^ e| := hmultiple _
      _ = x - 2 ^ 52 * 2 ^ e := by
        push_cast
        exact abs_of_nonneg (sub_nonneg.2 hx)
      _ ≤ x - m * 2 ^ f := by linarith
      _ ≤ |x - m * 2 ^ f| := le_abs_self _

/-- Rounding errs by half of the last of 53 bits at most. -/
lemma abs_sub_le_of_nearest {x y : ℚ} {e : ℤ} (h : Nearest binary64 x y) (he : -1074 ≤ e)
    (hx : 0 ≤ x) (hbits : x ≤ 2 ^ 53 * 2 ^ e) : |x - y| ≤ 2 ^ e / 2 := by
  have hu : (0 : ℚ) < 2 ^ e := zpow_pos two_pos e
  -- the nearest multiple of that bit is such a number, though there may be a closer one
  set n := ⌊x / 2 ^ e + 1 / 2⌋₊ with hn
  have hpos : 0 ≤ x / 2 ^ e + 1 / 2 := by positivity
  have hlow := Nat.floor_le hpos
  have hhigh := Nat.lt_floor_add_one (x / 2 ^ e + 1 / 2)
  rw [← hn] at hlow hhigh
  have hhalf : |x / 2 ^ e - n| ≤ 1 / 2 := abs_le.2 ⟨by linarith, by linarith⟩
  have hle : n ≤ 2 ^ 53 := by
    have hquotient : x / 2 ^ e ≤ 2 ^ 53 := (div_le_iff₀ hu).2 hbits
    have hless : (n : ℚ) < 2 ^ 53 + 1 := by linarith
    exact Nat.lt_succ_iff.1 (by exact_mod_cast hless)
  calc |x - y| ≤ |x - n * 2 ^ e| := h.closest _ (mem_binary64 he hle)
    _ = |x / 2 ^ e - n| * 2 ^ e := by
      rw [← abs_of_pos hu, ← abs_mul, abs_of_pos hu, sub_mul, div_mul_cancel₀ _ hu.ne']
    _ ≤ 1 / 2 * 2 ^ e := mul_le_mul_of_nonneg_right hhalf hu.le
    _ = 2 ^ e / 2 := by ring

/-- Numbers that use up all bits are even. -/
lemma even_of_mem {x : ℚ} (hx : x ∈ binary64) (hgreat : 2 ^ 53 ≤ x) : ∃ k : ℕ, x = 2 * k := by
  obtain ⟨m, e, hm, -, rfl⟩ := hx
  have hpos : 0 < e := by
    by_contra hsmall
    have hm' : (m : ℚ) < 2 ^ 53 := by exact_mod_cast hm
    have hunit : (2 : ℚ) ^ e ≤ 1 := zpow_le_one_of_nonpos₀ one_le_two (not_lt.1 hsmall)
    have hless : (m : ℚ) * 2 ^ e ≤ m := mul_le_of_le_one_right (Nat.cast_nonneg m) hunit
    linarith
  obtain ⟨k, rfl⟩ := Int.eq_succ_of_zero_lt hpos
  refine ⟨m * 2 ^ k, ?_⟩
  rw [zpow_add_one₀ two_ne_zero, zpow_natCast]
  push_cast
  ring

/-- What is less than one is lost in a sum with such a number. -/
lemma Nearest.absorbs {x y f : ℚ} (h : Nearest binary64 (x + f) y) (hx : x ∈ binary64)
    (hgreat : 2 ^ 53 ≤ x) (hf : 0 ≤ f) (hless : f < 1) : y = x := by
  have hle : x ≤ y := h.le_of_mem hx (le_add_of_nonneg_right hf)
  have hclose := h.closest x hx
  rw [add_sub_cancel_left, abs_of_nonneg hf] at hclose
  have hnear : y - (x + f) ≤ f := (neg_sub (x + f) y ▸ neg_le_abs (x + f - y)).trans hclose
  obtain ⟨j, rfl⟩ := even_of_mem hx hgreat
  obtain ⟨k, rfl⟩ := even_of_mem h.mem (hgreat.trans hle)
  have hlow : j ≤ k := by exact_mod_cast (mul_le_mul_iff_right₀ two_pos).1 hle
  have hhigh : (k : ℚ) < j + 1 := by linarith
  have hhigh : k < j + 1 := by exact_mod_cast hhigh
  rw [Nat.le_antisymm (Nat.lt_succ_iff.1 hhigh) hlow]

end ReplicaRing
