import Mathlib
import ReplicaRing.Proofs.Rounding

/-!
The numbers that floats stand for. Bits stand for a `Canonical` fraction and an exponent, and these
can be told from the `Fields` of the bits. A mantissa with residual bits that tell where a number
lies is rounded to the nearest number of the format, `rounds_roundWithAccuracy`, unless the number
is too great.
-/

namespace ReplicaRing.Binary64

open Float.Model Float.Model.UnpackedFloat

/-! ## Bits -/

/-- What bits can stand for: a fraction of 53 bits unless the number is one of the least, and an
exponent that is not too great. -/
inductive Canonical : UnpackedFloat → Prop where
  | notANumber : Canonical .notANumber
  | infinity (s : Sign) : Canonical (.infinity s)
  | zero (s : Sign) : Canonical (.zero s)
  | finite (s : Sign) (m : Nat) (e : Int) (h : 0 < m) (hm : m < 2 ^ 53) (hmin : -1074 ≤ e)
      (hmax : e ≤ 971) (hnormal : e = -1074 ∨ 2 ^ 52 ≤ m) : Canonical (.finite s m e h)

section

variable {s : Sign} {m : Nat} {e : Int}

lemma toNat_one_append (v : BitVec 52) : (1#1 ++ v).toNat = 2 ^ 52 + v.toNat := by
  rw [BitVec.toNat_append, ← Nat.shiftLeft_add_eq_or_of_lt v.isLt]
  rfl

lemma canonical_unpack (b : BitVec Format.binary64.numBits) :
    Canonical (unpack .binary64 b) := by
  have hmantissa : (@unpackMantissa .binary64 b).toNat < 2 ^ 52 := BitVec.isLt _
  have hexponent : (@unpackExponent .binary64 b).toNat < 2 ^ 11 := BitVec.isLt _
  have hbias : ((Format.binary64.exponentBias : Nat) : Int) = 1023 := rfl
  unfold UnpackedFloat.unpack
  simp only [hbias]
  split
  · split
    · exact .infinity _
    · exact .notANumber
  · rename_i hinfinite
    split
    · rename_i hsubnormal
      split
      · exact .zero _
      · have hzero : (@unpackExponent .binary64 b).toNat = 0 := by
          rw [hsubnormal]
          rfl
        rw [hzero]
        exact .finite _ _ _ _ (by omega) (by decide) (by decide) (.inl (by decide))
    · rename_i hsubnormal
      have hleast : (@unpackExponent .binary64 b).toNat ≠ 0 := fun h =>
        hsubnormal (BitVec.eq_of_toNat_eq h)
      have hgreatest : (@unpackExponent .binary64 b).toNat ≠ 2047 := fun h =>
        hinfinite (BitVec.eq_of_toNat_eq h)
      have hnormal := toNat_one_append (@unpackMantissa .binary64 b)
      refine .finite _ _ _ _ ?_ ?_ ?_ (.inr ?_)
      · omega
      · show (-1074 : Int) ≤ _ - (1023 + (52 : Nat))
        omega
      · show _ - (1023 + ((52 : Nat) : Int)) ≤ 971
        omega
      · omega

lemma log2_of_normal (hlow : 2 ^ 52 ≤ m) (hhigh : m < 2 ^ 53) : m.log2 = 52 :=
  (Nat.log2_eq_iff (by omega)).2 ⟨hlow, hhigh⟩

lemma unpack_pack_normal (h : 0 < m) (hlow : 2 ^ 52 ≤ m) (hhigh : m < 2 ^ 53) (hmin : -1074 ≤ e)
    (hmax : e ≤ 971) : (Float.Model.pack (.finite s m e h)).unpack = .finite s m e h := by
  have hbiased : (e + Format.binary64.exponentBias +
      Format.binary64.mantissaBitsWithoutImplicit).toNat = (e + 1075).toNat := by
    show (e + (1023 : Nat) + (52 : Nat)).toNat = _
    omega
  have hne : ∀ n, n < 2 ^ 11 → n ≠ (e + 1075).toNat →
      BitVec.ofNat 11 (e + 1075).toNat ≠ BitVec.ofNat 11 n := by
    intro n hn hdiffers heq
    have hnat := congrArg BitVec.toNat heq
    rw [BitVec.toNat_ofNat, BitVec.toNat_ofNat, Nat.mod_eq_of_lt (by omega),
      Nat.mod_eq_of_lt hn] at hnat
    exact hdiffers hnat.symm
  have hmantissa : (1#1 ++ BitVec.ofNat 52 m).toNat = m := by
    rw [toNat_one_append, BitVec.toNat_ofNat]
    omega
  show UnpackedFloat.unpack .binary64 (UnpackedFloat.pack .binary64 (.finite s m e h)) = _
  unfold UnpackedFloat.pack
  simp only [log2_of_normal hlow hhigh, hbiased]
  rw [if_neg (by omega), if_pos (show 52 + 1 = Format.binary64.mantissaBits from rfl)]
  unfold UnpackedFloat.unpack
  simp only [unpackMantissa_packComponents, unpackExponent_packComponents,
    unpackSign_packComponents, Sign.ofBitVec_toBitVec]
  rw [if_neg (show _ ≠ -1#11 from hne 2047 (by decide) (by omega)),
    if_neg (hne 0 (by decide) (by omega))]
  simp only [hmantissa, BitVec.toNat_ofNat]
  congr 1
  show (((e + 1075).toNat % 2 ^ 11 : Nat) : Int) - ((1023 : Nat) + (52 : Nat)) = e
  omega

lemma unpack_pack_subnormal (h : 0 < m) (hsmall : m < 2 ^ 52) :
    (Float.Model.pack (.finite s m (-1074) h)).unpack = .finite s m (-1074) h := by
  have hlog : m.log2 < 52 := (Nat.log2_lt (by omega)).2 hsmall
  have hmantissa : (BitVec.ofNat 52 m).toNat = m := by
    rw [BitVec.toNat_ofNat]
    omega
  have hne : BitVec.ofNat 52 m ≠ 0#52 := fun heq => by
    rw [heq] at hmantissa
    exact h.ne hmantissa
  show UnpackedFloat.unpack .binary64
    (UnpackedFloat.pack .binary64 (.finite s m (-1074) h)) = _
  unfold UnpackedFloat.pack
  simp only
  have hshort : m.log2 + 1 ≠ Format.binary64.mantissaBits := by
    show m.log2 + 1 ≠ 53
    omega
  rw [if_neg (by decide), if_neg hshort]
  unfold UnpackedFloat.unpack
  simp only [unpackMantissa_packComponents, unpackExponent_packComponents,
    unpackSign_packComponents, Sign.ofBitVec_toBitVec]
  rw [if_neg (by decide), if_pos trivial, dif_neg hne]
  simp only [hmantissa]
  rfl

/-- Where the exponent is too great, the number is taken for infinite. -/
lemma unpack_pack_overflow (h : 0 < m) (hmax : 972 ≤ e) :
    (Float.Model.pack (.finite s m e h)).unpack = .infinity s := by
  have hbiased : 2 ^ 11 ≤ (e + Format.binary64.exponentBias +
      Format.binary64.mantissaBitsWithoutImplicit).toNat + 1 := by
    show 2048 ≤ (e + (1023 : Nat) + (52 : Nat)).toNat + 1
    omega
  have hpack : Float.Model.pack (.finite s m e h) = Float.Model.pack (.infinity s) := by
    unfold Float.Model.pack UnpackedFloat.pack
    simp only [if_pos hbiased]
  rw [hpack]
  cases s with
  | negative => rfl
  | positive => rfl

/-- What bits can stand for is not changed by its bits. -/
theorem unpack_pack {f : UnpackedFloat} (hf : Canonical f) : (Float.Model.pack f).unpack = f := by
  cases hf with
  | notANumber => rfl
  | infinity s =>
    cases s with
    | negative => rfl
    | positive => rfl
  | zero s =>
    cases s with
    | negative => rfl
    | positive => rfl
  | finite s m e h hm hmin hmax hnormal =>
    by_cases hlow : 2 ^ 52 ≤ m
    · exact unpack_pack_normal h hlow hm hmin hmax
    · obtain rfl := hnormal.resolve_right hlow
      exact unpack_pack_subnormal h (Nat.not_le.1 hlow)

end

/-! ## Rounding -/

/-- A mantissa is the whole part of a number, and its residual bits tell where the rest lies. -/
def Stands (em : ExtendedMantissa) (y : ℚ) : Prop :=
  match em.roundBit, em.stickyBit with
  | false, false => y = em.mantissa
  | false, true => em.mantissa < y ∧ y < em.mantissa + 1 / 2
  | true, false => y = em.mantissa + 1 / 2
  | true, true => em.mantissa + 1 / 2 < y ∧ y < em.mantissa + 1

section

variable {em : ExtendedMantissa} {y : ℚ}

lemma Stands.bounds (h : Stands em y) : em.mantissa ≤ y ∧ y < em.mantissa + 1 := by
  obtain ⟨m, round, sticky⟩ := em
  cases round <;> cases sticky <;> simp only [Stands] at h ⊢ <;> constructor <;> linarith

lemma Stands.shiftRightOne (h : Stands em y) : Stands em.shiftRightOne (y / 2) := by
  obtain ⟨m, round, sticky⟩ := em
  have hm : (m : ℚ) = 2 * (m / 2 : ℕ) + (m % 2 : ℕ) := by
    exact_mod_cast (Nat.div_add_mod m 2).symm
  unfold ExtendedMantissa.shiftRightOne
  rcases Nat.mod_two_eq_zero_or_one m with hlast | hlast <;> rw [hlast] at hm ⊢ <;>
    cases round <;> cases sticky <;> simp [Stands] at h hm ⊢ <;> grind

/-- Shifting divides by a power of two. -/
lemma Stands.shift (h : Stands em y) (k : ℕ) : Stands (em >>> k) (y / 2 ^ k) := by
  induction k with
  | zero =>
    rw [pow_zero, div_one]
    exact h
  | succ k ih =>
    rw [pow_succ, ← div_div]
    exact ih.shiftRightOne

/-- The rounded mantissa is at most a half away. -/
lemma Stands.rounded (h : Stands em y) : |y - em.roundedMantissa| ≤ 1 / 2 ∧
    em.mantissa ≤ em.roundedMantissa ∧ em.roundedMantissa ≤ em.mantissa + 1 := by
  obtain ⟨m, round, sticky⟩ := em
  have hlast := Nat.mod_two_eq_zero_or_one m
  unfold ExtendedMantissa.roundedMantissa
  rw [abs_le]
  cases round <;> cases sticky <;>
    simp only [Stands, ExtendedMantissa.accuracy, Accuracy.roundToNearestEven] at h ⊢
  · refine ⟨⟨?_, ?_⟩, le_rfl, Nat.le_succ m⟩ <;> linarith
  · refine ⟨⟨?_, ?_⟩, le_rfl, Nat.le_succ m⟩ <;> linarith
  · -- a tie goes to the even mantissa
    rcases hlast with heven | hodd
    · rw [heven]
      refine ⟨⟨?_, ?_⟩, le_rfl, Nat.le_succ m⟩ <;> simp only [Nat.add_zero] <;> linarith
    · rw [hodd]
      refine ⟨⟨?_, ?_⟩, Nat.le_succ m, le_rfl⟩ <;> push_cast <;> linarith
  · refine ⟨⟨?_, ?_⟩, Nat.le_succ m, le_rfl⟩ <;> push_cast <;> linarith

end

/-- A number of the format and its parts. -/
inductive Reads : UnpackedFloat → ℚ → Prop where
  | zero : Reads (.zero .positive) 0
  | finite {m : ℕ} {e : ℤ} (h : 0 < m) (hf : Canonical (.finite .positive m e h)) :
      Reads (.finite .positive m e h) (m * 2 ^ e)

/-- A float stands for a number that was rounded, or for one that is too great. -/
def Rounds (x : Float) (v : ℚ) : Prop :=
  x.toModel.unpack = .infinity .positive ∧ 2 ^ (1023 : ℤ) ≤ v ∨
    ∃ y, Reads x.toModel.unpack y ∧ Nearest binary64 v y

section

variable {m : ℕ} {e : ℤ} {acc : Accuracy} {v : ℚ}

lemma targetExponent_eq (m : ℕ) (e : ℤ) :
    Format.binary64.targetExponent (totalExponent m e) = max (m.log2 + e - 52) (-1074) := by
  show max ((m.log2 : ℤ) + 1 + e - (53 : ℕ)) (3 - 2 ^ (11 - 1) - (53 : ℕ)) = _
  norm_num
  omega

/-- What is rounded already is not shifted, unless rounding has made it one bit longer. -/
lemma shift_rounded {r : ℕ} (hr : r ≤ 2 ^ 53) (he : -1074 ≤ e) :
    shiftToTargetExponent .binary64 r e .exact =
      if r < 2 ^ 53 then (⟨r, false, false⟩, e) else (⟨2 ^ 52, false, false⟩, e + 1) := by
  have hshift : ∀ k : ℕ, (Format.binary64.targetExponent (totalExponent r e) - e).toNat = k →
      shiftToTargetExponent .binary64 r e .exact =
        ((⟨r, false, false⟩ : ExtendedMantissa) >>> k, e + k) := by
    rintro k rfl
    rfl
  split
  · rename_i hlt
    have hlog : r.log2 ≤ 52 := by
      by_cases hzero : r = 0
      · rw [hzero]
        decide
      · have := (Nat.log2_lt hzero).2 hlt
        omega
    rw [hshift 0 (by rw [targetExponent_eq]; omega)]
    exact congrArg _ (Int.add_zero e)
  · obtain rfl : r = 2 ^ 53 := by omega
    rw [hshift 1 (by rw [targetExponent_eq, Nat.log2_two_pow]; omega)]
    rfl

lemma rounds_of_finite {r : ℕ} (h : 0 < r) (hr : r < 2 ^ 53) (hmin : -1074 ≤ e)
    (hnormal : e = -1074 ∨ 2 ^ 52 ≤ r) (hnear : Nearest binary64 v (r * 2 ^ e)) :
    Rounds ⟨.pack (.finite .positive r e h)⟩ v := by
  by_cases hmax : e ≤ 971
  · have hf : Canonical (.finite .positive r e h) := .finite _ r e h hr hmin hmax hnormal
    refine .inr ⟨_, ?_, hnear⟩
    rw [unpack_pack hf]
    exact .finite h hf
  · refine .inl ⟨unpack_pack_overflow h (by omega), ?_⟩
    -- otherwise that power of two would be closer
    by_contra hsmall
    have hpower : (2 : ℚ) ^ (1023 : ℤ) ∈ binary64 := ⟨1, 1023, by decide, by decide, by simp⟩
    have hbits : (2 : ℚ) ^ (52 : ℤ) ≤ r := by exact_mod_cast hnormal.resolve_left (by omega)
    have hunit : (2 : ℚ) ^ (972 : ℤ) ≤ 2 ^ e := zpow_le_zpow_right₀ one_le_two (by omega)
    refine lt_irrefl ((2 : ℚ) ^ (1023 : ℤ)) ?_
    calc (2 : ℚ) ^ (1023 : ℤ) < 2 ^ (52 + 972 : ℤ) := zpow_lt_zpow_right₀ one_lt_two (by decide)
      _ = 2 ^ (52 : ℤ) * 2 ^ (972 : ℤ) := zpow_add₀ two_ne_zero _ _
      _ ≤ r * 2 ^ e := by gcongr
      _ ≤ 2 ^ (1023 : ℤ) := hnear.ge_of_mem hpower (not_le.1 hsmall).le

lemma mantissa_ofMantissaAndAccuracy (m : ℕ) (acc : Accuracy) :
    (ExtendedMantissa.ofMantissaAndAccuracy m acc).mantissa = m := by
  cases acc with
  | exact => rfl
  | inexact o =>
    cases o with
    | lt => rfl
    | eq => rfl
    | gt => rfl

/-- In the unit that it is rounded to, a number has 53 bits, or fewer if the unit is the least. -/
lemma bits_of_stands {k : ℕ} (hm : 0 < m)
    (hstands : Stands (.ofMantissaAndAccuracy m acc) (v / 2 ^ e))
    (hk : e + k = max (m.log2 + e - 52) (-1074)) :
    v / 2 ^ (e + k) < 2 ^ 53 ∧ (e + k = -1074 ∨ 2 ^ 52 ≤ v / 2 ^ (e + k)) := by
  obtain ⟨hlow, hhigh⟩ := hstands.bounds
  rw [mantissa_ofMantissaAndAccuracy] at hlow hhigh
  have hleast : 2 ^ m.log2 ≤ m := Nat.log2_self_le hm.ne'
  have hgreatest : m + 1 ≤ 2 ^ (m.log2 + 1) := Nat.lt_log2_self
  have hpos : (0 : ℚ) < 2 ^ k := by positivity
  rw [zpow_add₀ two_ne_zero, zpow_natCast, ← div_div, div_lt_iff₀ hpos, le_div_iff₀ hpos,
    ← pow_add, ← pow_add]
  constructor
  · calc v / 2 ^ e < m + 1 := hhigh
      _ ≤ 2 ^ (m.log2 + 1) := by exact_mod_cast hgreatest
      _ ≤ 2 ^ (53 + k) := pow_le_pow_right₀ one_le_two (by omega)
  · by_cases hmin : e + k = -1074
    · exact .inl hmin
    · right
      calc (2 : ℚ) ^ (52 + k) ≤ 2 ^ m.log2 := pow_le_pow_right₀ one_le_two (by omega)
        _ ≤ m := by exact_mod_cast hleast
        _ ≤ v / 2 ^ e := hlow

/-- A mantissa that has enough bits is rounded to the nearest number of the format. -/
theorem rounds_roundWithAccuracy (hm : 0 < m)
    (hstands : Stands (.ofMantissaAndAccuracy m acc) (v / 2 ^ e))
    (he : e ≤ max (m.log2 + e - 52) (-1074)) :
    Rounds ⟨.pack (roundWithAccuracy .binary64 .positive m e acc)⟩ v := by
  obtain ⟨k, hk⟩ := Int.le.dest he
  have hfirst : shiftToTargetExponent .binary64 m e acc =
      (ExtendedMantissa.ofMantissaAndAccuracy m acc >>> k, e + k) := by
    have hshift : (Format.binary64.targetExponent (totalExponent m e) - e).toNat = k := by
      rw [targetExponent_eq]
      omega
    unfold shiftToTargetExponent shiftToExponent
    simp only [hshift]
  -- the unit that the number is rounded to
  have hunit : (2 : ℚ) ^ (e + k : ℤ) = 2 ^ e * 2 ^ k := by
    rw [zpow_add₀ two_ne_zero, zpow_natCast]
  have hpos : (0 : ℚ) < 2 ^ (e + k : ℤ) := zpow_pos two_pos _
  have hshifted := hstands.shift k
  rw [div_div, ← hunit] at hshifted
  obtain ⟨hwide, hnormal⟩ := bits_of_stands hm hstands hk
  obtain ⟨hlow, hhigh⟩ := hshifted.bounds
  obtain ⟨hhalf, hfloor, hceil⟩ := hshifted.rounded
  have hmin : -1074 ≤ e + k := by omega
  unfold roundWithAccuracy
  rw [hfirst]
  simp only
  generalize (ExtendedMantissa.ofMantissaAndAccuracy m acc) >>> k = em at *
  generalize em.roundedMantissa = r at *
  generalize hE : e + (k : ℤ) = E at *
  have hr : r ≤ 2 ^ 53 := by
    have hbelow : (em.mantissa : ℚ) < 2 ^ 53 := hlow.trans_lt hwide
    have hbelow : em.mantissa < 2 ^ 53 := by exact_mod_cast hbelow
    omega
  have hleast : E = -1074 ∨ 2 ^ 52 ≤ r := by
    refine hnormal.imp_right fun hbits => ?_
    have habove : (2 : ℚ) ^ 52 < em.mantissa + 1 := hbits.trans_lt hhigh
    have habove : 2 ^ 52 < em.mantissa + 1 := by exact_mod_cast habove
    omega
  have hnear : Nearest binary64 v (r * 2 ^ E) := by
    refine nearest_binary64 hmin hr ?_ (hnormal.imp_right (le_div_iff₀ hpos).1)
    have hscaled : v - r * 2 ^ E = (v / 2 ^ E - r) * 2 ^ E := by
      rw [sub_mul, div_mul_cancel₀ _ hpos.ne']
    rw [hscaled, abs_mul, abs_of_pos hpos]
    linarith [mul_le_mul_of_nonneg_right hhalf hpos.le]
  rw [shift_rounded hr hmin]
  by_cases hlt : r < 2 ^ 53
  · rw [if_pos hlt]
    by_cases hzero : r = 0
    · subst hzero
      show Rounds ⟨.pack (.zero .positive)⟩ v
      refine .inr ⟨0, ?_, by simpa using hnear⟩
      rw [unpack_pack (.zero _)]
      exact .zero
    · simp only [dif_neg hzero]
      exact rounds_of_finite _ hlt hmin hleast hnear
  · -- rounding has carried over to one bit more
    obtain rfl : r = 2 ^ 53 := by omega
    rw [if_neg hlt]
    show Rounds ⟨.pack (.finite .positive (2 ^ 52) (E + 1) (by decide))⟩ v
    refine rounds_of_finite (by decide) (by decide) (by omega) (.inr le_rfl) ?_
    convert hnear using 1
    rw [zpow_add_one₀ two_ne_zero]
    push_cast
    ring

end

/-! ## Fields -/

inductive Unbounded : UnpackedFloat → Prop where
  | notANumber : Unbounded .notANumber
  | infinity (s : Sign) : Unbounded (.infinity s)

lemma unpackExponent_toNat (b : BitVec 64) :
    (@unpackExponent .binary64 b).toNat = b.toNat >>> 52 % 2 ^ 11 := by
  rw [unpackExponent_def]
  exact BitVec.extractLsb'_toNat ..

lemma unpackMantissa_toNat (b : BitVec 64) :
    (@unpackMantissa .binary64 b).toNat = b.toNat % 2 ^ 52 := by
  rw [unpackMantissa_def]
  exact BitVec.extractLsb'_toNat ..

lemma toNat_lt_of_positive {b : BitVec 64}
    (h : Sign.ofBitVec (@unpackSign .binary64 b) = .positive) : b.toNat < 2 ^ 63 := by
  have hsign : (@unpackSign .binary64 b).toNat = b.toNat >>> 63 % 2 := by
    rw [unpackSign_def]
    exact BitVec.extractLsb'_toNat ..
  unfold Sign.ofBitVec at h
  split at h
  · rename_i hzero
    rw [hzero, Nat.shiftRight_eq_div_pow] at hsign
    have hbits := b.isLt
    have : 0 = b.toNat / 2 ^ 63 % 2 := hsign
    omega
  · cases h

/-- The parts that bits stand for, by their exponent and mantissa fields. -/
inductive Fields (bits : ℕ) : UnpackedFloat → Prop where
  | unbounded {u : UnpackedFloat} (hu : Unbounded u) (hexponent : bits >>> 52 % 2 ^ 11 = 2047) :
      Fields bits u
  | zero (s : Sign) (hexponent : bits >>> 52 % 2 ^ 11 = 0) (hmantissa : bits % 2 ^ 52 = 0) :
      Fields bits (.zero s)
  | finite (s : Sign) (m : ℕ) (e : ℤ) (h : 0 < m) (hsign : s = .positive → bits < 2 ^ 63)
      (hexponent : bits >>> 52 % 2 ^ 11 < 2047)
      (hm : bits % 2 ^ 52 + (if bits >>> 52 % 2 ^ 11 = 0 then 0 else 2 ^ 52) = m)
      (he : (max (bits >>> 52 % 2 ^ 11) 1 : ℕ) - 1075 = e) : Fields bits (.finite s m e h)

lemma fields_toBits (x : Float) : Fields x.toBits.toNat x.toModel.unpack := by
  show Fields x.toModel.toBits.toBitVec.toNat _
  unfold Float.Model.unpack UnpackedFloat.unpack
  generalize x.toModel.toBits.toBitVec = b
  have hbias : ((Format.binary64.exponentBias : Nat) : Int) = 1023 := rfl
  have hwidth : ((Format.binary64.mantissaBitsWithoutImplicit : Nat) : Int) = 52 := rfl
  have hexponent := unpackExponent_toNat b
  have hmantissa := unpackMantissa_toNat b
  have hless := (@unpackExponent .binary64 b).isLt
  simp only [hbias, hwidth]
  split
  · rename_i hinfinite
    refine .unbounded ?_ (hexponent.symm.trans (congrArg BitVec.toNat hinfinite))
    split
    · exact .infinity _
    · exact .notANumber
  · rename_i hinfinite
    have hgreatest : (@unpackExponent .binary64 b).toNat ≠ 2047 := fun heq =>
      hinfinite (BitVec.eq_of_toNat_eq heq)
    have hbound : (@unpackExponent .binary64 b).toNat < 2047 :=
      lt_of_le_of_ne (Nat.lt_succ_iff.1 hless) hgreatest
    split
    · rename_i hsubnormal
      have hzero : (@unpackExponent .binary64 b).toNat = 0 :=
        congrArg BitVec.toNat hsubnormal
      split
      · rename_i hnothing
        exact .zero _ (hexponent.symm.trans hzero)
          (hmantissa.symm.trans (congrArg BitVec.toNat hnothing))
      · refine .finite _ _ _ _ toNat_lt_of_positive (hexponent ▸ hbound) ?_ ?_
        · rw [← hexponent, ← hmantissa, if_pos hzero]
          rfl
        · rw [← hexponent]
          omega
    · rename_i hnormal
      have hpos : (@unpackExponent .binary64 b).toNat ≠ 0 := fun heq =>
        hnormal (BitVec.eq_of_toNat_eq heq)
      refine .finite _ _ _ _ toNat_lt_of_positive (hexponent ▸ hbound) ?_ ?_
      · rw [← hexponent, ← hmantissa, if_neg hpos, Nat.add_comm]
        exact (toNat_one_append _).symm
      · rw [← hexponent]
        omega

end ReplicaRing.Binary64
