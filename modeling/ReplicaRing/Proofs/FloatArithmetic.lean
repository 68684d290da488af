import ReplicaRing.Proofs.Binary64

/-!
The arithmetic of floats on the numbers they stand for. Whole numbers, sums, products with a factor
that is not below one and quotients that are not too small are rounded once to the nearest number of
the format. A number stands in a float in one way only, `Reads.unique`, so sums and such products
keep the order however ties are broken, `add_mono` and `mul_mono`. The order of floats is that of
the numbers, `le_of_reads`.
-/

namespace ReplicaRing.Binary64

open Float.Model Float.Model.UnpackedFloat

/-! ## Arithmetic -/

section

variable {m n : ℕ} {e : ℤ} {h : 0 < m} {x y : Float} {a b : ℚ}

lemma Reads.mem {u : UnpackedFloat} (h : Reads u a) : a ∈ binary64 := by
  cases h with
  | zero => exact ⟨0, 0, by decide, by decide, by norm_num⟩
  | finite h hf =>
    cases hf with
    | finite _ _ _ _ hm hmin hmax hnormal => exact ⟨_, _, hm, hmin, rfl⟩

lemma Reads.nonneg {u : UnpackedFloat} (h : Reads u a) : 0 ≤ a := by
  cases h with
  | zero => exact le_rfl
  | finite h => positivity

lemma rounds_of_reads (h : Reads x.toModel.unpack a) : Rounds x a := .inr ⟨a, h, .self h.mem⟩

lemma Rounds.exists_reads (h : Rounds x a) (hsmall : a < 2 ^ (1023 : ℤ)) :
    ∃ b, Reads x.toModel.unpack b ∧ Nearest binary64 a b :=
  h.resolve_left fun hgreat => absurd hgreat.2 (not_le.2 hsmall)

/-- A number of the format is read as it is. -/
lemma Rounds.reads (h : Rounds x a) (hmem : a ∈ binary64) (hsmall : a < 2 ^ (1023 : ℤ)) :
    Reads x.toModel.unpack a := by
  obtain ⟨b, hb, hnear⟩ := h.exists_reads hsmall
  rwa [← hnear.eq_of_mem hmem]

lemma rounds_exact (hm : 0 < m) (he : e ≤ max (m.log2 + e - 52) (-1074)) :
    Rounds ⟨.pack (roundWithAccuracy .binary64 .positive m e .exact)⟩ (m * 2 ^ e) := by
  refine rounds_roundWithAccuracy hm ?_ he
  show _ / _ = (m : ℚ)
  rw [mul_div_cancel_right₀ _ (zpow_ne_zero e two_ne_zero)]

lemma shiftLeft_pos (hm : 0 < m) (k : ℕ) : 0 < m <<< k := by
  rw [Nat.shiftLeft_eq]
  positivity

lemma log2_shiftLeft (hm : 0 < m) (k : ℕ) : (m <<< k).log2 = m.log2 + k := by
  induction k with
  | zero => rfl
  | succ k ih =>
    rw [Nat.shiftLeft_succ, Nat.log2_two_mul (shiftLeft_pos hm k).ne', ih]
    rfl

lemma rounds_round (hm : 0 < m) :
    Rounds ⟨.pack (UnpackedFloat.round .binary64 .positive m e)⟩ (m * 2 ^ e) := by
  unfold UnpackedFloat.round decreaseExponent
  simp only [targetExponent_eq]
  -- a number of too few bits is lengthened first, which does not change it
  generalize hk : (e - max ((m.log2 : ℤ) + e - 52) (-1074)).toNat = k
  have hvalue : (m : ℚ) * 2 ^ e = (m <<< k : ℕ) * 2 ^ (e - k) := by
    rw [Nat.shiftLeft_eq, zpow_sub₀ two_ne_zero, zpow_natCast]
    push_cast
    field_simp
  rw [hvalue]
  refine rounds_exact (shiftLeft_pos hm k) ?_
  rw [log2_shiftLeft hm]
  omega

lemma reads_zero : Reads (Float.Model.pack (.zero .positive)).unpack 0 := by
  rw [unpack_pack (.zero _)]
  exact .zero

/-- A number that is not below one has 53 bits. -/
lemma bits_of_one_le (hf : Canonical (.finite .positive m e h)) (hone : (1 : ℚ) ≤ m * 2 ^ e) :
    2 ^ 52 ≤ m := by
  cases hf with
  | finite _ _ _ _ hm hmin hmax hnormal =>
    refine hnormal.resolve_left fun hleast => ?_
    subst hleast
    have hm' : (m : ℚ) ≤ 2 ^ (53 : ℤ) := by exact_mod_cast hm.le
    have hsmall : (m : ℚ) * 2 ^ (-1074 : ℤ) < 1 := by
      calc (m : ℚ) * 2 ^ (-1074 : ℤ) ≤ 2 ^ (53 : ℤ) * 2 ^ (-1074 : ℤ) := by gcongr
        _ = 2 ^ (53 + -1074 : ℤ) := (zpow_add₀ two_ne_zero _ _).symm
        _ < 1 := zpow_lt_one_of_neg₀ one_lt_two (by decide)
    exact absurd hone (not_le.2 hsmall)

/-- A product is rounded once, where one of the factors is not below one. -/
theorem rounds_mul (hx : Reads x.toModel.unpack a) (hy : Reads y.toModel.unpack b) (hb : 1 ≤ b) :
    Rounds (x * y) (a * b) := by
  show Rounds ⟨.pack (UnpackedFloat.mul .binary64 x.toModel.unpack y.toModel.unpack)⟩ _
  generalize x.toModel.unpack = u at hx
  generalize y.toModel.unpack = w at hy
  cases hy with
  | zero => exact absurd hb (by norm_num)
  | @finite m₂ e₂ h₂ hw =>
    have hbits := bits_of_one_le hw hb
    cases hx with
    | zero =>
      rw [zero_mul]
      exact rounds_of_reads (x := ⟨.pack (.zero .positive)⟩) reads_zero
    | @finite m₁ e₁ h₁ hu =>
      have hlog : 52 ≤ (m₁ * m₂).log2 :=
        (Nat.le_log2 (Nat.mul_pos h₁ h₂).ne').2 (hbits.trans (Nat.le_mul_of_pos_left m₂ h₁))
      have hproduct : (m₁ : ℚ) * 2 ^ e₁ * (m₂ * 2 ^ e₂) = (m₁ * m₂ : ℕ) * 2 ^ (e₁ + e₂) := by
        rw [zpow_add₀ two_ne_zero]
        push_cast
        ring
      rw [hproduct]
      exact rounds_exact (Nat.mul_pos h₁ h₂) (by omega)

lemma normalize_natCast (hm : 0 < m) (s : Sign) :
    UnpackedFloat.normalize .binary64 (m : ℤ) e s =
      UnpackedFloat.round .binary64 .positive m e := by
  have hgt : compare (m : ℤ) 0 = .gt := by
    rw [Int.compare_eq_gt]
    exact_mod_cast hm
  unfold UnpackedFloat.normalize
  rw [hgt]
  rfl

/-- A sum is rounded once. -/
theorem rounds_add (hx : Reads x.toModel.unpack a) (hy : Reads y.toModel.unpack b) :
    Rounds (x + y) (a + b) := by
  show Rounds ⟨.pack (UnpackedFloat.add .binary64 x.toModel.unpack y.toModel.unpack)⟩ _
  generalize x.toModel.unpack = u at hx
  generalize y.toModel.unpack = w at hy
  cases hx with
  | zero =>
    cases hy with
    | zero =>
      rw [add_zero]
      exact rounds_of_reads (x := ⟨.pack (.zero .positive)⟩) reads_zero
    | finite h₂ hw =>
      rw [zero_add]
      refine rounds_of_reads (x := ⟨.pack (.finite _ _ _ h₂)⟩) ?_
      rw [unpack_pack hw]
      exact .finite h₂ hw
  | @finite m₁ e₁ h₁ hu =>
    cases hy with
    | zero =>
      rw [add_zero]
      refine rounds_of_reads (x := ⟨.pack (.finite _ _ _ h₁)⟩) ?_
      rw [unpack_pack hu]
      exact .finite h₁ hu
    | @finite m₂ e₂ h₂ hw =>
      -- both are brought to the lower exponent
      have hshift : ∀ (m : ℕ) (e : ℤ), min e₁ e₂ ≤ e → (m : ℚ) * 2 ^ e =
          (m <<< (e - min e₁ e₂).toNat : ℕ) * 2 ^ (min e₁ e₂) := by
        intro m e hle
        have hsplit : e = ((e - min e₁ e₂).toNat : ℤ) + min e₁ e₂ := by omega
        conv_lhs => rw [hsplit, zpow_add₀ two_ne_zero, zpow_natCast]
        rw [Nat.shiftLeft_eq]
        push_cast
        ring
      rw [hshift m₁ e₁ (min_le_left _ _), hshift m₂ e₂ (min_le_right _ _), ← add_mul]
      unfold UnpackedFloat.add decreaseExponent
      simp only
      have hpos₁ := shiftLeft_pos h₁ (e₁ - min e₁ e₂).toNat
      generalize m₁ <<< (e₁ - min e₁ e₂).toNat = k₁ at *
      generalize m₂ <<< (e₂ - min e₁ e₂).toNat = k₂ at *
      rw [show Sign.positive.apply k₁ + Sign.positive.apply k₂ = ((k₁ + k₂ : ℕ) : ℤ) from
        (Int.natCast_add k₁ k₂).symm, normalize_natCast (by omega)]
      exact_mod_cast rounds_round (m := k₁ + k₂) (by omega)

lemma cast_div_eq {d : ℕ} (hd : 0 < d) (n : ℕ) :
    (n : ℚ) / d = (n / d : ℕ) + (n % d : ℕ) / d := by
  have hpos : (0 : ℚ) < d := Nat.cast_pos.2 hd
  have hdivision : (n : ℚ) = d * (n / d : ℕ) + (n % d : ℕ) := by
    exact_mod_cast (Nat.div_add_mod n d).symm
  conv_lhs => rw [hdivision]
  field_simp

/-- A quotient lies above its whole part by the remainder. -/
lemma stands_quotient {d : ℕ} (hd : 0 < d) (n : ℕ) :
    Stands (.ofMantissaAndAccuracy (n / d) (accuracyOfFraction (n % d) d)) ((n : ℚ) / d) := by
  have hpos : (0 : ℚ) < d := by exact_mod_cast hd
  have hless : ((n % d : ℕ) : ℚ) / d < 1 := by
    rw [div_lt_one hpos]
    exact_mod_cast Nat.mod_lt n hd
  rw [cast_div_eq hd]
  generalize n / d = q
  generalize n % d = r at *
  unfold accuracyOfFraction
  split
  · rename_i hzero
    rw [hzero, Nat.cast_zero, zero_div, add_zero]
    rfl
  · rename_i hne
    have hrest : (0 : ℚ) < r / d := by
      have hr : (0 : ℚ) < r := by exact_mod_cast Nat.pos_of_ne_zero hne
      positivity
    cases hcompare : compare (2 * r) d with
    | lt =>
      have hhalf : (r : ℚ) / d < 1 / 2 := by
        have hlt : ((2 * r : ℕ) : ℚ) < d := by exact_mod_cast Nat.compare_eq_lt.1 hcompare
        push_cast at hlt
        rw [div_lt_div_iff₀ hpos two_pos]
        linarith
      exact ⟨by show (q : ℚ) < _; linarith, by show _ < (q : ℚ) + 1 / 2; linarith⟩
    | eq =>
      have hhalf : (r : ℚ) / d = 1 / 2 := by
        have heq : ((2 * r : ℕ) : ℚ) = d := by exact_mod_cast Nat.compare_eq_eq.1 hcompare
        push_cast at heq
        rw [div_eq_div_iff hpos.ne' two_ne_zero]
        linarith
      show _ = (q : ℚ) + 1 / 2
      rw [hhalf]
    | gt =>
      have hhalf : 1 / 2 < (r : ℚ) / d := by
        have hgt : (d : ℚ) < (2 * r : ℕ) := by exact_mod_cast Nat.compare_eq_gt.1 hcompare
        push_cast at hgt
        rw [div_lt_div_iff₀ two_pos hpos]
        linarith
      exact ⟨by show (q : ℚ) + 1 / 2 < _; linarith, by show _ < (q : ℚ) + 1; linarith⟩

lemma log2_nonneg_of_one_le {m : ℕ} {e : ℤ} (h : (1 : ℚ) ≤ m * 2 ^ e) : 0 ≤ m.log2 + e := by
  by_contra hsmall
  have hbits : (m : ℚ) < 2 ^ ((m.log2 : ℤ) + 1) := by exact_mod_cast Nat.lt_log2_self
  have hless : (m : ℚ) * 2 ^ e < 1 := by
    calc (m : ℚ) * 2 ^ e < 2 ^ ((m.log2 : ℤ) + 1) * 2 ^ e :=
          mul_lt_mul_of_pos_right hbits (zpow_pos two_pos e)
      _ = 2 ^ ((m.log2 : ℤ) + 1 + e) := (zpow_add₀ two_ne_zero _ _).symm
      _ ≤ 1 := zpow_le_one_of_nonpos₀ one_le_two (by omega)
  exact absurd h (not_le.2 hless)

/-- A quotient is rounded once, where it is not so small that it would lose bits. -/
theorem rounds_div {m₁ m₂ : ℕ} {e₁ e₂ : ℤ} (h₁ : 0 < m₁) (h₂ : 0 < m₂)
    (hsmall : -1021 ≤ (m₁.log2 + e₁) - (m₂.log2 + e₂)) :
    Rounds ⟨.pack (UnpackedFloat.div .binary64 (.finite .positive m₁ e₁ h₁)
      (.finite .positive m₂ e₂ h₂))⟩ (m₁ * 2 ^ e₁ / (m₂ * 2 ^ e₂)) := by
  have htarget : Format.binary64.targetExponent (totalExponent m₁ e₁ - totalExponent m₂ e₂) =
      (m₁.log2 + e₁) - (m₂.log2 + e₂) - 53 := by
    show max ((m₁.log2 : ℤ) + 1 + e₁ - (m₂.log2 + 1 + e₂) - (53 : ℕ))
      (3 - 2 ^ (11 - 1) - (53 : ℕ)) = _
    norm_num
    omega
  unfold UnpackedFloat.div divCore
  simp only [htarget]
  obtain ⟨s, hs⟩ := Int.le.dest (min_le_left (e₁ - e₂) ((m₁.log2 + e₁) - (m₂.log2 + e₂) - 53))
  have hfine := min_le_right (e₁ - e₂) ((m₁.log2 + e₁) - (m₂.log2 + e₂) - 53)
  generalize min (e₁ - e₂) ((m₁.log2 + e₁) - (m₂.log2 + e₂) - 53) = t at *
  rw [show (e₁ - e₂ - t).toNat = s by omega, Nat.shiftLeft_eq]
  -- the quotient has enough bits
  have hbits : 2 ^ 52 ≤ m₁ * 2 ^ s / m₂ := by
    rw [Nat.le_div_iff_mul_le h₂]
    calc 2 ^ 52 * m₂ ≤ 2 ^ 52 * 2 ^ (m₂.log2 + 1) := Nat.mul_le_mul_left _ Nat.lt_log2_self.le
      _ = 2 ^ (52 + (m₂.log2 + 1)) := (Nat.pow_add ..).symm
      _ ≤ 2 ^ (m₁.log2 + s) := Nat.pow_le_pow_right two_pos (by omega)
      _ = 2 ^ m₁.log2 * 2 ^ s := Nat.pow_add ..
      _ ≤ m₁ * 2 ^ s := Nat.mul_le_mul_right _ (Nat.log2_self_le h₁.ne')
  have hlog : 52 ≤ (m₁ * 2 ^ s / m₂).log2 := (Nat.le_log2 (by omega)).2 hbits
  refine rounds_roundWithAccuracy (by omega) ?_ (by omega)
  have hvalue : (m₁ : ℚ) * 2 ^ e₁ / (m₂ * 2 ^ e₂) / 2 ^ t = (m₁ * 2 ^ s : ℕ) / m₂ := by
    have hpower : (2 : ℚ) ^ e₁ = 2 ^ e₂ * 2 ^ t * 2 ^ s := by
      rw [← zpow_natCast, ← zpow_add₀ two_ne_zero, ← zpow_add₀ two_ne_zero]
      congr 1
      omega
    rw [hpower]
    push_cast
    field_simp
  rw [hvalue]
  exact stands_quotient h₂ _

lemma parts_one : (1 : Float).toModel.unpack = .finite .positive (2 ^ 52) (-52) (by decide) := rfl

lemma reads_one : Reads (1 : Float).toModel.unpack 1 := by
  have hone : (1 : ℚ) = ((2 ^ 52 : ℕ) : ℚ) * 2 ^ (-52 : ℤ) := by norm_num
  rw [parts_one, hone]
  exact .finite _ (.finite _ _ _ _ (by decide) (by decide) (by decide) (.inr le_rfl))

/-- A word is rounded once. -/
lemma rounds_toFloat (w : UInt64) : Rounds w.toFloat w.toNat := by
  show Rounds ⟨.pack (UnpackedFloat.normalize .binary64 (w.toNat : ℤ) 0 .positive)⟩ _
  rcases Nat.eq_zero_or_pos w.toNat with hzero | hpos
  · rw [hzero]
    show Rounds ⟨.pack (.zero .positive)⟩ _
    rw [Nat.cast_zero]
    exact rounds_of_reads reads_zero
  · rw [normalize_natCast hpos]
    simpa using rounds_round (e := 0) hpos

/-- A whole number of 53 bits is a number of the format. -/
lemma Rounds.reads_natCast (h : Rounds x n) (hn : n < 2 ^ 53) : Reads x.toModel.unpack n := by
  refine h.reads (natCast_mem hn.le) ?_
  have hbits : (n : ℚ) < 2 ^ (53 : ℤ) := by exact_mod_cast hn
  exact hbits.trans (zpow_lt_zpow_right₀ one_lt_two (by decide))

lemma mul_finite {m₁ m₂ : ℕ} {e₁ e₂ : ℤ} (h₁ : 0 < m₁) (h₂ : 0 < m₂) :
    UnpackedFloat.mul .binary64 (.finite .positive m₁ e₁ h₁) (.finite .positive m₂ e₂ h₂) =
      roundWithAccuracy .binary64 .positive (m₁ * m₂) (e₁ + e₂) .exact := rfl

/-- A number without decimal places only gets room for its bits. -/
lemma ofScientific_natCast (hn : 0 < n) : UnpackedFloat.ofScientific .binary64 n 0 =
    roundWithAccuracy .binary64 .positive (n <<< 53) (-53) .exact := by
  have hexponent : ¬ (0 : ℤ) < -((2 : ℤ) ^ Format.binary64.exponentBits + (n.log2 : ℤ)) := by
    have : (0 : ℤ) ≤ 2 ^ Format.binary64.exponentBits := by positivity
    omega
  have hone : ∀ {k : ℕ} (hk : 0 < k), UnpackedFloat.mul .binary64 (.finite .positive k (-53) hk)
      (.finite .positive 1 0 Nat.one_pos) =
        roundWithAccuracy .binary64 .positive k (-53) .exact := by
    intro k hk
    rw [mul_finite, mul_one, add_zero]
  unfold UnpackedFloat.ofScientific
  rw [dif_neg hn.ne', if_neg (by decide), if_neg hexponent, if_pos le_rfl]
  exact hone _

/-- A whole number is rounded once, by way of a word if it is not too great. -/
theorem rounds_ofNat (n : ℕ) : Rounds (Float.ofNat n) n := by
  show Rounds (Float.ofScientific n false 0) n
  unfold Float.ofScientific
  split
  · rename_i hsmall
    have hword : n.toUInt64.toNat = n := Nat.mod_eq_of_lt (hsmall.1.trans (by decide))
    have hrounds := rounds_toFloat n.toUInt64
    rw [hword] at hrounds
    have hproduct := rounds_mul (hrounds.reads_natCast hsmall.1) reads_one le_rfl
    rw [mul_one] at hproduct
    exact hproduct
  · rename_i hgreat
    have hpos : 0 < n := by
      by_contra hzero
      exact hgreat ⟨by omega, by decide⟩
    show Rounds ⟨.pack (UnpackedFloat.ofScientific .binary64 n 0)⟩ n
    rw [ofScientific_natCast hpos]
    have hvalue : (n <<< 53 : ℕ) * 2 ^ (-53 : ℤ) = (n : ℚ) := by
      rw [Nat.shiftLeft_eq]
      push_cast
      norm_num
      ring
    have hrounds :=
      rounds_exact (shiftLeft_pos hpos 53) (e := -53) (by rw [log2_shiftLeft hpos]; omega)
    rwa [hvalue] at hrounds

end

/-! ## Order -/

section

variable {x x' y y' : Float} {a a' b b' c c' : ℚ} {u w : UnpackedFloat}

lemma Reads.functional (h : Reads u a) (h' : Reads u b) : a = b := by
  cases h with
  | zero =>
    cases h'
    rfl
  | finite =>
    cases h'
    rfl

/-- Of two fractions for one number, that with the lower exponent would need more bits. -/
lemma exponent_le {m n : ℕ} {e f : ℤ} {hm : 0 < m} {hn : 0 < n}
    (hf : Canonical (.finite .positive m e hm)) (hg : Canonical (.finite .positive n f hn))
    (heq : (m : ℚ) * 2 ^ e = n * 2 ^ f) : f ≤ e := by
  cases hf with
  | finite _ _ _ _ hm53 hmin hmax hnormal =>
  cases hg with
  | finite _ _ _ _ hn53 hmin' hmax' hnormal' =>
  by_contra hlt
  obtain ⟨k, hk⟩ := Int.le.dest (Int.add_one_le_of_lt (not_le.1 hlt))
  have hbits : 2 ^ 52 ≤ n := hnormal'.resolve_left (by omega)
  have hshifted : (m : ℚ) = (n * 2 ^ (k + 1) : ℕ) := by
    have hpower : (2 : ℚ) ^ f = 2 ^ (k + 1) * 2 ^ e := by
      rw [← hk, ← zpow_natCast, ← zpow_add₀ two_ne_zero]
      congr 1
      push_cast
      omega
    rw [hpower, ← mul_assoc] at heq
    push_cast
    exact mul_right_cancel₀ (zpow_ne_zero e two_ne_zero) heq
  have hshifted : m = n * 2 ^ (k + 1) := by exact_mod_cast hshifted
  have hdouble : n * 2 ≤ n * 2 ^ (k + 1) :=
    Nat.mul_le_mul_left n (Nat.le_self_pow k.succ_ne_zero 2)
  omega

/-- A number has its bits in one way only. -/
theorem Reads.unique (h : Reads u a) (h' : Reads w a) : u = w := by
  have hpos : ∀ {m : ℕ} {e : ℤ}, 0 < m → (0 : ℚ) < m * 2 ^ e := fun hm =>
    mul_pos (Nat.cast_pos.2 hm) (zpow_pos two_pos _)
  cases h with
  | zero =>
    generalize ha : (0 : ℚ) = a at h'
    cases h' with
    | zero => rfl
    | finite hn hg => exact absurd ha (hpos hn).ne
  | @finite m e hm hf =>
    generalize ha : (m : ℚ) * 2 ^ e = a at h'
    cases h' with
    | zero => exact absurd ha (hpos hm).ne'
    | @finite n f hn hg =>
      obtain rfl : e = f := le_antisymm (exponent_le hg hf ha.symm) (exponent_le hf hg ha)
      have hsame : (m : ℚ) = n := mul_right_cancel₀ (zpow_ne_zero e two_ne_zero) ha
      obtain rfl : m = n := by exact_mod_cast hsame
      rfl

/-- A number of a float that is read was rounded to. -/
lemma Rounds.nearest (h : Rounds x a) (hx : Reads x.toModel.unpack b) : Nearest binary64 a b := by
  obtain ⟨hinfinite, -⟩ | ⟨c, hc, hnear⟩ := h
  · rw [hinfinite] at hx
    cases hx
  · rwa [hx.functional hc]

/-- Sums keep the order. -/
theorem add_mono (hx : Reads x.toModel.unpack a) (hx' : Reads x'.toModel.unpack a')
    (hy : Reads y.toModel.unpack b) (hy' : Reads y'.toModel.unpack b') (ha : a ≤ a') (hb : b ≤ b')
    (hc : Reads (x + y).toModel.unpack c) (hc' : Reads (x' + y').toModel.unpack c') : c ≤ c' := by
  have hnear := (rounds_add hx hy).nearest hc
  have hnear' := (rounds_add hx' hy').nearest hc'
  rcases (add_le_add ha hb).lt_or_eq with hlt | heq
  · exact hnear.mono hnear' hlt
  · -- the same is added
    obtain rfl : a = a' := by linarith
    obtain rfl : b = b' := by linarith
    have hsame : x + y = x' + y' := by
      show Float.ofModel (.pack (UnpackedFloat.add _ x.toModel.unpack y.toModel.unpack)) = _
      rw [hx.unique hx', hy.unique hy']
      rfl
    rw [hsame] at hc
    exact (hc.functional hc').le

/-- Products with a factor that is not below one keep the order. -/
theorem mul_mono (hx : Reads x.toModel.unpack a) (hx' : Reads x'.toModel.unpack a')
    (hy : Reads y.toModel.unpack b) (hb : 1 ≤ b) (ha : a ≤ a')
    (hc : Reads (x * y).toModel.unpack c) (hc' : Reads (x' * y).toModel.unpack c') : c ≤ c' := by
  have hnear := (rounds_mul hx hy hb).nearest hc
  have hnear' := (rounds_mul hx' hy hb).nearest hc'
  -- `Nearest` leaves ties open, so equal factors need their own argument
  rcases ha.lt_or_eq with hlt | rfl
  · exact hnear.mono hnear' (mul_lt_mul_of_pos_right hlt (one_pos.trans_le hb))
  · have hsame : x * y = x' * y := by
      show Float.ofModel (.pack (UnpackedFloat.mul _ x.toModel.unpack y.toModel.unpack)) = _
      rw [hx.unique hx']
      rfl
    rw [hsame] at hc
    exact (hc.functional hc').le

/-- If a float that is not below one stands for a number, this is not below one. -/
lemma one_le_of_not_lt (h : ¬ x < 1.0) :
    Unbounded x.toModel.unpack ∨ ∃ a, Reads x.toModel.unpack a ∧ 1 ≤ a := by
  have hlt : ¬ UnpackedFloat.lt x.toModel.unpack (.finite .positive (2 ^ 52) (-52) (by decide)) =
      true := fun hlt => h (decide_eq_true (p := x.toModel < (1.0 : Float).toModel) hlt)
  have hcanonical := canonical_unpack x.toModel.toBits.toBitVec
  change Canonical x.toModel.unpack at hcanonical
  generalize x.toModel.unpack = u at hlt hcanonical
  unfold UnpackedFloat.lt at hlt
  cases hcanonical with
  | notANumber => exact .inl .notANumber
  | infinity s => exact .inl (.infinity s)
  | zero s => exact absurd rfl hlt
  | finite s m e hm hm53 hmin hmax hnormal =>
    cases s with
    | negative => exact absurd rfl hlt
    | positive =>
      refine .inr ⟨_, .finite hm (.finite _ m e hm hm53 hmin hmax hnormal), ?_⟩
      -- floats are compared by their exponents first
      have hexponent : -52 ≤ e := by
        by_contra hless
        have hcompare : (compare e (-52)).then (compare m (2 ^ 52)) = .lt := by
          rw [Int.compare_eq_lt.2 (not_le.1 hless)]
          rfl
        exact hlt (congrArg (some · == some Ordering.lt) hcompare)
      have hbits : (2 : ℚ) ^ (52 : ℤ) ≤ m := by exact_mod_cast hnormal.resolve_left (by omega)
      calc (1 : ℚ) = 2 ^ (52 : ℤ) * 2 ^ (-52 : ℤ) := by norm_num
        _ ≤ m * 2 ^ e := mul_le_mul hbits (zpow_le_zpow_right₀ one_le_two hexponent)
          (zpow_nonneg two_pos.le _) (Nat.cast_nonneg m)

end

/-! ## The order of floats -/

section

variable {m m' : ℕ} {e e' : ℤ} {h : 0 < m} {h' : 0 < m'} {x y : Float} {a b : ℚ}

/-- Of two numbers of the format, the one with the smaller exponent is not greater, and with the
same exponent the one with the smaller mantissa. -/
lemma le_of_compare (hf : Canonical (.finite .positive m e h))
    (hf' : Canonical (.finite .positive m' e' h'))
    (hle : ((compare e e').then (compare m m')).isLE = true) : (m : ℚ) * 2 ^ e ≤ m' * 2 ^ e' := by
  cases hf with
  | finite _ _ _ _ hm53 hmin =>
    cases hf' with
    | finite _ _ _ _ _ _ _ hnormal =>
      rcases lt_trichotomy e e' with hlt | rfl | hgt
      · have hm : (m : ℚ) ≤ 2 ^ (53 : ℤ) := by exact_mod_cast hm53.le
        have hbits : (2 : ℚ) ^ (52 : ℤ) ≤ m' := by exact_mod_cast hnormal.resolve_left (by omega)
        calc (m : ℚ) * 2 ^ e ≤ 2 ^ (53 : ℤ) * 2 ^ e := by gcongr
          _ = 2 ^ (52 : ℤ) * 2 ^ (e + 1) := by
            rw [← zpow_add₀ two_ne_zero, ← zpow_add₀ two_ne_zero]
            ring_nf
          _ ≤ m' * 2 ^ e' := mul_le_mul hbits (zpow_le_zpow_right₀ one_le_two hlt)
            (zpow_nonneg two_pos.le _) (Nat.cast_nonneg m')
      · rw [Std.compare_self, Ordering.eq_then, Nat.isLE_compare] at hle
        have hm : (m : ℚ) ≤ m' := by exact_mod_cast hle
        gcongr
      · rw [Int.compare_eq_gt.2 hgt] at hle
        cases hle

lemma le_of_float_le (hle : x ≤ y) : UnpackedFloat.le x.toModel.unpack y.toModel.unpack = true :=
  of_decide_eq_true (p := x.toModel ≤ y.toModel) hle

/-- Floats are in the order of the numbers that they stand for. -/
theorem le_of_reads (hle : x ≤ y) (hx : Reads x.toModel.unpack a) (hy : Reads y.toModel.unpack b) :
    a ≤ b := by
  have hle := le_of_float_le hle
  generalize x.toModel.unpack = u at hle hx
  generalize y.toModel.unpack = w at hle hy
  cases hx with
  | zero => exact hy.nonneg
  | finite _ hf =>
    cases hy with
    | zero => cases hle
    | finite _ hf' => exact le_of_compare hf hf' hle

/-- A float that is not below one and not above a number is a number. -/
lemma exists_reads_of_le (hone : ¬ x < 1.0) (hle : x ≤ y) (hy : Reads y.toModel.unpack b) :
    ∃ a, Reads x.toModel.unpack a ∧ 1 ≤ a ∧ a ≤ b := by
  rcases one_le_of_not_lt hone with hgreat | ⟨a, ha, hone⟩
  · have hle := le_of_float_le hle
    have hlt : ¬ UnpackedFloat.lt x.toModel.unpack (1.0 : Float).toModel.unpack = true :=
      fun hlt => hone (decide_eq_true (p := x.toModel < (1.0 : Float).toModel) hlt)
    generalize x.toModel.unpack = u at hle hlt hgreat
    generalize y.toModel.unpack = w at hle hy
    cases hgreat with
    | notANumber => cases hle
    | infinity s =>
      cases s with
      | positive => cases hy <;> cases hle
      | negative => exact absurd rfl hlt
  · exact ⟨a, ha, hone, le_of_reads hle ha hy⟩

end

/-! ## Floats without a number -/

section

variable {u w : UnpackedFloat} {x y : Float} {v : ℚ}

lemma Rounds.reads_or_unbounded (h : Rounds x v) :
    Unbounded x.toModel.unpack ∨ ∃ a, Reads x.toModel.unpack a := by
  obtain ⟨hinfinite, -⟩ | ⟨a, ha, -⟩ := h
  · rw [hinfinite]
    exact .inl (.infinity _)
  · exact .inr ⟨a, ha⟩

lemma unbounded_pack (h : Unbounded u) : Unbounded (Float.Model.pack u).unpack := by
  cases h with
  | notANumber =>
    rw [unpack_pack .notANumber]
    exact .notANumber
  | infinity s =>
    rw [unpack_pack (.infinity s)]
    exact .infinity s

lemma unbounded_add (h : Unbounded x.toModel.unpack) : Unbounded (x + y).toModel.unpack := by
  refine unbounded_pack (u := UnpackedFloat.add .binary64 x.toModel.unpack y.toModel.unpack) ?_
  generalize x.toModel.unpack = u at h
  generalize y.toModel.unpack = w
  cases h with
  | notANumber => exact .notANumber
  | infinity s =>
    cases w with
    | notANumber => exact .notANumber
    | zero => exact .infinity s
    | finite => exact .infinity s
    | infinity s' =>
      show Unbounded (if s == s' then .infinity s else .notANumber)
      split
      · exact .infinity s
      · exact .notANumber

lemma unbounded_mul (h : Unbounded x.toModel.unpack ∨ Unbounded y.toModel.unpack) :
    Unbounded (x * y).toModel.unpack := by
  refine unbounded_pack (u := UnpackedFloat.mul .binary64 x.toModel.unpack y.toModel.unpack) ?_
  generalize x.toModel.unpack = u at h
  generalize y.toModel.unpack = w at h
  rcases h with hu | hw
  · cases hu with
    | notANumber => exact .notANumber
    | infinity s =>
      cases w with
      | notANumber => exact .notANumber
      | zero => exact .notANumber
      | infinity s' => exact .infinity (s * s')
      | finite s' => exact .infinity (s * s')
  · cases hw with
    | notANumber => cases u <;> exact .notANumber
    | infinity s =>
      cases u with
      | notANumber => exact .notANumber
      | zero => exact .notANumber
      | infinity s' => exact .infinity (s' * s)
      | finite s' => exact .infinity (s' * s)

end

end ReplicaRing.Binary64
