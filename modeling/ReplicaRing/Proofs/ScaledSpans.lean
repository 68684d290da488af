import ReplicaRing.Proofs.FloatArithmetic
import ReplicaRing.Time.Duration

/-!
Spans of time that grow by a factor. The seconds of a span are a sum of two floats, and the product
with the factor is rounded back to nanoseconds. Longer spans do not grow to shorter ones,
`Duration.scale?_mono`, and a span below 2^23 seconds does not shrink, `Duration.le_scale?`: the
error of its seconds is less than half a nanosecond. A longer one may lose a nanosecond. Where a
span can grow, so can every shorter one, `Duration.isSome_scale?_mono`, and a factor of 2^4 at least
doubles it, `Duration.two_mul_le_scale?`.
-/

namespace ReplicaRing

namespace Duration

open Binary64 Float.Model Float.Model.UnpackedFloat

/-! ## Spans from seconds -/

section

variable {x y : Float} {m : ℕ} {e : ℤ} {h : 0 < m} {p : ℚ} {n : ℕ}

lemma ofSeconds?_of_unbounded (hx : Unbounded x.toModel.unpack) : ofSeconds? x = none := by
  have hfields := fields_toBits x
  generalize x.toModel.unpack = u at hx hfields
  cases hfields with
  | unbounded _ hexponent =>
    unfold ofSeconds?
    simp only [Nat.one_shiftLeft, hexponent]
    rw [if_pos (show 2047 ≥ 1087 by decide)]
    exact ite_self none
  | zero => cases hx
  | finite => cases hx

lemma roundDiv_zero (den : ℕ) : roundDiv 0 den = 0 := by
  unfold roundDiv
  rw [Nat.zero_div, Nat.zero_mod, if_neg (by simp)]

lemma ofSeconds?_of_zero {s : Sign} (hx : x.toModel.unpack = .zero s) : ofSeconds? x = some 0 := by
  have hfields := fields_toBits x
  rw [hx] at hfields
  cases hfields with
  | unbounded hu => cases hu
  | zero _ hexponent hmantissa =>
    unfold ofSeconds?
    simp only [Nat.one_shiftLeft, hexponent, hmantissa]
    rw [if_neg (by simp), if_neg (by decide), if_neg (by decide), if_pos trivial, Nat.zero_add,
      Nat.zero_mul, roundDiv_zero]

lemma ofSeconds?_of_finite (hx : x.toModel.unpack = .finite .positive m e h) :
    ofSeconds? x =
      if 12 ≤ e then none
      else if 0 ≤ e then some (m * 2 ^ e.toNat * nanosPerSecond)
      else some (roundDiv (m * nanosPerSecond) (2 ^ (-e).toNat)) := by
  have hfields := fields_toBits x
  rw [hx] at hfields
  cases hfields with
  | unbounded hu => cases hu
  | finite _ _ _ _ hsign hexponent hm he =>
    have hbits := hsign rfl
    unfold ofSeconds?
    simp only [Nat.one_shiftLeft]
    rw [hm]
    generalize x.toBits.toNat >>> 52 % 2 ^ 11 = exponent at *
    have hpositive : ¬ (x.toBits.toNat ≥ 2 ^ 63 && decide (m ≠ 0)) = true := by
      simp only [Bool.and_eq_true, decide_eq_true_eq]
      omega
    rw [if_neg hpositive]
    by_cases hgreat : 12 ≤ e
    · rw [if_pos hgreat, if_pos (by omega)]
    · rw [if_neg hgreat, if_neg (by omega)]
      by_cases hwhole : 0 ≤ e
      · rw [if_pos hwhole, if_pos (by omega), Nat.shiftLeft_eq,
          show exponent - 1075 = e.toNat by omega]
      · rw [if_neg hwhole, if_neg (by omega), show 1075 - max exponent 1 = (-e).toNat by omega]

lemma abs_sub_roundDiv {num den : ℕ} (hden : 0 < den) :
    |(num : ℚ) / den - roundDiv num den| ≤ 1 / 2 := by
  have hpos : (0 : ℚ) < den := Nat.cast_pos.2 hden
  rw [cast_div_eq hden]
  unfold roundDiv
  simp only
  have hless : ((num % den : ℕ) : ℚ) / den < 1 :=
    (div_lt_one hpos).2 (Nat.cast_lt.2 (Nat.mod_lt num hden))
  have hrest : 0 ≤ ((num % den : ℕ) : ℚ) / den := by positivity
  generalize num / den = q
  generalize num % den = r at *
  rw [abs_le]
  split
  · rename_i hup
    have hhalf : den ≤ 2 * r := by
      simp only [Bool.or_eq_true, Bool.and_eq_true, decide_eq_true_eq, beq_iff_eq] at hup
      omega
    have hhalf : 1 / 2 ≤ (r : ℚ) / den := by
      rw [div_le_div_iff₀ two_pos hpos, one_mul, mul_comm]
      exact_mod_cast hhalf
    push_cast
    constructor <;> linarith
  · rename_i hdown
    have hhalf : 2 * r ≤ den := by
      simp only [Bool.or_eq_true, Bool.and_eq_true, decide_eq_true_eq, beq_iff_eq] at hdown
      omega
    have hhalf : (r : ℚ) / den ≤ 1 / 2 := by
      rw [div_le_div_iff₀ hpos two_pos, one_mul, mul_comm]
      exact_mod_cast hhalf
    constructor <;> linarith

/-- What a float stands for is rounded to the nearest nanosecond. -/
theorem nearest_ofSeconds? (hx : Reads x.toModel.unpack p) (hn : ofSeconds? x = some n) :
    Nearest wholeNumbers (p * nanosPerSecond) n := by
  generalize hparts : x.toModel.unpack = u at hx
  cases hx with
  | zero =>
    obtain rfl : 0 = n := Option.some_inj.1 ((ofSeconds?_of_zero hparts).symm.trans hn)
    refine nearest_whole ?_
    norm_num
  | @finite m e h hf =>
    rw [ofSeconds?_of_finite hparts] at hn
    refine nearest_whole ?_
    split at hn
    · cases hn
    · split at hn
      · rename_i hwhole
        obtain rfl := Option.some_inj.1 hn
        have hpower : (2 : ℚ) ^ e = 2 ^ e.toNat := by
          rw [← zpow_natCast, Int.toNat_of_nonneg hwhole]
        rw [hpower]
        push_cast
        norm_num
      · rename_i hfraction
        obtain rfl := Option.some_inj.1 hn
        have hpower : (2 : ℚ) ^ e = ((2 ^ (-e).toNat : ℕ) : ℚ)⁻¹ := by
          rw [Nat.cast_pow, Nat.cast_ofNat, ← zpow_natCast, Int.toNat_of_nonneg (by omega),
            zpow_neg, inv_inv]
        have hvalue : (m : ℚ) * 2 ^ e * nanosPerSecond =
            (m * nanosPerSecond : ℕ) / (2 ^ (-e).toNat : ℕ) := by
          rw [hpower, div_eq_mul_inv]
          push_cast
          ring
        rw [hvalue]
        exact abs_sub_roundDiv (by positivity)

/-- A span has less than 2^64 seconds. -/
lemma isSome_ofSeconds?_iff (hx : Reads x.toModel.unpack p) :
    (ofSeconds? x).isSome = true ↔ p < 2 ^ 64 := by
  generalize hparts : x.toModel.unpack = u at hx
  cases hx with
  | zero =>
    rw [ofSeconds?_of_zero hparts]
    exact iff_of_true rfl (by positivity)
  | @finite m e h hf =>
    rw [ofSeconds?_of_finite hparts]
    cases hf with
    | finite _ _ _ _ hm hmin hmax hnormal =>
      by_cases hgreat : 12 ≤ e
      · rw [if_pos hgreat]
        refine iff_of_false Bool.false_ne_true (not_lt.2 ?_)
        have hbits : (2 : ℚ) ^ 52 ≤ m := by exact_mod_cast hnormal.resolve_left (by omega)
        calc (2 : ℚ) ^ 64 = 2 ^ 52 * 2 ^ (12 : ℤ) := by norm_num
          _ ≤ (m : ℚ) * 2 ^ e := by
            gcongr
            exact one_le_two
      · rw [if_neg hgreat]
        refine iff_of_true ?_ ?_
        · split
          · rfl
          · rfl
        · have hbits : (m : ℚ) < 2 ^ 53 := by exact_mod_cast hm
          calc (m : ℚ) * 2 ^ e ≤ m * 2 ^ (11 : ℤ) := by
                gcongr
                · exact one_le_two
                · omega
            _ < 2 ^ 53 * 2 ^ (11 : ℤ) := by gcongr
            _ = 2 ^ 64 := by norm_num

lemma ofSeconds?_congr (hx : Reads x.toModel.unpack p) (hy : Reads y.toModel.unpack p) :
    ofSeconds? x = ofSeconds? y := by
  have hsame := hy.unique hx
  generalize hparts : x.toModel.unpack = u at hx hsame
  cases hx with
  | zero => rw [ofSeconds?_of_zero hparts, ofSeconds?_of_zero hsame]
  | finite => rw [ofSeconds?_of_finite hparts, ofSeconds?_of_finite hsame]

end

/-! ## Seconds of spans -/

lemma parts_billion :
    (1e9 : Float).toModel.unpack = .finite .positive 8388608000000000 (-23) (by decide) := rfl

/-- The part of a second is rounded once. -/
lemma rounds_fraction {r : ℕ} (hr : r < nanosPerSecond) :
    Rounds (Float.ofNat r / 1e9) ((r : ℚ) / nanosPerSecond) := by
  have hread := (rounds_ofNat r).reads_natCast (hr.trans (by decide))
  have hbillion : (nanosPerSecond : ℚ) = (8388608000000000 : ℕ) * 2 ^ (-23 : ℤ) := by
    norm_num [nanosPerSecond]
  show Rounds ⟨.pack (UnpackedFloat.div .binary64 (Float.ofNat r).toModel.unpack
    (1e9 : Float).toModel.unpack)⟩ _
  rw [parts_billion, hbillion]
  generalize (Float.ofNat r).toModel.unpack = u at hread
  generalize hvalue : (r : ℚ) = v at hread
  cases hread with
  | zero =>
    rw [zero_div]
    exact rounds_of_reads reads_zero
  | @finite m e h hf =>
    have hone : (1 : ℚ) ≤ m * 2 ^ e := by
      have hpos : (0 : ℚ) < m * 2 ^ e := mul_pos (Nat.cast_pos.2 h) (zpow_pos two_pos e)
      rw [← hvalue] at hpos ⊢
      exact_mod_cast hpos
    have hlog : Nat.log2 8388608000000000 = 52 := by decide
    refine rounds_div h (by decide) ?_
    have := log2_nonneg_of_one_le hone
    omega

/-- The part of a second is less than a second, also when it is rounded. -/
lemma reads_fraction {r : ℕ} (hr : r < nanosPerSecond) :
    ∃ f, Reads (Float.ofNat r / 1e9).toModel.unpack f ∧
      Nearest binary64 ((r : ℚ) / nanosPerSecond) f ∧ f < 1 := by
  have hpos : (0 : ℚ) < nanosPerSecond := by norm_num [nanosPerSecond]
  have hless : (r : ℚ) / nanosPerSecond ≤ (2 ^ 53 - 1 : ℕ) * 2 ^ (-53 : ℤ) := by
    have hr : (r : ℚ) ≤ 999999999 := by exact_mod_cast Nat.lt_succ_iff.1 hr
    calc (r : ℚ) / nanosPerSecond ≤ 999999999 / nanosPerSecond := by gcongr
      _ ≤ (2 ^ 53 - 1 : ℕ) * 2 ^ (-53 : ℤ) := by norm_num [nanosPerSecond]
  have hone : ((2 ^ 53 - 1 : ℕ) : ℚ) * 2 ^ (-53 : ℤ) < 1 := by norm_num
  obtain ⟨f, hf, hnear⟩ := (rounds_fraction hr).exists_reads
    ((hless.trans_lt hone).trans (one_lt_zpow₀ one_lt_two (by decide)))
  refine ⟨f, hf, hnear, ?_⟩
  exact (hnear.ge_of_mem (mem_binary64 (by decide) (by decide)) hless).trans_lt hone

/-- The whole seconds of a span, the part of a second, and their sum, each as it is rounded. -/
structure Seconds (d : ℕ) (q f t : ℚ) : Prop where
  whole : Reads (Float.ofNat (d / nanosPerSecond)).toModel.unpack q
  fraction : Reads (Float.ofNat (d % nanosPerSecond) / 1e9).toModel.unpack f
  sum : Reads (toSeconds d).toModel.unpack t

lemma mod_nanosPerSecond_lt (d : ℕ) : d % nanosPerSecond < nanosPerSecond :=
  Nat.mod_lt d (by decide)

lemma seconds_cases (d : ℕ) :
    Unbounded (toSeconds d).toModel.unpack ∨ ∃ q f t, Seconds d q f t := by
  obtain ⟨f, hf, -⟩ := reads_fraction (mod_nanosPerSecond_lt d)
  rcases (rounds_ofNat (d / nanosPerSecond)).reads_or_unbounded with hgreat | ⟨q, hq⟩
  · exact .inl (unbounded_add hgreat)
  · exact (rounds_add hq hf).reads_or_unbounded.imp_right fun ⟨t, ht⟩ => ⟨q, f, t, hq, hf, ht⟩

namespace Seconds

variable {d d' : ℕ} {q q' f f' t t' : ℚ}

lemma nearest_whole (h : Seconds d q f t) : Nearest binary64 (d / nanosPerSecond : ℕ) q :=
  (rounds_ofNat _).nearest h.whole

lemma nearest_fraction (h : Seconds d q f t) :
    Nearest binary64 ((d % nanosPerSecond : ℕ) / nanosPerSecond) f :=
  (rounds_fraction (mod_nanosPerSecond_lt d)).nearest h.fraction

lemma nearest_sum (h : Seconds d q f t) : Nearest binary64 (q + f) t :=
  (rounds_add h.whole h.fraction).nearest h.sum

lemma fraction_lt_one (h : Seconds d q f t) : f < 1 := by
  obtain ⟨f', hf', -, hless⟩ := reads_fraction (mod_nanosPerSecond_lt d)
  rwa [h.fraction.functional hf']

lemma whole_le (h : Seconds d q f t) : q ≤ t :=
  h.nearest_sum.le_of_mem h.whole.mem (le_add_of_nonneg_right h.fraction.nonneg)

/-- Whole seconds of 53 bits are not rounded. -/
lemma whole_eq (h : Seconds d q f t) (hd : d / nanosPerSecond ≤ 2 ^ 53) :
    q = (d / nanosPerSecond : ℕ) :=
  h.nearest_whole.eq_of_mem (natCast_mem hd)

/-- A part of a second does not reach the next one. -/
lemma le_whole (h : Seconds d q f t) (h' : Seconds d' q' f' t')
    (hlt : d / nanosPerSecond < d' / nanosPerSecond) : t ≤ q' := by
  by_cases hsmall : d / nanosPerSecond < 2 ^ 53
  · have hnext : ((d / nanosPerSecond + 1 : ℕ) : ℚ) ∈ binary64 := natCast_mem hsmall
    refine (h.nearest_sum.ge_of_mem hnext ?_).trans (h'.nearest_whole.le_of_mem hnext ?_)
    · rw [h.whole_eq hsmall.le, Nat.cast_succ]
      linarith [h.fraction_lt_one]
    · exact_mod_cast hlt
  · -- among such great numbers it is lost
    have hgreat : ((2 ^ 53 : ℕ) : ℚ) ≤ q :=
      h.nearest_whole.le_of_mem (natCast_mem le_rfl) (by exact_mod_cast not_lt.1 hsmall)
    rw [Nat.cast_pow, Nat.cast_ofNat] at hgreat
    rw [h.nearest_sum.absorbs h.whole.mem hgreat h.fraction.nonneg h.fraction_lt_one]
    exact h.nearest_whole.mono h'.nearest_whole (by exact_mod_cast hlt)

theorem mono (h : Seconds d q f t) (h' : Seconds d' q' f' t') (hle : d ≤ d') : t ≤ t' := by
  -- between different seconds the whole ones decide, within one the parts do
  rcases (Nat.div_le_div_right (c := nanosPerSecond) hle).lt_or_eq with hlt | heq
  · exact (h.le_whole h' hlt).trans h'.whole_le
  · have hq : q ≤ q' := (h.whole.functional (heq ▸ h'.whole)).le
    have hmod : d % nanosPerSecond ≤ d' % nanosPerSecond := by
      have hd := Nat.div_add_mod d nanosPerSecond
      have hd' := Nat.div_add_mod d' nanosPerSecond
      rw [heq] at hd
      omega
    have hf : f ≤ f' := by
      rcases hmod.lt_or_eq with hlt | hsame
      · refine h.nearest_fraction.mono h'.nearest_fraction ?_
        gcongr
        norm_num [nanosPerSecond]
      · exact (h.fraction.functional (hsame ▸ h'.fraction)).le
    exact add_mono h.whole h'.whole h.fraction h'.fraction hq hf h.sum h'.sum

/-- The seconds of a span below 2^23 seconds are exact to half a nanosecond. -/
theorem close (h : Seconds d q f t) (hd : d < 2 ^ 23 * nanosPerSecond) :
    (d : ℚ) - 1 / 2 < t * nanosPerSecond := by
  have hbillion : (nanosPerSecond : ℚ) = 1000000000 := by norm_num [nanosPerSecond]
  have hsplit := cast_div_eq (by decide : 0 < nanosPerSecond) d
  have hrest : (0 : ℚ) ≤ (d % nanosPerSecond : ℕ) / nanosPerSecond := by positivity
  have hpart : ((d % nanosPerSecond : ℕ) : ℚ) / nanosPerSecond < 1 :=
    (div_lt_one (by rw [hbillion]; norm_num)).2 (Nat.cast_lt.2 (mod_nanosPerSecond_lt d))
  have hfew : d / nanosPerSecond + 1 ≤ 2 ^ 23 := Nat.div_lt_of_lt_mul (by rwa [Nat.mul_comm])
  have hwhole := h.whole_eq (by omega)
  have hnext : ((d / nanosPerSecond : ℕ) : ℚ) + 1 ≤ 2 ^ 23 := by exact_mod_cast hfew
  have hbelow : q + f ≤ 2 ^ 23 := by linarith [h.fraction_lt_one]
  -- the part of a second has 53 bits behind the point, and the sum at least 30 of them
  have hfraction := abs_sub_le_of_nearest (e := -53) h.nearest_fraction (by decide) hrest
    (hpart.le.trans (by norm_num))
  have hsum := abs_sub_le_of_nearest (e := -30) h.nearest_sum (by decide)
    (add_nonneg h.whole.nonneg h.fraction.nonneg) (hbelow.trans (by norm_num))
  have hunits : (2 : ℚ) ^ (-53 : ℤ) / 2 + 2 ^ (-30 : ℤ) / 2 < 1 / 2 / nanosPerSecond := by
    rw [hbillion]
    norm_num
  have herror : (d : ℚ) / nanosPerSecond - t < 1 / 2 / nanosPerSecond := by
    rw [hsplit, ← hwhole]
    linarith [le_of_abs_le hfraction, le_of_abs_le hsum]
  rw [hbillion] at herror ⊢
  linarith

end Seconds

/-! ## Growth -/

section

variable {d d' n n' : ℕ} {factor : Float}

/-- A span that grows has seconds, and so has its growth. -/
lemma scale?_cases (hfactor : ¬ factor < 1.0) (hn : scale? d factor = some n) :
    ∃ q f t c p, Seconds d q f t ∧ Reads factor.toModel.unpack c ∧ 1 ≤ c ∧
      Reads (toSeconds d * factor).toModel.unpack p ∧
      Nearest wholeNumbers (p * nanosPerSecond) n := by
  have hbounded : ¬ Unbounded (toSeconds d * factor).toModel.unpack := fun hgreat => by
    cases (ofSeconds?_of_unbounded hgreat).symm.trans hn
  obtain ⟨q, f, t, hd⟩ := (seconds_cases d).resolve_left fun hgreat =>
    hbounded (unbounded_mul (.inl hgreat))
  obtain ⟨c, hc, hone⟩ := (one_le_of_not_lt hfactor).resolve_left fun hgreat =>
    hbounded (unbounded_mul (.inr hgreat))
  obtain ⟨p, hp⟩ := (rounds_mul hd.sum hc hone).reads_or_unbounded.resolve_left hbounded
  exact ⟨q, f, t, c, p, hd, hc, hone, hp, nearest_ofSeconds? hp hn⟩

/-- The longer of two spans does not grow to less. -/
theorem scale?_mono (hfactor : ¬ factor < 1.0) (hle : d ≤ d') (hn : scale? d factor = some n)
    (hn' : scale? d' factor = some n') : n ≤ n' := by
  obtain ⟨q, f, t, c, p, hd, hc, hone, hp, hnear⟩ := scale?_cases hfactor hn
  obtain ⟨q', f', t', c', p', hd', hc', -, hp', hnear'⟩ := scale?_cases hfactor hn'
  have hpp : p ≤ p' := mul_mono hd.sum hd'.sum hc hone (hd.mono hd' hle) hp hp'
  -- `Nearest` leaves ties open, so equal products need their own argument
  rcases hpp.lt_or_eq with hlt | rfl
  · have hscaled : p * nanosPerSecond < p' * nanosPerSecond :=
      mul_lt_mul_of_pos_right hlt (by norm_num [nanosPerSecond])
    exact_mod_cast hnear.mono hnear' hscaled
  · have hsame : some n = some n' := hn.symm.trans ((ofSeconds?_congr hp hp').trans hn')
    exact (Option.some_inj.1 hsame).le

/-- A span below 2^23 seconds does not shrink. -/
theorem le_scale? (hfactor : ¬ factor < 1.0) (hd : d < 2 ^ 23 * nanosPerSecond)
    (hn : scale? d factor = some n) : d ≤ n := by
  obtain ⟨q, f, t, c, p, hseconds, hc, hone, hp, hnear⟩ := scale?_cases hfactor hn
  have hgrown : t ≤ p := ((rounds_mul hseconds.sum hc hone).nearest hp).le_of_mem
    hseconds.sum.mem (le_mul_of_one_le_right hseconds.sum.nonneg hone)
  have hclose := hseconds.close hd
  have hscaled : t * nanosPerSecond ≤ p * nanosPerSecond := by gcongr
  by_contra hshort
  have hmiddle := Nearest.below_middle (hnear.closest d ⟨d, rfl⟩) (Nat.cast_lt.2 (not_le.1 hshort))
  have hless : (n : ℚ) + 1 ≤ d := by exact_mod_cast not_le.1 hshort
  linarith

example : scale? (2 ^ 23 * nanosPerSecond + 10) 1.0 = some (2 ^ 23 * nanosPerSecond + 9) := by
  decide +kernel

end

/-! ## Spans that can grow -/

section

variable {d d' n : ℕ} {factor : Float} {q f t c : ℚ}

/-- A span of less than 2^64 seconds has seconds. -/
lemma exists_seconds {k : ℕ} (hk : k < 1023) (hd : d / nanosPerSecond < 2 ^ k) :
    ∃ q f t, Seconds d q f t ∧ t ≤ 2 ^ (k + 1) := by
  obtain ⟨f, hf, -, hless⟩ := reads_fraction (mod_nanosPerSecond_lt d)
  have hgreatest : ∀ {j : ℕ}, j ≤ 1023 → (2 : ℚ) ^ j ≤ 2 ^ (1023 : ℤ) := fun {j} hj => by
    exact_mod_cast pow_le_pow_right₀ (one_le_two (α := ℚ)) hj
  have hwhole : ((d / nanosPerSecond : ℕ) : ℚ) < 2 ^ k := by exact_mod_cast hd
  obtain ⟨q, hq, hnear⟩ := (rounds_ofNat (d / nanosPerSecond)).exists_reads
    (hwhole.trans_le (hgreatest hk.le))
  have hq' : q ≤ 2 ^ k := hnear.ge_of_mem (two_pow_mem k) hwhole.le
  have hone : (1 : ℚ) ≤ 2 ^ k := one_le_pow₀ one_le_two
  have hsum : q + f < 2 ^ (k + 1) := by
    rw [pow_succ]
    linarith
  obtain ⟨t, ht, hnear'⟩ := (rounds_add hq hf).exists_reads (hsum.trans_le (hgreatest hk))
  exact ⟨q, f, t, ⟨hq, hf, ht⟩, hnear'.ge_of_mem (two_pow_mem (k + 1)) hsum.le⟩

/-- A product that is not too great is a number. -/
lemma exists_product (hd : Seconds d q f t) (hc : Reads factor.toModel.unpack c) (hone : 1 ≤ c)
    (hless : t * c ≤ 2 ^ 64) : ∃ p, Reads (toSeconds d * factor).toModel.unpack p ∧
      Nearest binary64 (t * c) p :=
  (rounds_mul hd.sum hc hone).exists_reads (hless.trans_lt (by
    exact_mod_cast pow_lt_pow_right₀ (one_lt_two (α := ℚ)) (by decide : 64 < 1023)))

/-- What is shorter than a span that can grow can grow as well. -/
theorem isSome_scale?_mono (hfactor : ¬ factor < 1.0) (hle : d ≤ d')
    (h : (scale? d' factor).isSome = true) : (scale? d factor).isSome = true := by
  obtain ⟨n', hn'⟩ := Option.isSome_iff_exists.1 h
  obtain ⟨q', f', t', c, p', hd', hc, hone, hp', -⟩ := scale?_cases hfactor hn'
  have hless : p' < 2 ^ 64 := (isSome_ofSeconds?_iff hp').1 h
  have hnear := (rounds_mul hd'.sum hc hone).nearest hp'
  have hproduct : t' * c < 2 ^ 64 := by
    by_contra hgreat
    exact absurd (hnear.le_of_mem (two_pow_mem 64) (not_lt.1 hgreat)) (not_le.2 hless)
  have hseconds : t' < 2 ^ 64 :=
    (le_mul_of_one_le_right hd'.sum.nonneg hone).trans_lt hproduct
  have hwhole : d / nanosPerSecond < 2 ^ 64 := by
    refine (Nat.div_le_div_right hle).trans_lt ?_
    by_contra hgreat
    have hq' : (2 : ℚ) ^ 64 ≤ q' :=
      hd'.nearest_whole.le_of_mem (two_pow_mem 64) (by exact_mod_cast not_lt.1 hgreat)
    exact absurd (hq'.trans hd'.whole_le) (not_le.2 hseconds)
  obtain ⟨q, f, t, hd, -⟩ := exists_seconds (by decide) hwhole
  have ht : t ≤ t' := hd.mono hd' hle
  have hscaled : t * c ≤ t' * c := mul_le_mul_of_nonneg_right ht (zero_le_one.trans hone)
  obtain ⟨p, hp, -⟩ := exists_product hd hc hone (hscaled.trans hproduct.le)
  exact (isSome_ofSeconds?_iff hp).2
    ((mul_mono hd.sum hd'.sum hc hone ht hp hp').trans_lt hless)

/-- A span of 2^64 milliseconds can grow by a factor of up to 2^7. -/
theorem isSome_scale?_of_le (hc : Reads factor.toModel.unpack c) (hone : 1 ≤ c) (hfew : c ≤ 2 ^ 7)
    (hd : d ≤ ofMillis (2 ^ 64)) : (scale? d factor).isSome = true := by
  have hwhole : d / nanosPerSecond < 2 ^ 55 :=
    (Nat.div_le_div_right hd).trans_lt (by decide)
  obtain ⟨q, f, t, hseconds, ht⟩ := exists_seconds (by decide) hwhole
  have hproduct : t * c ≤ 2 ^ 63 := by
    calc t * c ≤ 2 ^ 56 * 2 ^ 7 := mul_le_mul ht hfew (zero_le_one.trans hone) (by positivity)
      _ = 2 ^ 63 := by norm_num
  obtain ⟨p, hp, hnear⟩ := exists_product hseconds hc hone (hproduct.trans (by norm_num))
  exact (isSome_ofSeconds?_iff hp).2
    ((hnear.ge_of_mem (two_pow_mem 63) hproduct).trans_lt (by norm_num))

/-- The seconds of a span are never cut to less than a quarter. -/
lemma Seconds.quarter_le (h : Seconds d q f t) : (d : ℚ) / 4 ≤ t * nanosPerSecond := by
  have hbillion : (nanosPerSecond : ℚ) = 1000000000 := by norm_num [nanosPerSecond]
  by_cases hshort : d < 2 ^ 23 * nanosPerSecond
  · rcases Nat.eq_zero_or_pos d with rfl | hpos
    · rw [Nat.cast_zero, zero_div]
      exact mul_nonneg h.sum.nonneg (by positivity)
    · have hone : (1 : ℚ) ≤ d := by exact_mod_cast hpos
      linarith [h.close hshort]
  · -- whole seconds are not rounded to less than the power of two below them
    have hwhole : d / nanosPerSecond ≠ 0 := by
      have : 2 ^ 23 ≤ d / nanosPerSecond :=
        (Nat.le_div_iff_mul_le (by decide)).2 (not_lt.1 hshort)
      omega
    have hpower : (2 : ℚ) ^ (d / nanosPerSecond).log2 ≤ q :=
      h.nearest_whole.le_of_mem (two_pow_mem _) (by exact_mod_cast Nat.log2_self_le hwhole)
    have hbelow : d < 2 ^ ((d / nanosPerSecond).log2 + 1) * nanosPerSecond :=
      (Nat.div_lt_iff_lt_mul (by decide)).1 Nat.lt_log2_self
    have hbelow : (d : ℚ) < 2 ^ ((d / nanosPerSecond).log2 + 1) * nanosPerSecond := by
      exact_mod_cast hbelow
    rw [pow_succ] at hbelow
    have hle := mul_le_mul_of_nonneg_right (hpower.trans h.whole_le)
      (by positivity : (0 : ℚ) ≤ nanosPerSecond)
    linarith

/-- A factor from 16 on at least doubles a span. -/
theorem two_mul_le_scale? (hc : Reads factor.toModel.unpack c) (hsteep : 2 ^ 4 ≤ c)
    (hfactor : ¬ factor < 1.0) (hn : scale? d factor = some n) : 2 * d ≤ n := by
  obtain ⟨q, f, t, c', p, hd, hc', hone, hp, hnear⟩ := scale?_cases hfactor hn
  obtain rfl := hc.functional hc'
  have hgrown : 2 ^ 4 * t ≤ p := by
    refine ((rounds_mul hd.sum hc hone).nearest hp).le_of_mem (two_pow_mul_mem hd.sum.mem 4) ?_
    rw [mul_comm]
    exact mul_le_mul_of_nonneg_left hsteep hd.sum.nonneg
  have hscaled : (2 ^ 4 * t) * nanosPerSecond ≤ p * nanosPerSecond := by gcongr
  have hwhole : ((2 * d : ℕ) : ℚ) ≤ n := by
    refine hnear.le_of_mem ⟨2 * d, rfl⟩ ?_
    push_cast
    linarith [hd.quarter_le, (Nat.cast_nonneg d : (0 : ℚ) ≤ d)]
  exact_mod_cast hwhole

/-- Nothing does not grow. -/
lemma scale?_zero (hfactor : ¬ factor < 1.0) (hn : scale? 0 factor = some n) : n = 0 := by
  obtain ⟨q, f, t, c, p, hd, hc, hone, hp, hnear⟩ := scale?_cases hfactor hn
  have hzero : (0 : ℚ) ∈ binary64 := ⟨0, 0, by decide, by decide, by norm_num⟩
  have hq : q ≤ 0 := hd.nearest_whole.ge_of_mem hzero (by norm_num)
  have hf : f ≤ 0 := hd.nearest_fraction.ge_of_mem hzero (by norm_num)
  have ht : t ≤ 0 := hd.nearest_sum.ge_of_mem hzero (by linarith)
  have hp' : p ≤ 0 := ((rounds_mul hd.sum hc hone).nearest hp).ge_of_mem hzero
    (mul_nonpos_of_nonpos_of_nonneg ht (zero_le_one.trans hone))
  have hnone : (n : ℚ) ≤ 0 := hnear.ge_of_mem ⟨0, Nat.cast_zero⟩
    (mul_nonpos_of_nonpos_of_nonneg hp' (by positivity))
  exact Nat.le_zero.1 (by exact_mod_cast hnone)

end

end Duration

end ReplicaRing
