import Mathlib.Algebra.Order.Field.Power
import Mathlib.Tactic.FieldSimp
import Mathlib.Tactic.Ring
import Lox.Number
import Lox.Proofs.Decimal.Doubles

namespace Lox.Decimal

/-- The exponent that a fraction is rounded at leaves at most 53 bits before the point, and exactly
53 of them unless the exponent is that of the smallest double. -/
structure Scale (x : ℚ) (exponent : ℤ) : Prop where
  least : -1074 ≤ exponent
  below : x / 2 ^ exponent < 2 ^ 53
  normal : exponent = -1074 ∨ 2 ^ 52 ≤ x / 2 ^ exponent

section
variable {numerator denominator top bottom : ℕ} {x : ℚ} {exponent : ℤ}

/-- A scaled fraction has a positive denominator. -/
theorem scaled_pos (positive : 0 < denominator) (exponent : ℤ) :
    0 < (scaled numerator denominator exponent).2 :=
  Nat.mul_pos positive (Nat.two_pow_pos _)

/-- A scaled fraction is the fraction divided by the power of two. -/
theorem scaled_ratio (numerator denominator : ℕ) (exponent : ℤ) :
    ((scaled numerator denominator exponent).1 : ℚ) / (scaled numerator denominator exponent).2 =
      numerator / denominator / 2 ^ exponent := by
  obtain ⟨shift, rfl | rfl⟩ := exponent.eq_nat_or_neg
  · simp [scaled, div_div]
  · simp [scaled, div_eq_mul_inv, mul_right_comm]

/-- A quotient of integers is below an integer when the fraction is. -/
theorem quotient_lt_iff {limit : ℕ} (positive : 0 < bottom) :
    top / bottom < limit ↔ (top : ℚ) / bottom < limit := by
  rw [div_lt_iff₀ (Nat.cast_pos.2 positive), ← Nat.cast_mul, Nat.cast_lt,
    Nat.div_lt_iff_lt_mul positive]

/-- A number lies between the powers of two of its leading bit and of the next one. -/
theorem log2_bounds {n : ℕ} (positive : 0 < n) :
    (2 : ℚ) ^ (n.log2 : ℤ) ≤ n ∧ (n : ℚ) < 2 ^ ((n.log2 : ℤ) + 1) := by
  constructor
  · exact_mod_cast Nat.log2_self_le positive.ne'
  · exact_mod_cast Nat.lt_log2_self

/-- The leading bits of a fraction tell its size up to a factor of two. -/
theorem ratio_bounds (some : 0 < numerator) (positive : 0 < denominator) :
    (2 : ℚ) ^ ((numerator.log2 : ℤ) - denominator.log2 - 1) < numerator / denominator ∧
      (numerator : ℚ) / denominator < 2 ^ ((numerator.log2 : ℤ) - denominator.log2 + 1) := by
  obtain ⟨topLow, topHigh⟩ := log2_bounds some
  obtain ⟨bottomLow, bottomHigh⟩ := log2_bounds positive
  have dividend : (0 : ℚ) < numerator := Nat.cast_pos.2 some
  have divisor : (0 : ℚ) < denominator := Nat.cast_pos.2 positive
  constructor
  · calc (2 : ℚ) ^ ((numerator.log2 : ℤ) - denominator.log2 - 1)
        = 2 ^ (numerator.log2 : ℤ) / 2 ^ ((denominator.log2 : ℤ) + 1) := by
          rw [← zpow_sub₀ two_ne_zero, sub_sub]
      _ ≤ numerator / 2 ^ ((denominator.log2 : ℤ) + 1) := by gcongr
      _ < numerator / denominator := by gcongr
  · calc (numerator : ℚ) / denominator
        < 2 ^ ((numerator.log2 : ℤ) + 1) / denominator := by gcongr
      _ ≤ 2 ^ ((numerator.log2 : ℤ) + 1) / 2 ^ (denominator.log2 : ℤ) := by gcongr
      _ = 2 ^ ((numerator.log2 : ℤ) - denominator.log2 + 1) := by
          rw [← zpow_sub₀ two_ne_zero, sub_add_eq_add_sub]

/-- A number below a power of two is a small multiple of a lower one. -/
theorem ratio_lt {bits : ℕ} {size : ℤ} (below : x < 2 ^ size) (large : size ≤ exponent + bits) :
    x / 2 ^ exponent < 2 ^ bits := by
  rw [div_lt_iff₀ (by positivity), ← zpow_natCast, ← zpow_add₀ two_ne_zero, add_comm]
  exact below.trans_le (zpow_le_zpow_right₀ one_le_two large)

/-- A number above a power of two is a large multiple of a lower one. -/
theorem le_ratio {bits : ℕ} {size : ℤ} (above : 2 ^ size < x) (small : exponent + bits ≤ size) :
    2 ^ bits ≤ x / 2 ^ exponent := by
  rw [le_div_iff₀ (by positivity), ← zpow_natCast, ← zpow_add₀ two_ne_zero, add_comm]
  exact (zpow_le_zpow_right₀ one_le_two small).trans above.le

/-- The exponent for a fraction suits it. -/
theorem exponentOf_scale (some : 0 < numerator) (positive : 0 < denominator) :
    Scale (numerator / denominator) (exponentOf numerator denominator) := by
  obtain ⟨above, below⟩ := ratio_bounds some positive
  have test (exponent : ℤ) :
      (scaled numerator denominator exponent).1 / (scaled numerator denominator exponent).2 <
          Nat.pow 2 fractionBits ↔
        (numerator : ℚ) / denominator / 2 ^ exponent < 2 ^ 52 := by
    rw [quotient_lt_iff (scaled_pos positive exponent), scaled_ratio]
    exact_mod_cast Iff.rfl
  unfold exponentOf
  generalize (numerator.log2 : ℤ) - denominator.log2 = gap at above below ⊢
  have guesses : max minExponent (gap - (fractionBits : ℤ)) = -1074 ∧ gap - 52 ≤ -1074 ∨
      max minExponent (gap - (fractionBits : ℤ)) = gap - 52 ∧ -1074 < gap - 52 := by
    simp only [minExponent, fractionBits]
    omega
  generalize max minExponent (gap - (fractionBits : ℤ)) = guess at guesses ⊢
  have within : (numerator : ℚ) / denominator / 2 ^ guess < 2 ^ 53 :=
    ratio_lt below (by omega)
  simp only [test, minExponent]
  split
  next few =>
    rcases guesses with ⟨rfl, -⟩ | ⟨rfl, lower⟩
    · exact ⟨le_rfl, within, .inl rfl⟩
    · -- One more bit fits, since there are less than 53 of them.
      have enough : (2 : ℚ) ^ 52 ≤ numerator / denominator / 2 ^ (gap - 52 - 1) :=
        le_ratio above (by omega)
      rw [max_eq_right (by omega)]
      refine ⟨by omega, ?_, .inr enough⟩
      rw [zpow_sub_one₀ two_ne_zero, div_mul_eq_div_div, div_inv_eq_mul]
      linarith
  next many => exact ⟨by omega, within, .inr (le_of_not_gt many)⟩

/-- A quotient is rounded down, up or, in the middle, to the even neighbour. -/
theorem divideToEven_cases (top bottom : ℕ) :
    (2 * (top % bottom) < bottom → divideToEven top bottom = top / bottom) ∧
    (bottom < 2 * (top % bottom) → divideToEven top bottom = top / bottom + 1) ∧
    (2 * (top % bottom) = bottom →
      divideToEven top bottom = top / bottom + top / bottom % 2) := by
  refine ⟨fun less => ?_, fun more => ?_, fun same => ?_⟩
  · rw [divideToEven, if_pos less]
  · rw [divideToEven, if_neg (Nat.lt_asymm more), if_pos more]
  · rw [divideToEven, if_neg (Nat.not_lt.2 same.ge), if_neg (Nat.not_lt.2 same.le)]

/-- A fraction is its quotient and the rest. -/
theorem fraction_eq (positive : 0 < bottom) :
    (top : ℚ) / bottom = (top / bottom : ℕ) + (top % bottom : ℕ) / bottom := by
  have divisor : (bottom : ℚ) ≠ 0 := Nat.cast_ne_zero.2 positive.ne'
  have parts : (bottom : ℚ) * (top / bottom : ℕ) + (top % bottom : ℕ) = top := by
    exact_mod_cast Nat.div_add_mod top bottom
  rw [← parts]
  field_simp

/-- A double has as many units as its significand says at its exponent. -/
theorem magnitude_eq {shift significand : ℕ} (low : significand ≤ 2 ^ 53)
    (high : shift = 0 ∨ 2 ^ 52 ≤ significand) :
    magnitude (shift * 2 ^ 52 + significand) = significand * 2 ^ ((shift : ℤ) - 1074) := by
  rw [magnitude, units_eq low high, Nat.cast_mul, Nat.cast_pow, Nat.cast_ofNat,
    zpow_sub₀ two_ne_zero, zpow_natCast, zpow_ofNat, mul_div_assoc]

/-- Twice the rest of a fraction compares with one as twice the remainder does with the divisor. -/
theorem twice_rest (top : ℕ) (positive : 0 < bottom) :
    (2 * ((top % bottom : ℕ) / bottom : ℚ) < 1 → 2 * (top % bottom) < bottom) ∧
    (1 < 2 * ((top % bottom : ℕ) / bottom : ℚ) → bottom < 2 * (top % bottom)) ∧
    (2 * ((top % bottom : ℕ) / bottom : ℚ) = 1 → 2 * (top % bottom) = bottom) := by
  have divisor : (0 : ℚ) < bottom := Nat.cast_pos.2 positive
  rw [← mul_div_assoc]
  refine ⟨fun less => ?_, fun more => ?_, fun same => ?_⟩
  · exact_mod_cast (div_lt_one divisor).1 less
  · exact_mod_cast (one_lt_div divisor).1 more
  · exact_mod_cast (div_eq_one_iff_eq divisor.ne').1 same

/-- The rounded quotient gives the word that is taken. -/
theorem takes_divideToEven {shift : ℕ} (positive : 0 < bottom) (below : top / bottom < 2 ^ 53)
    (high : shift = 0 ∨ 2 ^ 52 ≤ top / bottom) :
    Takes ((top : ℚ) / bottom * 2 ^ ((shift : ℤ) - 1074)) (shift * 2 ^ 52 + top / bottom)
      (shift * 2 ^ 52 + divideToEven top bottom) := by
  obtain ⟨down, up, even⟩ := divideToEven_cases top bottom
  obtain ⟨less, more, same⟩ := twice_rest top positive
  have lower := magnitude_eq below.le high
  have upper := magnitude_eq (Nat.succ_le_of_lt below) (high.imp_right Nat.le_succ_of_le)
  rw [Nat.succ_eq_add_one, ← Nat.add_assoc, Nat.cast_add, Nat.cast_one] at upper
  have rest : (0 : ℚ) ≤ (top % bottom : ℕ) / bottom ∧ ((top % bottom : ℕ) / bottom : ℚ) < 1 :=
    ⟨by positivity, (div_lt_one (Nat.cast_pos.2 positive)).2 (Nat.cast_lt.2 (Nat.mod_lt _ positive))⟩
  have some : (0 : ℚ) < 2 ^ ((shift : ℤ) - 1074) := by positivity
  rw [fraction_eq positive]
  generalize ((top % bottom : ℕ) / bottom : ℚ) = part at *
  generalize (2 : ℚ) ^ ((shift : ℤ) - 1074) = unit at *
  have before (quotient : ℚ) : (quotient + part) * unit - quotient * unit = part * unit := by ring
  have behind (quotient : ℚ) :
      (quotient + 1) * unit - (quotient + part) * unit = (1 - part) * unit := by ring
  refine ⟨?_, ?_, fun nearer => ?_, fun farther => ?_, fun tie => ?_⟩
  · rw [lower]
    exact mul_le_mul_of_nonneg_right (le_add_of_nonneg_right rest.1) some.le
  · rw [upper]
    exact mul_lt_mul_of_pos_right (add_lt_add_right rest.2 _) some
  · rw [lower, upper, before, behind] at nearer
    have closer := lt_of_mul_lt_mul_right nearer some.le
    rw [down (less (by linarith))]
  · rw [lower, upper, before, behind] at farther
    have closer := lt_of_mul_lt_mul_right farther some.le
    rw [up (more (by linarith)), Nat.add_assoc]
  · rw [lower, upper, before, behind] at tie
    have equal := mul_right_cancel₀ some.ne' tie
    rw [even (same (by linarith))]
    omega

/-- The bits of zero are zero. -/
theorem nearestBits_zero (positive : 0 < denominator) : nearestBits 0 denominator = 0 := by
  have none (exponent : ℤ) : (scaled 0 denominator exponent).1 = 0 := Nat.zero_mul _
  have down (bottom : ℕ) (some : 0 < bottom) : divideToEven 0 bottom = 0 := by
    rw [(divideToEven_cases 0 bottom).1 (by rwa [Nat.zero_mod]), Nat.zero_div]
  simp only [nearestBits, none, down _ (scaled_pos positive _)]
  rfl

/-- The bits of the significand and of the exponent make the word. -/
theorem word_eq {shift quotient significand : ℕ} (high : shift = 0 ∨ 2 ^ 52 ≤ quotient)
    (rounded : quotient ≤ significand) :
    (if significand < 2 ^ 52 then significand
      else (shift + 1) * 2 ^ 52 + (significand - 2 ^ 52)) = shift * 2 ^ 52 + significand := by
  split <;> omega

/-- Rounding never goes below the quotient. -/
theorem le_divideToEven (top bottom : ℕ) : top / bottom ≤ divideToEven top bottom := by
  simp only [divideToEven]
  split
  · exact Nat.le_refl _
  · split <;> omega

/-- The bits are those of the double that is nearest to the fraction. -/
theorem nearestBits_isNearest (numerator : ℕ) (positive : 0 < denominator) :
    IsNearest (numerator / denominator) (nearestBits numerator denominator) := by
  rcases Nat.eq_zero_or_pos numerator with rfl | some
  · have takes : Takes ((0 : ℕ) / (1 : ℕ) * 2 ^ (((0 : ℕ) : ℤ) - 1074))
        (0 * 2 ^ 52 + 0 / 1) (0 * 2 ^ 52 + divideToEven 0 1) :=
      takes_divideToEven Nat.one_pos (by omega) (.inl rfl)
    rw [nearestBits_zero positive]
    simpa [divideToEven] using takes.isNearest
  obtain ⟨least, below, normal⟩ := exponentOf_scale some positive
  obtain ⟨shift, same⟩ : ∃ shift : ℕ, exponentOf numerator denominator = shift - 1074 :=
    ⟨(exponentOf numerator denominator + 1074).toNat, by omega⟩
  have ratio := scaled_ratio numerator denominator ((shift : ℤ) - 1074)
  have divisor : 0 < (scaled numerator denominator ((shift : ℤ) - 1074)).2 := scaled_pos positive _
  simp only [nearestBits, same] at below normal ⊢
  generalize (scaled numerator denominator ((shift : ℤ) - 1074)).1 = top at ratio ⊢
  generalize (scaled numerator denominator ((shift : ℤ) - 1074)).2 = bottom at ratio divisor ⊢
  rw [← ratio] at below normal
  have few : top / bottom < 2 ^ 53 := (quotient_lt_iff divisor).2 (by exact_mod_cast below)
  have high : shift = 0 ∨ 2 ^ 52 ≤ top / bottom := by
    refine normal.imp (by omega) fun many => ?_
    rw [← Nat.not_lt, quotient_lt_iff divisor, not_lt]
    exact_mod_cast many
  have takes := takes_divideToEven divisor few high
  rw [ratio, div_mul_cancel₀ _ (zpow_ne_zero _ two_ne_zero), ← word_eq high (le_divideToEven _ _)]
    at takes
  have field : ((shift : ℤ) - 1074 - minExponent).toNat = shift := by
    rw [minExponent]
    omega
  rw [field]
  exact takes.isNearest

end

/-- The digits of a number are read from left to right. -/
theorem digitsValue_eq (digits : List Char) :
    Number.digitsValue digits =
      Nat.ofDigits 10 (digits.reverse.map fun digit => digit.toNat - '0'.toNat) := by
  rw [Number.digitsValue, Nat.ofDigits_eq_foldr, List.foldr_map, List.foldr_reverse]
  exact congrArg (fun step => digits.foldl step 0) (funext₂ fun value digit => Nat.add_comm _ _)

/-- The double for some digits is the nearest one to the number that they stand for. -/
theorem ofDigits_roundsTo (whole fraction : List Char) :
    RoundsTo (decimal whole fraction) (Number.ofDigits whole fraction) := by
  have nearest := nearestBits_isNearest (Number.digitsValue (whole ++ fraction))
    (Nat.pow_pos (n := fraction.length) (show 0 < 10 by omega))
  refine ⟨_, rfl, ?_⟩
  have narrow : nearestBits (Number.digitsValue (whole ++ fraction)) (10 ^ fraction.length) <
      UInt64.size := Nat.lt_of_le_of_lt nearest.bounded (by decide)
  rw [decimal, ← digitsValue_eq, ← Nat.cast_ofNat, ← Nat.cast_pow]
  exact (UInt64.toNat_ofNat_of_lt' narrow).symm ▸ nearest

end Lox.Decimal
