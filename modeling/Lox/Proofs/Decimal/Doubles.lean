import Mathlib.Algebra.Order.Field.Rat
import Mathlib.Algebra.Order.Field.Basic
import Mathlib.Data.Nat.Digits.Defs
import Mathlib.Order.Monotone.Basic
import Mathlib.Tactic.Linarith
import Mathlib.Tactic.Positivity

namespace Lox.Decimal

/-- The word of the positive infinity. The words up to it are those of the doubles that are not
negative. -/
def infinity : ℕ := 2047 * 2 ^ 52

/-- The worth of a double in units of the smallest positive one. The bits of a word above the lower
52 are its exponent, and the lower ones its fraction, which has a one in front of it unless the
exponent is zero. The infinity is worth what the double behind the largest one would be. -/
def units (word : ℕ) : ℕ :=
  if word / 2 ^ 52 = 0 then word % 2 ^ 52
  else (2 ^ 52 + word % 2 ^ 52) * 2 ^ (word / 2 ^ 52 - 1)

/-- The value of the double with a word. -/
def magnitude (word : ℕ) : ℚ := units word / 2 ^ 1074

/-- The double with a word is the nearest one to a number, and of two that are equally near the one
whose word is even. -/
structure IsNearest (x : ℚ) (word : ℕ) : Prop where
  bounded : word ≤ infinity
  nearest : ∀ other ≤ infinity, |x - magnitude word| ≤ |x - magnitude other|
  even : ∀ other ≤ infinity, other ≠ word →
    |x - magnitude word| = |x - magnitude other| → word % 2 = 0

/-- The number that decimal digits before a point and behind it stand for. -/
def decimal (whole fraction : List Char) : ℚ :=
  (Nat.ofDigits 10 ((whole ++ fraction).reverse.map fun digit => digit.toNat - '0'.toNat) : ℕ) /
    10 ^ fraction.length

/-- A number is rounded to a double that is not negative. -/
def RoundsTo (x : ℚ) (value : Float) : Prop :=
  ∃ word : UInt64, value = Float.ofBits word ∧ IsNearest x word.toNat

/-- A word that starts a number of steps above a power of two is worth as many steps. -/
theorem units_eq {shift significand : ℕ} (low : significand ≤ 2 ^ 53)
    (high : shift = 0 ∨ 2 ^ 52 ≤ significand) :
    units (shift * 2 ^ 52 + significand) = significand * 2 ^ shift := by
  rcases Nat.lt_or_ge significand (2 ^ 52) with small | large
  · obtain rfl := high.resolve_right (Nat.not_le.2 small)
    rw [units, Nat.zero_mul, Nat.zero_add, Nat.div_eq_of_lt small, Nat.mod_eq_of_lt small]
    simp
  rcases Nat.lt_or_eq_of_le low with below | rfl
  · have field : (shift * 2 ^ 52 + significand) / 2 ^ 52 = shift + 1 := by omega
    have fraction : (shift * 2 ^ 52 + significand) % 2 ^ 52 = significand - 2 ^ 52 := by omega
    rw [units, field, fraction, if_neg (Nat.succ_ne_zero shift), Nat.add_sub_cancel' large,
      Nat.add_sub_cancel]
  · have field : (shift * 2 ^ 52 + 2 ^ 53) / 2 ^ 52 = shift + 1 + 1 := by omega
    have fraction : (shift * 2 ^ 52 + 2 ^ 53) % 2 ^ 52 = 0 := by omega
    rw [units, field, fraction, if_neg (Nat.succ_ne_zero _), Nat.add_zero, Nat.add_sub_cancel,
      Nat.pow_succ' (n := shift), ← Nat.mul_assoc]
    rfl

/-- Doubles are worth more with each word. -/
theorem units_strictMono : StrictMono units := by
  refine strictMono_nat_of_lt_succ fun word => ?_
  obtain ⟨shift, significand, rfl, below, high⟩ : ∃ shift significand,
      word = shift * 2 ^ 52 + significand ∧ significand < 2 ^ 53 ∧
        (shift = 0 ∨ 2 ^ 52 ≤ significand) := by
    rcases Nat.lt_or_ge word (2 ^ 52) with small | large
    · exact ⟨0, word, by omega, by omega, .inl rfl⟩
    · exact ⟨word / 2 ^ 52 - 1, word % 2 ^ 52 + 2 ^ 52, by omega, by omega, .inr (by omega)⟩
  rw [Nat.add_assoc, units_eq (Nat.le_of_lt below) high,
    units_eq below (high.imp_right fun large => Nat.le_succ_of_le large)]
  exact Nat.mul_lt_mul_of_pos_right (Nat.lt_succ_self significand) (Nat.two_pow_pos shift)

/-- Doubles have greater values with each word. -/
theorem magnitude_strictMono : StrictMono magnitude := fun first second less =>
  div_lt_div_of_pos_right (Nat.cast_lt.2 (units_strictMono less)) (by positivity)

/-- A number lies between two consecutive doubles, and one of them is taken. -/
structure Takes (x : ℚ) (low word : ℕ) : Prop where
  lower : magnitude low ≤ x
  upper : x < magnitude (low + 1)
  down : x - magnitude low < magnitude (low + 1) - x → word = low
  up : magnitude (low + 1) - x < x - magnitude low → word = low + 1
  even : x - magnitude low = magnitude (low + 1) - x → word = low + low % 2

section
variable {x : ℚ} {low word other : ℕ}

/-- The distance to a double that is not above a number. -/
theorem distance_below (lower : magnitude other ≤ x) :
    |x - magnitude other| = x - magnitude other :=
  abs_of_nonneg (sub_nonneg.2 lower)

/-- The distance to a double that is not below a number. -/
theorem distance_above (upper : x ≤ magnitude other) :
    |x - magnitude other| = magnitude other - x := by
  rw [abs_sub_comm]
  exact abs_of_nonneg (sub_nonneg.2 upper)

/-- Beyond the largest double the infinity is nearest. -/
theorem isNearest_infinity (beyond : magnitude infinity ≤ x) : IsNearest x infinity := by
  have below {other : ℕ} (bounded : other ≤ infinity) : magnitude other ≤ magnitude infinity :=
    magnitude_strictMono.monotone bounded
  refine ⟨Nat.le_refl _, fun other bounded => ?_, fun other bounded apart same => ?_⟩
  · rw [distance_below beyond, distance_below ((below bounded).trans beyond)]
    exact sub_le_sub_left (below bounded) x
  · rw [distance_below beyond, distance_below ((below bounded).trans beyond)] at same
    exact absurd (magnitude_strictMono.injective (sub_right_injective same)) apart.symm

/-- What is taken is the nearer one of the two neighbours. -/
theorem Takes.nearer (takes : Takes x low word) :
    word = low ∧ x - magnitude low ≤ magnitude (low + 1) - x ∨
      word = low + 1 ∧ magnitude (low + 1) - x ≤ x - magnitude low := by
  rcases lt_trichotomy (x - magnitude low) (magnitude (low + 1) - x) with less | same | more
  · exact .inl ⟨takes.down less, less.le⟩
  · have tie := takes.even same
    rcases Nat.mod_two_eq_zero_or_one low with zero | one
    · exact .inl ⟨by rw [tie, zero, Nat.add_zero], same.le⟩
    · exact .inr ⟨by rw [tie, one], same.ge⟩
  · exact .inr ⟨takes.up more, more.le⟩

/-- What is taken is as near as both neighbours, or nearer. -/
theorem Takes.distance_le (takes : Takes x low word) :
    |x - magnitude word| ≤ x - magnitude low ∧
      |x - magnitude word| ≤ magnitude (low + 1) - x := by
  rcases takes.nearer with ⟨rfl, nearer⟩ | ⟨rfl, nearer⟩
  · rw [distance_below takes.lower]
    exact ⟨le_rfl, nearer⟩
  · rw [distance_above takes.upper.le]
    exact ⟨nearer, le_rfl⟩

/-- A double is not above the lower neighbour, or not below the upper one. -/
theorem Takes.sides (takes : Takes x low word) (other : ℕ) :
    |x - magnitude other| = x - magnitude other ∧ magnitude other ≤ magnitude low ∨
      |x - magnitude other| = magnitude other - x ∧ magnitude (low + 1) ≤ magnitude other := by
  rcases Nat.lt_or_ge low other with above | below
  · have later := magnitude_strictMono.monotone above
    exact .inr ⟨distance_above (takes.upper.le.trans later), later⟩
  · have earlier := magnitude_strictMono.monotone below
    exact .inl ⟨distance_below (earlier.trans takes.lower), earlier⟩

/-- Another double is as near only if the number is in the middle of its neighbours. -/
theorem Takes.tie (takes : Takes x low word) (apart : other ≠ word)
    (same : |x - magnitude word| = |x - magnitude other|) :
    x - magnitude low = magnitude (low + 1) - x := by
  obtain ⟨fromLow, fromHigh⟩ := takes.distance_le
  rcases takes.sides other with ⟨far, earlier⟩ | ⟨far, later⟩
  · have neighbour : magnitude other = magnitude low := by linarith
    refine le_antisymm (by linarith) (le_of_not_gt fun less => apart ?_)
    rw [takes.down less]
    exact magnitude_strictMono.injective neighbour
  · have neighbour : magnitude other = magnitude (low + 1) := by linarith
    refine le_antisymm (le_of_not_gt fun more => apart ?_) (by linarith)
    rw [takes.up more]
    exact magnitude_strictMono.injective neighbour

/-- What is taken is nearest, or the infinity is. -/
theorem Takes.isNearest (takes : Takes x low word) : IsNearest x (min word infinity) := by
  have choice := takes.nearer
  rcases Nat.lt_or_ge low infinity with inside | outside
  case inr =>
    have beyond : magnitude infinity ≤ x :=
      (magnitude_strictMono.monotone outside).trans takes.lower
    have clamped : min word infinity = infinity := by
      rcases choice with ⟨rfl, -⟩ | ⟨rfl, -⟩ <;> omega
    rw [clamped]
    exact isNearest_infinity beyond
  have bounded : word ≤ infinity := by rcases choice with ⟨rfl, -⟩ | ⟨rfl, -⟩ <;> omega
  rw [Nat.min_eq_left bounded]
  obtain ⟨fromLow, fromHigh⟩ := takes.distance_le
  refine ⟨bounded, fun other _ => ?_, fun other _ apart same => ?_⟩
  · rcases takes.sides other with ⟨far, earlier⟩ | ⟨far, later⟩ <;> rw [far] <;> linarith
  · have chosen := takes.even (takes.tie apart same)
    omega

/-- A double between two others is nearer than they are, if they are equally near. -/
theorem distance_between {first second : ℕ} (above : first < word) (below : word < second)
    (same : |x - magnitude first| = |x - magnitude second|) :
    |x - magnitude word| < |x - magnitude first| := by
  have lower := magnitude_strictMono above
  have upper := magnitude_strictMono below
  have centred : x - magnitude first = magnitude second - x := by
    rcases abs_eq_abs.1 same with equal | opposite <;> linarith
  rw [abs_of_nonneg (a := x - magnitude first) (by linarith)]
  exact abs_lt.2 ⟨by linarith, by linarith⟩

/-- No double with a greater word is nearest, too. -/
theorem IsNearest.not_lt {first second : ℕ} (left : IsNearest x first)
    (right : IsNearest x second) : ¬ first < second := by
  intro less
  have same : |x - magnitude first| = |x - magnitude second| :=
    le_antisymm (left.nearest second right.bounded) (right.nearest first left.bounded)
  have one := left.even second right.bounded less.ne' same
  have other := right.even first left.bounded less.ne same.symm
  have between : first + 1 < second := by omega
  have nearer := distance_between (Nat.lt_succ_self first) between same
  exact absurd (left.nearest _ (between.le.trans right.bounded)) (not_le.2 nearer)

/-- One double only is nearest. -/
theorem IsNearest.unique {first second : ℕ} (left : IsNearest x first)
    (right : IsNearest x second) : first = second :=
  Nat.le_antisymm (Nat.le_of_not_lt (right.not_lt left)) (Nat.le_of_not_lt (left.not_lt right))

/-- A number is rounded to one double only. -/
theorem RoundsTo.unique {first second : Float} (left : RoundsTo x first)
    (right : RoundsTo x second) : first = second := by
  obtain ⟨word, rfl, nearest⟩ := left
  obtain ⟨other, rfl, also⟩ := right
  rw [UInt64.toNat_inj.1 (nearest.unique also)]

end

end Lox.Decimal
