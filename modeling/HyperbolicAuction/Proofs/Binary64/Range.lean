import HyperbolicAuction.Proofs.Binary64.Arithmetic

/-!
# Ranges between powers of two

`Within low high` holds of the values from `2 ^ low` to `2 ^ high` units, and `UpTo high` of those
from zero on. Powers of two are on the grid, so the range of a result follows from the ranges of the
operands by adding and subtracting exponents: no rounding has to be looked at. Below `2 ^ 2098` units
a value is finite.
-/

namespace HyperbolicAuction.Binary64

/-- The values from `2 ^ low` to `2 ^ high` units. -/
structure Within (low high : Nat) (value : Binary64) : Prop where
  lower : ((2 ^ low : Nat) : Int) ≤ value.position
  upper : value.position ≤ ((2 ^ high : Nat) : Int)

/-- The values from zero to `2 ^ high` units. -/
structure UpTo (high : Nat) (value : Binary64) : Prop where
  nonneg : 0 ≤ value
  upper : value.position ≤ ((2 ^ high : Nat) : Int)

theorem two_pow_lt_overflowLimit {exponent : Nat} (low : exponent < 2098) :
    2 ^ exponent < overflowLimit := by
  have raised := Nat.pow_lt_pow_right Nat.one_lt_two low
  rwa [overflowLimit]

theorem unitsPerOne_eq_two_pow {exponent : Nat} (equal : exponent = 1074) :
    unitsPerOne = 2 ^ exponent := by
  rw [unitsPerOne, equal]

theorem two_pow_le_two_pow {low high : Nat} (ordered : low ≤ high) :
    ((2 ^ low : Nat) : Int) ≤ ((2 ^ high : Nat) : Int) :=
  Int.ofNat_le.2 (Nat.pow_le_pow_right (by decide) ordered)

namespace Within

variable {low high : Nat} {value : Binary64}

theorem pos (within : Within low high value) : 0 < value.position :=
  Int.lt_of_lt_of_le (Int.natCast_pos.2 (Nat.two_pow_pos low)) within.lower

theorem ne_nan (within : Within low high value) : value ≠ nan := ne_nan_of_pos within.pos

theorem isFinite (within : Within low high value) (bounded : high < 2098) :
    value.isFinite = true := by
  have limit := two_pow_lt_overflowLimit bounded
  have positive := within.pos
  have upper := within.upper
  exact isFinite_iff.2 ⟨within.ne_nan, by omega⟩

theorem isUsable (within : Within low high value) (bounded : high < 2098) :
    Scalar.isUsable value = true := by
  have limit := two_pow_lt_overflowLimit bounded
  have upper := within.upper
  exact isUsable_iff.2 ⟨within.ne_nan, within.pos, by omega⟩

theorem nonneg (within : Within low high value) : 0 ≤ value :=
  le_iff.2 ⟨zero_ne_nan, within.ne_nan, Int.le_of_lt within.pos⟩

theorem upTo (within : Within low high value) : UpTo high value := ⟨within.nonneg, within.upper⟩

theorem mono {low' high' : Nat} (within : Within low high value) (lower : low' ≤ low)
    (upper : high ≤ high') : Within low' high' value :=
  ⟨Int.le_trans (two_pow_le_two_pow lower) within.lower,
    Int.le_trans within.upper (two_pow_le_two_pow upper)⟩

/-- Whatever is usable is at least one unit. -/
theorem of_upTo (upTo : UpTo high value) (positive : 0 < value.position) : Within 0 high value :=
  ⟨by rw [Nat.pow_zero]; omega, upTo.upper⟩

end Within

/-! ## Values from zero on -/

variable {low high : Nat} {value : Binary64}

theorem UpTo.isFinite (upTo : UpTo high value) (bounded : high < 2098) : value.isFinite = true := by
  have limit := two_pow_lt_overflowLimit bounded
  have lower := le_iff.1 upTo.nonneg
  have upper := upTo.upper
  rw [position_zero] at lower
  exact isFinite_iff.2 ⟨lower.2.1, by omega⟩

theorem UpTo.mono {high' : Nat} (upTo : UpTo high value) (upper : high ≤ high') :
    UpTo high' value :=
  ⟨upTo.nonneg, Int.le_trans upTo.upper (two_pow_le_two_pow upper)⟩

theorem upTo_of_isZero (high : Nat) (zero : Scalar.isZero value = true) : UpTo high value := by
  rw [isZero_iff] at zero
  refine ⟨le_iff.2 ⟨zero_ne_nan, zero.1, Int.le_of_eq ?_⟩, ?_⟩
  · rw [zero.2, position_zero]
  · rw [zero.2]
    exact Int.natCast_nonneg _

/-- A value up to a bound is zero or at least one unit. -/
theorem UpTo.isZero_or_within (upTo : UpTo high value) :
    Scalar.isZero value = true ∨ Within 0 high value := by
  cases zero : Scalar.isZero value with
  | true => exact .inl rfl
  | false => exact .inr (.of_upTo upTo (pos_of_nonneg_of_not_isZero upTo.nonneg zero))

/-! ## Results -/

theorem natAbs_two_pow_onGrid (exponent : Nat) :
    IsOnGrid ((2 ^ exponent : Nat) : Int).natAbs := by
  rw [Int.natAbs_natCast]
  exact isOnGrid_two_pow exponent

theorem natAbs_two_pow_limited {exponent : Nat} (limited : exponent ≤ 2098) :
    ((2 ^ exponent : Nat) : Int).natAbs ≤ overflowLimit := by
  rw [Int.natAbs_natCast]
  exact two_pow_le_overflowLimit limited

theorem within_ofUnits {numerator denominator : Nat} (positive : 0 < denominator)
    (lower : 2 ^ low * denominator ≤ numerator) (upper : numerator ≤ 2 ^ high * denominator)
    (ordered : low ≤ high) (limited : high ≤ 2098) :
    Within low high (ofUnits false numerator denominator) := by
  constructor
  · refine le_position_ofUnits positive (natAbs_two_pow_onGrid low)
      (natAbs_two_pow_limited (Nat.le_trans ordered limited)) ?_
    rw [signedUnits_false, ← Int.natCast_mul]
    exact Int.ofNat_le.2 lower
  · refine position_ofUnits_le positive (natAbs_two_pow_onGrid high)
      (natAbs_two_pow_limited limited) ?_
    rw [signedUnits_false, ← Int.natCast_mul]
    exact Int.ofNat_le.2 upper

theorem Within.mul {leftLow leftHigh rightLow rightHigh : Nat} {left right : Binary64}
    (leftWithin : Within leftLow leftHigh left) (rightWithin : Within rightLow rightHigh right)
    (leftBounded : leftHigh < 2098) (rightBounded : rightHigh < 2098)
    (lower : low + 1074 ≤ leftLow + rightLow) (upper : leftHigh + rightHigh ≤ high + 1074)
    (ordered : low ≤ high) (limited : high ≤ 2098) : Within low high (left * right) := by
  obtain ⟨unitExponent, unit⟩ : ∃ exponent, exponent = 1074 := ⟨_, rfl⟩
  rw [← unit] at lower upper
  constructor
  · refine (le_position_mul leftWithin.pos rightWithin.pos (natAbs_two_pow_onGrid low)
      (natAbs_two_pow_limited (Nat.le_trans ordered limited)) ?_).2
    rw [unitsPerOne_eq_two_pow unit]
    calc ((2 ^ low : Nat) : Int) * ((2 ^ unitExponent : Nat) : Int)
        = ((2 ^ (low + unitExponent) : Nat) : Int) := by rw [← Int.natCast_mul, ← Nat.pow_add]
      _ ≤ ((2 ^ (leftLow + rightLow) : Nat) : Int) := two_pow_le_two_pow lower
      _ = ((2 ^ leftLow : Nat) : Int) * ((2 ^ rightLow : Nat) : Int) := by
        rw [← Int.natCast_mul, ← Nat.pow_add]
      _ ≤ left.position * right.position := Int.mul_le_mul leftWithin.lower rightWithin.lower
        (Int.natCast_nonneg _) (Int.le_of_lt leftWithin.pos)
  · refine position_mul_le leftWithin.pos rightWithin.pos (leftWithin.isFinite leftBounded)
      (rightWithin.isFinite rightBounded) (natAbs_two_pow_onGrid high)
      (natAbs_two_pow_limited limited) ?_
    rw [unitsPerOne_eq_two_pow unit]
    calc left.position * right.position
        ≤ ((2 ^ leftHigh : Nat) : Int) * ((2 ^ rightHigh : Nat) : Int) :=
          Int.mul_le_mul leftWithin.upper rightWithin.upper (Int.le_of_lt rightWithin.pos)
            (Int.natCast_nonneg _)
      _ = ((2 ^ (leftHigh + rightHigh) : Nat) : Int) := by rw [← Int.natCast_mul, ← Nat.pow_add]
      _ ≤ ((2 ^ (high + unitExponent) : Nat) : Int) := two_pow_le_two_pow upper
      _ = ((2 ^ high : Nat) : Int) * ((2 ^ unitExponent : Nat) : Int) := by
        rw [← Int.natCast_mul, ← Nat.pow_add]

theorem Within.div_upper {leftLow leftHigh rightLow rightHigh : Nat} {left right : Binary64}
    (leftWithin : Within leftLow leftHigh left) (rightWithin : Within rightLow rightHigh right)
    (leftBounded : leftHigh < 2098) (rightBounded : rightHigh < 2098)
    (upper : leftHigh + 1074 ≤ high + rightLow) (limited : high ≤ 2098) :
    (left / right).position ≤ ((2 ^ high : Nat) : Int) := by
  obtain ⟨unitExponent, unit⟩ : ∃ exponent, exponent = 1074 := ⟨_, rfl⟩
  rw [← unit] at upper
  refine position_div_le leftWithin.pos rightWithin.pos (leftWithin.isFinite leftBounded)
    (rightWithin.isFinite rightBounded) (natAbs_two_pow_onGrid high)
    (natAbs_two_pow_limited limited) ?_
  rw [unitsPerOne_eq_two_pow unit]
  calc left.position * ((2 ^ unitExponent : Nat) : Int)
      ≤ ((2 ^ leftHigh : Nat) : Int) * ((2 ^ unitExponent : Nat) : Int) :=
        Int.mul_le_mul_of_nonneg_right leftWithin.upper (Int.natCast_nonneg _)
    _ = ((2 ^ (leftHigh + unitExponent) : Nat) : Int) := by
      rw [← Int.natCast_mul, ← Nat.pow_add]
    _ ≤ ((2 ^ (high + rightLow) : Nat) : Int) := two_pow_le_two_pow upper
    _ = ((2 ^ high : Nat) : Int) * ((2 ^ rightLow : Nat) : Int) := by
      rw [← Int.natCast_mul, ← Nat.pow_add]
    _ ≤ ((2 ^ high : Nat) : Int) * right.position :=
      Int.mul_le_mul_of_nonneg_left rightWithin.lower (Int.natCast_nonneg _)

theorem Within.div {leftLow leftHigh rightLow rightHigh : Nat} {left right : Binary64}
    (leftWithin : Within leftLow leftHigh left) (rightWithin : Within rightLow rightHigh right)
    (leftBounded : leftHigh < 2098) (rightBounded : rightHigh < 2098)
    (lower : low + rightHigh ≤ leftLow + 1074) (upper : leftHigh + 1074 ≤ high + rightLow)
    (ordered : low ≤ high) (limited : high ≤ 2098) : Within low high (left / right) := by
  refine ⟨?_, leftWithin.div_upper rightWithin leftBounded rightBounded upper limited⟩
  obtain ⟨unitExponent, unit⟩ : ∃ exponent, exponent = 1074 := ⟨_, rfl⟩
  rw [← unit] at lower
  refine le_position_div leftWithin.pos rightWithin.pos (leftWithin.isFinite leftBounded)
    (rightWithin.isFinite rightBounded) (natAbs_two_pow_onGrid low)
    (natAbs_two_pow_limited (Nat.le_trans ordered limited)) ?_
  rw [unitsPerOne_eq_two_pow unit]
  calc ((2 ^ low : Nat) : Int) * right.position
      ≤ ((2 ^ low : Nat) : Int) * ((2 ^ rightHigh : Nat) : Int) :=
        Int.mul_le_mul_of_nonneg_left rightWithin.upper (Int.natCast_nonneg _)
    _ = ((2 ^ (low + rightHigh) : Nat) : Int) := by rw [← Int.natCast_mul, ← Nat.pow_add]
    _ ≤ ((2 ^ (leftLow + unitExponent) : Nat) : Int) := two_pow_le_two_pow lower
    _ = ((2 ^ leftLow : Nat) : Int) * ((2 ^ unitExponent : Nat) : Int) := by
      rw [← Int.natCast_mul, ← Nat.pow_add]
    _ ≤ left.position * ((2 ^ unitExponent : Nat) : Int) :=
      Int.mul_le_mul_of_nonneg_right leftWithin.lower (Int.natCast_nonneg _)

/-- A difference is at most what it is taken from, if nothing negative is taken. -/
theorem sub_upper {left right : Binary64} (leftFinite : left.isFinite = true)
    (leftUpper : left.position ≤ ((2 ^ high : Nat) : Int)) (rightFinite : right.isFinite = true)
    (rightNonneg : 0 ≤ right) (limited : high ≤ 2098) :
    left - right ≠ nan ∧ (left - right).position ≤ ((2 ^ high : Nat) : Int) := by
  have taken := (le_iff.1 rightNonneg).2.2
  have negated := position_neg right
  rw [position_zero] at taken
  rw [sub_eq_add_neg]
  refine ⟨add_ne_nan leftFinite (neg_ne_nan (isFinite_iff.1 rightFinite).1), ?_⟩
  exact position_add_le leftFinite ((isFinite_neg right).trans rightFinite)
    (natAbs_two_pow_onGrid high) (natAbs_two_pow_limited limited) (by omega)

/-- The larger of a value up to a bound and one within it is within it. -/
theorem Within.larger {first second : Binary64} (firstUpTo : UpTo high first)
    (secondWithin : Within low high second) : Within low high (Scalar.larger first second) := by
  have number := (ne_nan_of_le firstUpTo.nonneg).2
  have position := position_larger number secondWithin.ne_nan
  have lower := secondWithin.lower
  have upper := secondWithin.upper
  have firstUpper := firstUpTo.upper
  exact ⟨by omega, by omega⟩

theorem within_ofQuotient {numerator denominator leftLow leftHigh rightLow rightHigh : Nat}
    (leftLower : 2 ^ leftLow ≤ numerator) (leftUpper : numerator ≤ 2 ^ leftHigh)
    (rightLower : 2 ^ rightLow ≤ denominator) (rightUpper : denominator ≤ 2 ^ rightHigh)
    (lower : low + rightHigh ≤ leftLow + 1074) (upper : leftHigh + 1074 ≤ high + rightLow)
    (ordered : low ≤ high) (limited : high ≤ 2098) :
    Within low high (ofQuotient false numerator denominator) := by
  obtain ⟨unitExponent, unit⟩ : ∃ exponent, exponent = 1074 := ⟨_, rfl⟩
  rw [← unit] at lower upper
  rw [ofQuotient, unitsPerOne_eq_two_pow unit]
  refine within_ofUnits (Nat.lt_of_lt_of_le (Nat.two_pow_pos _) rightLower) ?_ ?_ ordered limited
  · calc 2 ^ low * denominator ≤ 2 ^ low * 2 ^ rightHigh := Nat.mul_le_mul_left _ rightUpper
      _ = 2 ^ (low + rightHigh) := (Nat.pow_add ..).symm
      _ ≤ 2 ^ (leftLow + unitExponent) := Nat.pow_le_pow_right (by decide) lower
      _ = 2 ^ leftLow * 2 ^ unitExponent := Nat.pow_add ..
      _ ≤ numerator * 2 ^ unitExponent := Nat.mul_le_mul_right _ leftLower
  · calc numerator * 2 ^ unitExponent ≤ 2 ^ leftHigh * 2 ^ unitExponent :=
          Nat.mul_le_mul_right _ leftUpper
      _ = 2 ^ (leftHigh + unitExponent) := (Nat.pow_add ..).symm
      _ ≤ 2 ^ (high + rightLow) := Nat.pow_le_pow_right (by decide) upper
      _ = 2 ^ high * 2 ^ rightLow := Nat.pow_add ..
      _ ≤ 2 ^ high * denominator := Nat.mul_le_mul_left _ rightLower

theorem within_one : Within 1074 1074 (1 : Binary64) := by
  have one : (1 : Binary64).position = ((2 ^ 1074 : Nat) : Int) := by
    rw [position_one, unitsPerOne_eq_two_pow rfl]
  exact ⟨Int.le_of_eq one.symm, Int.le_of_eq one⟩

/-- The least divisor lies between `2 ^ -30` and one. -/
theorem within_epsilon : Within 1044 1074 (Scalar.epsilon : Binary64) := by
  have numerator : 2 ^ 0 ≤ 1 ∧ 1 ≤ 2 ^ 0 := by decide
  have denominator : 2 ^ 0 ≤ 10 ^ 9 ∧ 10 ^ 9 ≤ 2 ^ 30 := by decide
  exact within_ofQuotient numerator.1 numerator.2 denominator.1 denominator.2 (by decide)
    (by decide) (by decide) (by decide)

/-! ## Products with one -/

attribute [local irreducible] unitsPerOne

theorem one_eq_finite : ∃ representable, (1 : Binary64) = finite false unitsPerOne representable := by
  obtain ⟨units, representable, one⟩ :=
    finite_of_pos within_one.pos (within_one.isFinite (by decide))
  have position := position_one
  rw [one, position_finite, signedUnits_false] at position
  obtain rfl := Int.ofNat.inj position
  exact ⟨representable, one⟩

/-- A product with one is exact. -/
theorem mul_one_eq (value : Binary64) : value * 1 = value := by
  obtain ⟨oneRepresentable, one⟩ := one_eq_finite
  rw [one]
  cases value with
  | nan => rfl
  | infinity negative =>
    change mul _ _ = _
    rw [mul, if_neg (Nat.ne_of_gt unitsPerOne_pos), Bool.bne_false]
  | finite negative units representable =>
    rw [finite_mul_finite, Bool.bne_false]
    exact ofUnits_mul_eq_finite negative unitsPerOne_pos representable

end HyperbolicAuction.Binary64
