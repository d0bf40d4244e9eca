import HyperbolicAuction.Proofs.Binary64.Monotone
import HyperbolicAuction.Proofs.Binary64.Range

/-!
# Shares of a binary64 number

A count of at most `2 ^ 53` is itself a binary64 number. A share of a value is the value times one
count, divided by a greater one; both operations are rounded. Greater counts give no lesser shares,
and no share is greater than the whole: rounding the product adds at most one part in `2 ^ 53`,
which the division takes off again.

Main statements: `share_mono`, `share_le`.
-/

namespace HyperbolicAuction.Binary64

attribute [local irreducible] overflowLimit unitsPerOne

variable {value : Binary64} {index later count : Nat}

/-! ## Counts -/

theorem isRepresentable_count (short : count ≤ 2 ^ 53) : IsRepresentable (count * unitsPerOne) := by
  obtain ⟨unitExponent, unit⟩ : ∃ exponent, exponent = 1074 := ⟨_, rfl⟩
  rw [unitsPerOne_eq_two_pow unit]
  constructor
  · calc count * 2 ^ unitExponent ≤ 2 ^ 53 * 2 ^ unitExponent := Nat.mul_le_mul_right _ short
      _ = 2 ^ (53 + unitExponent) := (Nat.pow_add ..).symm
      _ < overflowLimit := two_pow_lt_overflowLimit (by omega)
  · rcases Nat.lt_or_eq_of_le short with less | rfl
    · exact ⟨count, unitExponent, less, rfl⟩
    · exact ⟨1, 53 + unitExponent, by decide, by rw [Nat.one_mul, Nat.pow_add]⟩

theorem natCast_eq_finite (short : count ≤ 2 ^ 53) :
    (Nat.cast count : Binary64) = finite false (count * unitsPerOne) (isRepresentable_count short) := by
  have exact_ := ofUnits_mul_eq_finite false Nat.one_pos (isRepresentable_count short)
  rwa [Nat.mul_one, ← natCast_eq] at exact_

theorem natCast_le_natCast (ordered : index ≤ later) (short : later ≤ 2 ^ 53) :
    (Nat.cast index : Binary64) ≤ Nat.cast later := by
  rw [natCast_eq_finite (Nat.le_trans ordered short), natCast_eq_finite short]
  refine le_iff.2 ⟨Binary64.noConfusion, Binary64.noConfusion, ?_⟩
  rw [position_finite, position_finite, signedUnits_false, signedUnits_false]
  exact Int.ofNat_le.2 (Nat.mul_le_mul_right _ ordered)

theorem isFinite_natCast (short : count ≤ 2 ^ 53) :
    (Nat.cast count : Binary64).isFinite = true := by
  rw [natCast_eq_finite short]
  rfl

theorem position_natCast (short : count ≤ 2 ^ 53) :
    (Nat.cast count : Binary64).position = count * unitsPerOne := by
  rw [natCast_eq_finite short, position_finite, signedUnits_false, Int.natCast_mul]

/-! ## Shares -/

/-- A value times a count is less than one part in `2 ^ 53` greater than the exact product. -/
theorem position_mul_natCast (positive : 0 < value.position) (valueFinite : value.isFinite = true)
    (short : index ≤ 2 ^ 53) :
    2 ^ 53 * (value * Nat.cast index).position ≤ (2 ^ 53 + 1) * (value.position * index) := by
  obtain ⟨units, representable, rfl⟩ := finite_of_pos positive valueFinite
  have error := roundUnits_one_error (units * index)
  have scaled := @roundUnits_mul_mul (units * index) 1 unitsPerOne Nat.one_pos unitsPerOne_pos
  rw [Nat.one_mul, Nat.mul_assoc] at scaled
  rw [natCast_eq_finite short, finite_mul_finite, position_ofUnits, bne_self_eq_false,
    signedUnits_false, scaled, position_finite, signedUnits_false, ← Int.natCast_mul]
  omega

/-- The share of no count is the positive zero. -/
theorem share_zero (positive : 0 < value.position) (valueFinite : value.isFinite = true)
    (some_ : 0 < count) (short : count ≤ 2 ^ 53) :
    value * Nat.cast 0 / Nat.cast count = 0 := by
  obtain ⟨units, representable, rfl⟩ := finite_of_pos positive valueFinite
  have divides : count * unitsPerOne ≠ 0 := Nat.mul_ne_zero (by omega) (Nat.ne_of_gt unitsPerOne_pos)
  have rounded {denominator : Nat} (positive : 0 < denominator) :
      ofUnits false 0 denominator = finite false 0 isRepresentable_zero := by
    have exact_ := ofUnits_mul_eq_finite false positive isRepresentable_zero
    rwa [Nat.zero_mul] at exact_
  have product : finite false units representable * Nat.cast 0 = finite false 0 isRepresentable_zero := by
    rw [natCast_eq_finite (Nat.zero_le _), finite_mul_finite, Nat.zero_mul, Nat.mul_zero,
      bne_self_eq_false]
    exact rounded unitsPerOne_pos
  rw [product, natCast_eq_finite short, finite_div_finite _ _ _ _ divides, Nat.zero_mul,
    bne_self_eq_false]
  exact rounded (Nat.pos_of_ne_zero divides)

/-- A greater count gives no lesser share. -/
theorem share_mono (valueFinite : value.isFinite = true) (nonneg : 0 ≤ value.position)
    (ordered : index ≤ later) (positive : 0 < count) (laterShort : later ≤ 2 ^ 53)
    (short : count ≤ 2 ^ 53) (finite_ : (value * Nat.cast index / Nat.cast count).isFinite = true)
    (laterFinite : (value * Nat.cast later / Nat.cast count).isFinite = true) :
    value * Nat.cast index / Nat.cast count ≤ value * Nat.cast later / Nat.cast count := by
  have divides : 0 < (Nat.cast count : Binary64).position := by
    rw [position_natCast short]
    exact Int.mul_pos (Int.natCast_pos.2 positive) (Int.natCast_pos.2 unitsPerOne_pos)
  have products : value * Nat.cast index ≤ value * Nat.cast later := by
    rw [mul_comm value, mul_comm value]
    exact mul_le_mul_right (isFinite_natCast (Nat.le_trans ordered laterShort))
      (isFinite_natCast laterShort) valueFinite nonneg (natCast_le_natCast ordered laterShort)
  exact div_le_div_right (isFinite_of_isFinite_div finite_) (isFinite_of_isFinite_div laterFinite)
    (isFinite_natCast short) divides products

/-- No share is greater than the whole. -/
theorem share_le (valueFinite : value.isFinite = true) (positive : 0 < value.position)
    (less : index < count) (short : count ≤ 2 ^ 53)
    (finite_ : (value * Nat.cast index / Nat.cast count).isFinite = true) :
    value * Nat.cast index / Nat.cast count ≤ value := by
  have indexShort : index ≤ 2 ^ 53 := by omega
  have unit : (0 : Int) < unitsPerOne := Int.natCast_pos.2 unitsPerOne_pos
  have rounded := position_mul_natCast positive valueFinite indexShort
  have below : (value * Nat.cast index).position ≤ value.position * count := by
    have added : value.position * index ≤ value.position * 2 ^ 53 :=
      Int.mul_le_mul_of_nonneg_left (by omega) (Int.le_of_lt positive)
    have next : value.position * index + value.position ≤ value.position * count := by
      calc value.position * index + value.position = value.position * (index + 1) := by
            rw [Int.mul_add, Int.mul_one]
        _ ≤ value.position * count :=
            Int.mul_le_mul_of_nonneg_left (by omega) (Int.le_of_lt positive)
    omega
  have productFinite := isFinite_of_isFinite_div finite_
  obtain ⟨negative, productUnits, productRepresentable, product⟩ := exists_finite productFinite
  refine le_iff.2 ⟨(isFinite_iff.1 finite_).1, ne_nan_of_pos positive, ?_⟩
  rw [product, position_finite] at below
  rw [product, natCast_eq_finite short,
    finite_div_finite _ _ _ _ (Nat.mul_ne_zero (by omega) (Nat.ne_of_gt unitsPerOne_pos))]
  refine position_ofUnits_le (Nat.mul_pos (by omega) unitsPerOne_pos) (isOnGrid_position value)
    (natAbs_position_le value) ?_
  rw [signedUnits_mul, signedUnits_false, Int.natCast_mul, ← Int.mul_assoc]
  exact Int.mul_le_mul_of_nonneg_right below (Int.le_of_lt unit)

end HyperbolicAuction.Binary64
