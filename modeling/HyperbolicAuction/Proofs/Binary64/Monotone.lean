import HyperbolicAuction.Proofs.Binary64.Arithmetic

/-!
# Binary64 operations keep order

A greater quotient is never rounded to less, so an operation that keeps the order of exact numbers
keeps it rounded as well. An infinity is the end of the order and no exception, as long as no sum
meets the infinity of the other sign.

Main statements: `add_le_add`, `sub_le_sub_right`, `mul_le_mul_right`, `div_le_div_right`,
`div_le_div_left`, and `larger_le_larger_left` with its mirror image.
-/

namespace HyperbolicAuction.Binary64

open Scalar

attribute [local irreducible] overflowLimit unitsPerOne

/-! ## Rounding with a sign -/

theorem roundUnits_zero {denominator : Nat} (positive : 0 < denominator) :
    roundUnits 0 denominator = 0 :=
  (roundUnits_eq_zero_iff positive).2 (Nat.zero_le _)

theorem position_ofUnits_mono {left right : Bool}
    {leftNumerator leftDenominator rightNumerator rightDenominator : Nat}
    (leftPositive : 0 < leftDenominator) (rightPositive : 0 < rightDenominator)
    (ordered : signedUnits left leftNumerator * rightDenominator ≤
      signedUnits right rightNumerator * leftDenominator) :
    (ofUnits left leftNumerator leftDenominator).position ≤
      (ofUnits right rightNumerator rightDenominator).position := by
  rw [position_ofUnits, position_ofUnits]
  cases left with
  | false =>
    cases right with
    | false =>
      rw [signedUnits_false, signedUnits_false] at ordered ⊢
      have rounded := roundUnits_mono leftPositive rightPositive (by exact_mod_cast ordered)
      omega
    | true =>
      rw [signedUnits_false, signedUnits_true, Int.neg_mul, ← Int.natCast_mul, ← Int.natCast_mul]
        at ordered
      have leftZero : leftNumerator * rightDenominator = 0 := by omega
      have rightZero : rightNumerator * leftDenominator = 0 := by omega
      rw [(Nat.mul_eq_zero.1 leftZero).resolve_right (Nat.ne_of_gt rightPositive),
        (Nat.mul_eq_zero.1 rightZero).resolve_right (Nat.ne_of_gt leftPositive),
        roundUnits_zero leftPositive, roundUnits_zero rightPositive]
      exact Int.le_of_eq rfl
  | true =>
    cases right with
    | false =>
      rw [signedUnits_false, signedUnits_true]
      omega
    | true =>
      rw [signedUnits_true, signedUnits_true] at ordered ⊢
      rw [Int.neg_mul, Int.neg_mul] at ordered
      have rounded := roundUnits_mono rightPositive leftPositive
        (by exact_mod_cast Int.neg_le_neg_iff.1 ordered)
      omega

/-! ## Sums -/

/-- A number that is not the negative infinity is the positive one or finite. -/
theorem eq_infinity_or_isFinite {value : Binary64} (number : value ≠ nan)
    (high : value ≠ infinity true) : value = infinity false ∨ value.isFinite = true := by
  cases value with
  | nan => exact absurd rfl number
  | infinity negative =>
    rw [eq_false_of_ne_infinity high]
    exact .inl rfl
  | finite negative units representable => exact .inr rfl

/-- What is at most a finite value, and not the negative infinity, is finite. -/
theorem isFinite_of_le {low value : Binary64} (ordered : low ≤ value) (high : low ≠ infinity true)
    (finite_ : value.isFinite = true) : low.isFinite = true := by
  rcases eq_infinity_or_isFinite (ne_nan_of_le ordered).1 high with rfl | lowFinite
  · have bounded := (isFinite_iff.1 finite_).2
    have least := (le_iff.1 ordered).2.2
    rw [position_infinity, signedUnits_false] at least
    omega
  · exact lowFinite

/-- What is no lower than something above the negative infinity is not that infinity either. -/
theorem ne_infinity_of_le {low value : Binary64} (ordered : low ≤ value)
    (high : low ≠ infinity true) : value ≠ infinity true := by
  rintro rfl
  have least := (le_iff.1 ordered).2.2
  have limit := overflowLimit_pos
  rw [position_infinity, signedUnits_true] at least
  rcases eq_infinity_or_isFinite (ne_nan_of_le ordered).1 high with rfl | finite_
  · rw [position_infinity, signedUnits_false] at least
    omega
  · have bounded := (isFinite_iff.1 finite_).2
    omega

theorem infinity_add {value : Binary64} (number : value ≠ nan) (high : value ≠ infinity true) :
    infinity false + value = infinity false := by
  rcases eq_infinity_or_isFinite number high with rfl | finite_
  · rfl
  · obtain ⟨negative, units, representable, rfl⟩ := exists_finite finite_
    rfl

theorem add_infinity {value : Binary64} (number : value ≠ nan) (high : value ≠ infinity true) :
    value + infinity false = infinity false := by
  rw [add_comm]
  exact infinity_add number high

theorem le_infinity {value : Binary64} (number : value ≠ nan) : value ≤ infinity false := by
  have limited := natAbs_position_le value
  refine le_iff.2 ⟨number, Binary64.noConfusion, ?_⟩
  rw [position_infinity, signedUnits_false]
  omega

/-- Only opposite infinities have no sum. -/
theorem add_ne_nan_of_high {left right : Binary64} (leftNumber : left ≠ nan)
    (rightNumber : right ≠ nan) (leftHigh : left ≠ infinity true)
    (rightHigh : right ≠ infinity true) : left + right ≠ nan := by
  rcases eq_infinity_or_isFinite leftNumber leftHigh with rfl | leftFinite
  · rw [infinity_add rightNumber rightHigh]
    exact Binary64.noConfusion
  · exact add_ne_nan leftFinite rightNumber

/-- A finite sum stands where the exact sum is rounded to; so does a sum of zero. -/
theorem position_add {left right : Binary64} (leftFinite : left.isFinite = true)
    (rightFinite : right.isFinite = true) :
    (left + right).position = (ofUnits (left.position + right.position < 0)
      (left.position + right.position).natAbs 1).position := by
  obtain ⟨leftNegative, leftUnits, leftRepresentable, rfl⟩ := exists_finite leftFinite
  obtain ⟨rightNegative, rightUnits, rightRepresentable, rfl⟩ := exists_finite rightFinite
  obtain ⟨total, totalEq, sum⟩ :=
    finite_add_finite leftNegative rightNegative leftRepresentable rightRepresentable
  rw [sum, position_finite, position_finite, ← totalEq]
  split
  · next cancelled =>
    rw [cancelled, position_ofUnits, Int.natAbs_zero, roundUnits_zero Nat.one_pos]
    cases leftNegative <;> cases rightNegative <;> rfl
  · rfl

theorem add_le_add {left right greaterLeft greaterRight : Binary64}
    (leftOrdered : left ≤ greaterLeft) (rightOrdered : right ≤ greaterRight)
    (leftHigh : left ≠ infinity true) (rightHigh : right ≠ infinity true) :
    left + right ≤ greaterLeft + greaterRight := by
  obtain ⟨leftNumber, greaterLeftNumber⟩ := ne_nan_of_le leftOrdered
  obtain ⟨rightNumber, greaterRightNumber⟩ := ne_nan_of_le rightOrdered
  have greaterLeftHigh : greaterLeft ≠ infinity true := ne_infinity_of_le leftOrdered leftHigh
  have greaterRightHigh : greaterRight ≠ infinity true := ne_infinity_of_le rightOrdered rightHigh
  have sumNumber : left + right ≠ nan := add_ne_nan_of_high leftNumber rightNumber leftHigh rightHigh
  rcases eq_infinity_or_isFinite greaterLeftNumber greaterLeftHigh with rfl | greaterLeftFinite
  · rw [infinity_add greaterRightNumber greaterRightHigh]
    exact le_infinity sumNumber
  rcases eq_infinity_or_isFinite greaterRightNumber greaterRightHigh with rfl | greaterRightFinite
  · rw [add_infinity greaterLeftNumber greaterLeftHigh]
    exact le_infinity sumNumber
  have leftFinite := isFinite_of_le leftOrdered leftHigh greaterLeftFinite
  have rightFinite := isFinite_of_le rightOrdered rightHigh greaterRightFinite
  refine le_iff.2 ⟨sumNumber, add_ne_nan greaterLeftFinite greaterRightNumber, ?_⟩
  rw [position_add leftFinite rightFinite, position_add greaterLeftFinite greaterRightFinite]
  refine position_ofUnits_mono Nat.one_pos Nat.one_pos ?_
  rw [signedUnits_natAbs, signedUnits_natAbs]
  have leftPosition := (le_iff.1 leftOrdered).2.2
  have rightPosition := (le_iff.1 rightOrdered).2.2
  omega

theorem sub_le_sub_right {left greater value : Binary64} (ordered : left ≤ greater)
    (high : left ≠ infinity true) (finite_ : value.isFinite = true) :
    left - value ≤ greater - value := by
  rw [← isFinite_neg] at finite_
  exact add_le_add ordered (le_refl (isFinite_iff.1 finite_).1) high
    (ne_infinity_of_isFinite finite_ true)

/-- A finite value taken from one that is no less leaves nothing negative. -/
theorem nonneg_sub {value greater : Binary64} (finite_ : value.isFinite = true)
    (ordered : value ≤ greater) : 0 ≤ greater - value := by
  obtain ⟨number, high⟩ := ne_of_isFinite_le finite_ ordered
  have positions := (le_iff.1 ordered).2.2
  rw [← isFinite_neg] at finite_
  have difference := @le_position_add 0 greater (-value) number (isFinite_iff.1 finite_).1 high
    (ne_infinity_of_isFinite finite_ true) isOnGrid_zero (Nat.zero_le _)
    (by rw [position_neg]; omega)
  exact le_iff.2 ⟨zero_ne_nan, difference.1, difference.2⟩

/-! ## Products -/

theorem signedUnits_mul (left right : Bool) (leftUnits rightUnits : Nat) :
    signedUnits (left != right) (leftUnits * rightUnits) =
      signedUnits left leftUnits * signedUnits right rightUnits := by
  cases left <;> cases right <;>
    simp only [bne_self_eq_false, Bool.bne_true, Bool.bne_false, Bool.not_false, signedUnits_false,
      signedUnits_true, Int.natCast_mul, Int.neg_mul, Int.mul_neg, Int.neg_neg]

/-- Finite values times one that is not negative keep their order, overflow included. -/
theorem mul_le_mul_right {left greater factor : Binary64} (leftFinite : left.isFinite = true)
    (greaterFinite : greater.isFinite = true) (factorFinite : factor.isFinite = true)
    (nonneg : 0 ≤ factor.position) (ordered : left ≤ greater) :
    left * factor ≤ greater * factor := by
  have positions := (le_iff.1 ordered).2.2
  obtain ⟨leftNegative, leftUnits, leftRepresentable, rfl⟩ := exists_finite leftFinite
  obtain ⟨greaterNegative, greaterUnits, greaterRepresentable, rfl⟩ := exists_finite greaterFinite
  obtain ⟨factorNegative, factorUnits, factorRepresentable, rfl⟩ := exists_finite factorFinite
  rw [finite_mul_finite, finite_mul_finite]
  refine le_iff.2 ⟨ofUnits_ne_nan _ _ _, ofUnits_ne_nan _ _ _, ?_⟩
  refine position_ofUnits_mono unitsPerOne_pos unitsPerOne_pos ?_
  rw [signedUnits_mul, signedUnits_mul]
  exact Int.mul_le_mul_of_nonneg_right (Int.mul_le_mul_of_nonneg_right positions nonneg)
    (Int.natCast_nonneg _)

theorem mul_comm (left right : Binary64) : left * right = right * left := by
  cases left with
  | nan => cases right <;> rfl
  | infinity left =>
    cases right with
    | nan => rfl
    | infinity right => cases left <;> cases right <;> rfl
    | finite right units representable => cases left <;> cases right <;> rfl
  | finite left leftUnits leftRepresentable =>
    cases right with
    | nan => rfl
    | infinity right => cases left <;> cases right <;> rfl
    | finite right rightUnits rightRepresentable =>
      rw [finite_mul_finite, finite_mul_finite, Nat.mul_comm, bne_comm]

/-- A finite product is one of finite values. -/
theorem isFinite_of_isFinite_mul {left right : Binary64}
    (finite_ : (left * right).isFinite = true) :
    left.isFinite = true ∧ right.isFinite = true := by
  have isInfinite {negative units} {sign : Bool}
      (found : (if units = 0 then nan else infinity (negative != sign)).isFinite = true) : False := by
    split at found <;> cases found
  cases left with
  | nan => cases finite_
  | infinity left =>
    cases right with
    | nan => cases finite_
    | infinity right => cases finite_
    | finite right units representable => exact (isInfinite finite_).elim
  | finite left units representable =>
    cases right with
    | nan => cases finite_
    | infinity right => exact (isInfinite finite_).elim
    | finite right rightUnits rightRepresentable => exact ⟨rfl, rfl⟩

/-! ## Quotients -/

/-- A finite quotient is one of a finite dividend. -/
theorem isFinite_of_isFinite_div {dividend divisor : Binary64}
    (finite_ : (dividend / divisor).isFinite = true) : dividend.isFinite = true := by
  cases dividend with
  | nan => cases finite_
  | infinity negative => cases divisor <;> cases finite_
  | finite negative units representable => rfl

/-- Finite values divided by one above zero keep their order, overflow included. -/
theorem div_le_div_right {left greater divisor : Binary64} (leftFinite : left.isFinite = true)
    (greaterFinite : greater.isFinite = true) (divisorFinite : divisor.isFinite = true)
    (positive : 0 < divisor.position) (ordered : left ≤ greater) :
    left / divisor ≤ greater / divisor := by
  have positions := (le_iff.1 ordered).2.2
  obtain ⟨leftNegative, leftUnits, leftRepresentable, rfl⟩ := exists_finite leftFinite
  obtain ⟨greaterNegative, greaterUnits, greaterRepresentable, rfl⟩ := exists_finite greaterFinite
  obtain ⟨units, representable, rfl⟩ := finite_of_pos positive divisorFinite
  rw [position_finite, signedUnits_false] at positive
  rw [finite_div_finite _ _ _ _ (by omega), finite_div_finite _ _ _ _ (by omega), Bool.bne_false,
    Bool.bne_false]
  refine le_iff.2 ⟨ofUnits_ne_nan _ _ _, ofUnits_ne_nan _ _ _, ?_⟩
  refine position_ofUnits_mono (by omega) (by omega) ?_
  refine Int.mul_le_mul_of_nonneg_right ?_ (Int.natCast_nonneg _)
  have leftScaled := signedUnits_mul leftNegative false leftUnits unitsPerOne
  have greaterScaled := signedUnits_mul greaterNegative false greaterUnits unitsPerOne
  rw [Bool.bne_false, signedUnits_false] at leftScaled greaterScaled
  rw [leftScaled, greaterScaled]
  exact Int.mul_le_mul_of_nonneg_right positions (Int.natCast_nonneg _)

/-- A quotient of values that are not negative is none either, or it is that of two infinities. -/
theorem div_nan_or_nonneg {dividend divisor : Binary64} (nonneg : 0 ≤ dividend)
    (positive : 0 < divisor.position) : dividend / divisor = nan ∨ 0 ≤ dividend / divisor := by
  have number := (ne_nan_of_le nonneg).2
  rcases eq_infinity_or_isFinite number (ne_infinity_of_nonneg nonneg) with rfl | finite_
  · rcases infinity_or_finite_of_pos positive with rfl | ⟨units, representable, rfl⟩
    · exact .inl rfl
    · exact .inr (le_infinity zero_ne_nan)
  · exact .inr (div_nonneg finite_ (le_iff.1 nonneg).2.2 positive)

/-- Dividing by more leaves no more. -/
theorem div_le_div_left {dividend divisor greater : Binary64}
    (dividendFinite : dividend.isFinite = true) (nonneg : 0 ≤ dividend.position)
    (positive : 0 < divisor.position) (ordered : divisor ≤ greater) :
    dividend / greater ≤ dividend / divisor := by
  have least := div_nonneg dividendFinite nonneg positive
  have positions := (le_iff.1 ordered).2.2
  have greaterPositive : 0 < greater.position := by omega
  rcases infinity_or_finite_of_pos greaterPositive with
    rfl | ⟨greaterUnits, greaterRepresentable, rfl⟩
  · -- a quotient by an infinity is a zero
    obtain ⟨negative, units, representable, rfl⟩ := exists_finite dividendFinite
    refine le_iff.2 ⟨Binary64.noConfusion, (ne_nan_of_le least).2, ?_⟩
    have quotient := (le_iff.1 least).2.2
    cases negative <;> exact quotient
  · have high : divisor ≠ infinity true :=
      ne_infinity_of_nonneg (nonneg_of_position_pos positive)
    obtain ⟨units, representable, rfl⟩ := finite_of_pos positive (isFinite_of_le ordered high rfl)
    obtain ⟨negative, dividendUnits, dividendRepresentable, rfl⟩ := exists_finite dividendFinite
    rw [position_finite, signedUnits_false] at positive greaterPositive
    rw [position_finite, position_finite, signedUnits_false, signedUnits_false] at positions
    rw [position_finite] at nonneg
    rw [finite_div_finite _ _ _ _ (by omega), finite_div_finite _ _ _ _ (by omega)]
    refine le_iff.2 ⟨ofUnits_ne_nan _ _ _, ofUnits_ne_nan _ _ _, ?_⟩
    refine position_ofUnits_mono (by omega) (by omega) ?_
    refine Int.mul_le_mul_of_nonneg_left positions ?_
    cases negative with
    | false => exact Int.natCast_nonneg _
    | true =>
      rw [signedUnits_true] at nonneg
      obtain rfl : dividendUnits = 0 := by omega
      rw [Nat.zero_mul]
      exact Int.le_refl 0

/-! ## The larger of two values -/

theorem larger_le_larger_left {left greater value : Binary64} (ordered : left ≤ greater)
    (number : value ≠ nan) : larger left value ≤ larger greater value := by
  obtain ⟨leftNumber, greaterNumber⟩ := ne_nan_of_le ordered
  refine le_iff.2 ⟨larger_ne_nan leftNumber _, larger_ne_nan greaterNumber _, ?_⟩
  rw [position_larger leftNumber number, position_larger greaterNumber number]
  have positions := (le_iff.1 ordered).2.2
  omega

theorem larger_le_larger_right {left greater value : Binary64} (ordered : left ≤ greater)
    (number : value ≠ nan) : larger value left ≤ larger value greater := by
  obtain ⟨leftNumber, greaterNumber⟩ := ne_nan_of_le ordered
  refine le_iff.2 ⟨larger_ne_nan number _, larger_ne_nan number _, ?_⟩
  rw [position_larger number leftNumber, position_larger number greaterNumber]
  have positions := (le_iff.1 ordered).2.2
  omega

end HyperbolicAuction.Binary64
