import HyperbolicAuction.Proofs.Binary64.Order

/-!
# Bounds on binary64 results

A result is never rounded across a grid point, so an exact bound that is itself a grid point bounds
the rounded result. This is said once for rounding with a sign, and from it for sums, products and
quotients. In particular a sum is no less than an addend when the other addend is not negative.
-/

namespace HyperbolicAuction.Binary64

attribute [local irreducible] overflowLimit unitsPerOne

/-! ## Rounding with a sign -/

theorem ofUnits_ne_nan (negative : Bool) (numerator denominator : Nat) :
    ofUnits negative numerator denominator ≠ nan := by
  unfold ofUnits
  dsimp only
  split <;> exact Binary64.noConfusion

theorem position_ofUnits (negative : Bool) (numerator denominator : Nat) :
    (ofUnits negative numerator denominator).position =
      signedUnits negative (min (roundUnits numerator denominator) overflowLimit) := by
  unfold ofUnits
  dsimp only
  split
  · next bounded =>
    rw [Nat.min_eq_left (Nat.le_of_lt bounded)]
    rfl
  · next beyond => rw [position_infinity, Nat.min_eq_right (Nat.le_of_not_lt beyond)]

theorem signedUnits_not (negative : Bool) (units : Nat) :
    signedUnits (!negative) units = -signedUnits negative units := by
  cases negative <;> simp

theorem position_ofUnits_not (negative : Bool) (numerator denominator : Nat) :
    (ofUnits (!negative) numerator denominator).position =
      -(ofUnits negative numerator denominator).position := by
  rw [position_ofUnits, position_ofUnits, signedUnits_not]

variable {negative : Bool} {numerator denominator : Nat} {bound : Int}

theorem le_position_ofUnits (positive : 0 < denominator) (onGrid : IsOnGrid bound.natAbs)
    (limited : bound.natAbs ≤ overflowLimit)
    (above : bound * denominator ≤ signedUnits negative numerator) :
    bound ≤ (ofUnits negative numerator denominator).position := by
  rw [position_ofUnits]
  rcases Int.le_total bound 0 with low | high
  · cases negative with
    | false => rw [signedUnits_false]; omega
    | true =>
      have scaled : numerator ≤ bound.natAbs * denominator := by
        have magnitude : ((bound.natAbs * denominator : Nat) : Int) = -(bound * denominator) := by
          rw [Int.natCast_mul, Int.ofNat_natAbs_of_nonpos low, Int.neg_mul]
        rw [signedUnits_true] at above
        omega
      have rounded := roundUnits_le_of_le_mul positive onGrid scaled
      rw [signedUnits_true]
      omega
  · have magnitude : ((bound.natAbs * denominator : Nat) : Int) = bound * denominator := by
      rw [Int.natCast_mul, Int.natAbs_of_nonneg high]
    cases negative with
    | false =>
      have scaled : bound.natAbs * denominator ≤ numerator := by
        rw [signedUnits_false] at above
        omega
      have rounded := le_roundUnits_of_mul_le positive onGrid scaled
      rw [signedUnits_false]
      omega
    | true =>
      have scaled : bound.natAbs * denominator = 0 := by
        rw [signedUnits_true] at above
        omega
      have zero : bound.natAbs = 0 := (Nat.mul_eq_zero.1 scaled).resolve_right (by omega)
      have dividend : numerator = 0 := by
        rw [signedUnits_true] at above
        omega
      have rounded := roundUnits_le_of_le_mul positive isOnGrid_zero
        (Nat.le_trans (Nat.le_of_eq dividend) (Nat.zero_le _))
      rw [signedUnits_true]
      omega

theorem position_ofUnits_le (positive : 0 < denominator) (onGrid : IsOnGrid bound.natAbs)
    (limited : bound.natAbs ≤ overflowLimit)
    (below : signedUnits negative numerator ≤ bound * denominator) :
    (ofUnits negative numerator denominator).position ≤ bound := by
  have flipped : -bound ≤ (ofUnits (!negative) numerator denominator).position :=
    le_position_ofUnits positive (by rwa [Int.natAbs_neg]) (by rwa [Int.natAbs_neg])
      (by rw [signedUnits_not, Int.neg_mul]; omega)
  rw [position_ofUnits_not] at flipped
  omega

/-! ## Sums and differences -/

theorem position_neg (value : Binary64) : (-value).position = -value.position := by
  cases value with
  | nan => rfl
  | infinity negative => exact signedUnits_not negative overflowLimit
  | finite negative units representable => exact signedUnits_not negative units

theorem neg_ne_nan {value : Binary64} (number : value ≠ nan) : -value ≠ nan := by
  cases value with
  | nan => exact absurd rfl number
  | infinity negative => exact Binary64.noConfusion
  | finite negative units representable => exact Binary64.noConfusion

theorem isFinite_neg (value : Binary64) : (-value).isFinite = value.isFinite := by
  cases value <;> rfl

theorem sub_eq_add_neg (left right : Binary64) : left - right = left + -right := rfl

theorem signedUnits_natAbs (total : Int) : signedUnits (total < 0) total.natAbs = total := by
  by_cases negative : total < 0
  · simp only [negative, decide_true, signedUnits_true]
    omega
  · simp only [negative, decide_false, signedUnits_false]
    omega

/-- A sum of finite values is their exact sum, rounded; a sum of zero may have either sign. -/
theorem finite_add_finite (left right : Bool) {leftUnits rightUnits : Nat} (leftRepresentable)
    (rightRepresentable) :
    ∃ total : Int, total = signedUnits left leftUnits + signedUnits right rightUnits ∧
      finite left leftUnits leftRepresentable + finite right rightUnits rightRepresentable =
        if total = 0 then zero (left && right) else ofUnits (total < 0) total.natAbs 1 :=
  ⟨_, rfl, rfl⟩

theorem add_comm (left right : Binary64) : left + right = right + left := by
  cases left with
  | nan => cases right <;> rfl
  | infinity left =>
    cases right with
    | nan => rfl
    | infinity right => cases left <;> cases right <;> rfl
    | finite right units representable => rfl
  | finite left leftUnits leftRepresentable =>
    cases right with
    | nan => rfl
    | infinity right => rfl
    | finite right rightUnits rightRepresentable =>
      obtain ⟨total, totalEq, sum⟩ :=
        finite_add_finite left right leftRepresentable rightRepresentable
      obtain ⟨turned, turnedEq, turnedSum⟩ :=
        finite_add_finite right left rightRepresentable leftRepresentable
      rw [sum, turnedSum, totalEq, turnedEq, Int.add_comm, Bool.and_comm]

theorem add_ne_nan {left right : Binary64} (leftFinite : left.isFinite = true)
    (number : right ≠ nan) : left + right ≠ nan := by
  obtain ⟨negative, units, representable, rfl⟩ := exists_finite leftFinite
  cases right with
  | nan => exact absurd rfl number
  | infinity other => exact Binary64.noConfusion
  | finite other otherUnits otherRepresentable =>
    obtain ⟨total, _, sum⟩ := finite_add_finite negative other representable otherRepresentable
    rw [sum]
    split
    · exact Binary64.noConfusion
    · exact ofUnits_ne_nan _ _ _

theorem le_position_finite_add_finite {left right : Bool} {leftUnits rightUnits : Nat}
    {leftRepresentable rightRepresentable} (onGrid : IsOnGrid bound.natAbs)
    (limited : bound.natAbs ≤ overflowLimit)
    (above : bound ≤ signedUnits left leftUnits + signedUnits right rightUnits) :
    bound ≤ (finite left leftUnits leftRepresentable +
      finite right rightUnits rightRepresentable).position := by
  obtain ⟨total, totalEq, sum⟩ :=
    finite_add_finite left right leftRepresentable rightRepresentable
  rw [sum]
  rw [← totalEq] at above
  split
  · next cancelled =>
    rw [cancelled] at above
    cases left <;> cases right <;> simpa [zero] using above
  · refine le_position_ofUnits Nat.one_pos onGrid limited ?_
    rw [signedUnits_natAbs]
    omega

/-- A sum of values, none of them the negative infinity, is at least every grid point that the exact
sum is at least. -/
theorem le_position_add {left right : Binary64} (leftNumber : left ≠ nan)
    (rightNumber : right ≠ nan) (leftHigh : left ≠ infinity true)
    (rightHigh : right ≠ infinity true) (onGrid : IsOnGrid bound.natAbs)
    (limited : bound.natAbs ≤ overflowLimit) (above : bound ≤ left.position + right.position) :
    left + right ≠ nan ∧ bound ≤ (left + right).position := by
  have atLimit : bound ≤ (infinity false).position := by
    rw [position_infinity, signedUnits_false]
    omega
  cases left with
  | nan => exact absurd rfl leftNumber
  | infinity left =>
    obtain rfl := eq_false_of_ne_infinity leftHigh
    cases right with
    | nan => exact absurd rfl rightNumber
    | infinity right =>
      obtain rfl := eq_false_of_ne_infinity rightHigh
      exact ⟨Binary64.noConfusion, atLimit⟩
    | finite right units representable => exact ⟨Binary64.noConfusion, atLimit⟩
  | finite left leftUnits leftRepresentable =>
    refine ⟨add_ne_nan rfl rightNumber, ?_⟩
    cases right with
    | nan => exact absurd rfl rightNumber
    | infinity right =>
      obtain rfl := eq_false_of_ne_infinity rightHigh
      exact atLimit
    | finite right rightUnits rightRepresentable =>
      exact le_position_finite_add_finite onGrid limited above

/-- Adding what is not negative never lowers a value. -/
theorem le_add_of_nonneg {value increment : Binary64} (number : value ≠ nan)
    (high : value ≠ infinity true) (nonneg : 0 ≤ increment) : value ≤ value + increment := by
  have ordered := le_iff.1 nonneg
  rw [position_zero] at ordered
  have incrementHigh := ne_infinity_of_nonneg nonneg
  obtain ⟨sumNumber, sumAbove⟩ := le_position_add number ordered.2.1 high incrementHigh
    (isOnGrid_position value) (natAbs_position_le value) (by omega)
  exact le_iff.2 ⟨number, sumNumber, sumAbove⟩

theorem nonneg_add {left right : Binary64} (leftNonneg : 0 ≤ left) (rightNonneg : 0 ≤ right) :
    0 ≤ left + right :=
  le_trans leftNonneg
    (le_add_of_nonneg (ne_nan_of_le leftNonneg).2 (ne_infinity_of_nonneg leftNonneg) rightNonneg)

/-- A sum of finite values is at most every grid point that the exact sum is at most. -/
theorem position_add_le {left right : Binary64} (leftFinite : left.isFinite = true)
    (rightFinite : right.isFinite = true) (onGrid : IsOnGrid bound.natAbs)
    (limited : bound.natAbs ≤ overflowLimit) (below : left.position + right.position ≤ bound) :
    (left + right).position ≤ bound := by
  obtain ⟨leftNegative, leftUnits, leftRepresentable, rfl⟩ := exists_finite leftFinite
  obtain ⟨rightNegative, rightUnits, rightRepresentable, rfl⟩ := exists_finite rightFinite
  obtain ⟨total, totalEq, sum⟩ :=
    finite_add_finite leftNegative rightNegative leftRepresentable rightRepresentable
  rw [sum]
  rw [position_finite, position_finite, ← totalEq] at below
  split
  · next cancelled =>
    rw [cancelled] at below
    cases leftNegative <;> cases rightNegative <;> simpa [zero] using below
  · refine position_ofUnits_le Nat.one_pos onGrid limited ?_
    rw [signedUnits_natAbs]
    omega

/-- What is taken from a value to leave a finite one is finite. -/
theorem isFinite_of_isFinite_sub {left right : Binary64}
    (finite_ : (left - right).isFinite = true) : right.isFinite = true := by
  cases right with
  | finite negative units representable => rfl
  | nan =>
    cases left <;> cases finite_
  | infinity negative =>
    cases left with
    | nan => cases finite_
    | finite => cases finite_
    | infinity other =>
      cases negative <;> cases other <;> cases finite_

/-! ## Products and quotients of positive values -/

theorem unitsPerOne_pos : 0 < unitsPerOne := by
  have power := Nat.two_pow_pos 1074
  rwa [unitsPerOne]

theorem ne_nan_of_pos {value : Binary64} (positive : 0 < value.position) : value ≠ nan := by
  rintro rfl
  exact absurd positive (Int.lt_irrefl 0)

/-- A value above zero is the positive infinity, or its units are its position. -/
theorem infinity_or_finite_of_pos {value : Binary64} (positive : 0 < value.position) :
    value = infinity false ∨ ∃ units representable, value = finite false units representable := by
  have limit := overflowLimit_pos
  cases value with
  | nan => exact absurd positive (Int.lt_irrefl 0)
  | infinity negative =>
    cases negative with
    | false => exact .inl rfl
    | true => simp only [position_infinity, signedUnits_true] at positive; omega
  | finite negative units representable =>
    cases negative with
    | false => exact .inr ⟨units, representable, rfl⟩
    | true => simp only [position_finite, signedUnits_true] at positive; omega

theorem finite_of_pos {value : Binary64} (positive : 0 < value.position)
    (finite_ : value.isFinite = true) : ∃ units representable,
      value = finite false units representable := by
  rcases infinity_or_finite_of_pos positive with rfl | found
  · simp [isFinite] at finite_
  · exact found

/-- A grid point is rounded to itself. -/
theorem ofUnits_mul_eq_finite (negative : Bool) {units denominator : Nat}
    (positive : 0 < denominator) (representable : IsRepresentable units) :
    ofUnits negative (units * denominator) denominator = finite negative units representable := by
  have rounded := roundUnits_mul_self positive representable.isOnGrid
  unfold ofUnits
  simp only [rounded, representable.1, dite_true]

theorem finite_mul_finite (left right : Bool) {leftUnits rightUnits : Nat} (leftRepresentable)
    (rightRepresentable) :
    finite left leftUnits leftRepresentable * finite right rightUnits rightRepresentable =
      ofUnits (left != right) (leftUnits * rightUnits) unitsPerOne := by
  change mul _ _ = _
  rw [mul]

theorem le_position_mul {left right : Binary64} (leftPositive : 0 < left.position)
    (rightPositive : 0 < right.position) (onGrid : IsOnGrid bound.natAbs)
    (limited : bound.natAbs ≤ overflowLimit)
    (above : bound * unitsPerOne ≤ left.position * right.position) :
    left * right ≠ nan ∧ bound ≤ (left * right).position := by
  have atLimit : infinity false ≠ nan ∧ bound ≤ (infinity false).position := by
    refine ⟨Binary64.noConfusion, ?_⟩
    rw [position_infinity, signedUnits_false]
    omega
  rcases infinity_or_finite_of_pos leftPositive with rfl | ⟨leftUnits, leftRepresentable, rfl⟩
  · rcases infinity_or_finite_of_pos rightPositive with rfl | ⟨units, representable, rfl⟩
    · exact atLimit
    · have product : infinity false * finite false units representable = infinity false := by
        change (if units = 0 then nan else infinity (false != false)) = infinity false
        rw [position_finite, signedUnits_false] at rightPositive
        rw [if_neg (by omega)]
        rfl
      rwa [product]
  · rcases infinity_or_finite_of_pos rightPositive with rfl | ⟨units, representable, rfl⟩
    · have product : finite false leftUnits leftRepresentable * infinity false = infinity false := by
        change (if leftUnits = 0 then nan else infinity (false != false)) = infinity false
        rw [position_finite, signedUnits_false] at leftPositive
        rw [if_neg (by omega)]
        rfl
      rwa [product]
    · rw [finite_mul_finite, bne_self_eq_false]
      refine ⟨ofUnits_ne_nan _ _ _, le_position_ofUnits unitsPerOne_pos onGrid limited ?_⟩
      rwa [signedUnits_false, Int.natCast_mul]

theorem position_mul_le {left right : Binary64} (leftPositive : 0 < left.position)
    (rightPositive : 0 < right.position) (leftFinite : left.isFinite = true)
    (rightFinite : right.isFinite = true) (onGrid : IsOnGrid bound.natAbs)
    (limited : bound.natAbs ≤ overflowLimit)
    (below : left.position * right.position ≤ bound * unitsPerOne) :
    (left * right).position ≤ bound := by
  obtain ⟨leftUnits, leftRepresentable, rfl⟩ := finite_of_pos leftPositive leftFinite
  obtain ⟨rightUnits, rightRepresentable, rfl⟩ := finite_of_pos rightPositive rightFinite
  rw [finite_mul_finite, bne_self_eq_false]
  refine position_ofUnits_le unitsPerOne_pos onGrid limited ?_
  rwa [signedUnits_false, Int.natCast_mul]

theorem finite_div_finite (left right : Bool) {leftUnits rightUnits : Nat} (leftRepresentable)
    (rightRepresentable) (divides : rightUnits ≠ 0) :
    finite left leftUnits leftRepresentable / finite right rightUnits rightRepresentable =
      ofUnits (left != right) (leftUnits * unitsPerOne) rightUnits := by
  change div _ _ = _
  rw [div, if_neg divides, ofQuotient]

/-- A finite value that is not negative has a quotient of that kind by every value above zero. -/
theorem div_nonneg {dividend divisor : Binary64} (dividendFinite : dividend.isFinite = true)
    (nonneg : 0 ≤ dividend.position) (positive : 0 < divisor.position) :
    0 ≤ dividend / divisor := by
  obtain ⟨negative, units, representable, rfl⟩ := exists_finite dividendFinite
  rcases infinity_or_finite_of_pos positive with rfl | ⟨divisorUnits, divisorRepresentable, rfl⟩
  · refine le_iff.2 ⟨zero_ne_nan, Binary64.noConfusion, ?_⟩
    cases negative <;> exact Int.le_refl 0
  · rw [position_finite, signedUnits_false] at positive
    rw [finite_div_finite negative false representable divisorRepresentable (by omega)]
    refine le_iff.2 ⟨zero_ne_nan, ofUnits_ne_nan _ _ _, ?_⟩
    refine le_position_ofUnits (by omega) isOnGrid_zero (Nat.zero_le _) ?_
    rw [position_zero, Int.zero_mul]
    cases negative with
    | false => exact Int.natCast_nonneg _
    | true =>
      rw [position_finite, signedUnits_true] at nonneg
      obtain rfl : units = 0 := by omega
      rw [Nat.zero_mul]
      exact Int.le_refl 0

theorem le_position_div {dividend divisor : Binary64} (dividendPositive : 0 < dividend.position)
    (divisorPositive : 0 < divisor.position) (dividendFinite : dividend.isFinite = true)
    (divisorFinite : divisor.isFinite = true) (onGrid : IsOnGrid bound.natAbs)
    (limited : bound.natAbs ≤ overflowLimit)
    (above : bound * divisor.position ≤ dividend.position * unitsPerOne) :
    bound ≤ (dividend / divisor).position := by
  obtain ⟨units, representable, rfl⟩ := finite_of_pos dividendPositive dividendFinite
  obtain ⟨divisorUnits, divisorRepresentable, rfl⟩ := finite_of_pos divisorPositive divisorFinite
  rw [position_finite, signedUnits_false] at divisorPositive
  rw [finite_div_finite _ _ _ _ (by omega), bne_self_eq_false]
  refine le_position_ofUnits (by omega) onGrid limited ?_
  rwa [signedUnits_false, Int.natCast_mul]

theorem position_div_le {dividend divisor : Binary64} (dividendPositive : 0 < dividend.position)
    (divisorPositive : 0 < divisor.position) (dividendFinite : dividend.isFinite = true)
    (divisorFinite : divisor.isFinite = true) (onGrid : IsOnGrid bound.natAbs)
    (limited : bound.natAbs ≤ overflowLimit)
    (below : dividend.position * unitsPerOne ≤ bound * divisor.position) :
    (dividend / divisor).position ≤ bound := by
  obtain ⟨units, representable, rfl⟩ := finite_of_pos dividendPositive dividendFinite
  obtain ⟨divisorUnits, divisorRepresentable, rfl⟩ := finite_of_pos divisorPositive divisorFinite
  rw [position_finite, signedUnits_false] at divisorPositive
  rw [finite_div_finite _ _ _ _ (by omega), bne_self_eq_false]
  refine position_ofUnits_le (by omega) onGrid limited ?_
  rwa [signedUnits_false, Int.natCast_mul]

/-! ## Zeros -/

open Scalar

theorem isZero_finite_iff {negative : Bool} {units : Nat} {representable} :
    isZero (finite negative units representable) = true ↔ units = 0 := by
  rw [isZero_iff, position_finite]
  have number : finite negative units representable ≠ nan := Binary64.noConfusion
  cases negative <;> simp [number]

theorem isFinite_of_isZero {value : Binary64} (zero : isZero value = true) :
    value.isFinite = true := by
  rw [isZero_iff] at zero
  rw [isFinite_iff, zero.2]
  exact ⟨zero.1, overflowLimit_pos⟩

/-- A quotient of units is rounded to zero exactly if it is at most half a unit. -/
theorem isZero_ofUnits_iff {negative : Bool} {numerator denominator : Nat}
    (positive : 0 < denominator) :
    isZero (ofUnits negative numerator denominator) = true ↔ 2 * numerator ≤ denominator := by
  have limit := overflowLimit_pos
  rw [isZero_iff, ← roundUnits_eq_zero_iff positive, ← Int.natAbs_eq_zero, position_ofUnits,
    natAbs_signedUnits]
  have number := ofUnits_ne_nan negative numerator denominator
  constructor
  · rintro ⟨_, zero⟩
    omega
  · intro zero
    exact ⟨number, by omega⟩

theorem isZero_mul {left right : Binary64} (leftFinite : left.isFinite = true)
    (rightFinite : right.isFinite = true) (either : isZero left = true ∨ isZero right = true) :
    isZero (left * right) = true := by
  obtain ⟨leftNegative, leftUnits, leftRepresentable, rfl⟩ := exists_finite leftFinite
  obtain ⟨rightNegative, rightUnits, rightRepresentable, rfl⟩ := exists_finite rightFinite
  rw [isZero_finite_iff, isZero_finite_iff] at either
  rw [finite_mul_finite, Nat.mul_eq_zero.2 either, isZero_ofUnits_iff unitsPerOne_pos]
  exact Nat.zero_le _

/-- A quotient is rounded to zero exactly if the divisor is that much greater than the dividend. -/
theorem isZero_div_iff {dividend divisor : Binary64} (dividendFinite : dividend.isFinite = true)
    (positive : 0 < divisor.position) (divisorFinite : divisor.isFinite = true) :
    isZero (dividend / divisor) = true ↔
      2 * (dividend.position.natAbs * unitsPerOne) ≤ divisor.position.natAbs := by
  obtain ⟨negative, units, representable, rfl⟩ := exists_finite dividendFinite
  obtain ⟨divisorUnits, divisorRepresentable, rfl⟩ := finite_of_pos positive divisorFinite
  rw [position_finite, signedUnits_false] at positive
  rw [finite_div_finite _ _ _ _ (by omega), isZero_ofUnits_iff (by omega), position_finite,
    position_finite, natAbs_signedUnits, natAbs_signedUnits]

theorem isZero_div {dividend divisor : Binary64} (zero : isZero dividend = true)
    (positive : 0 < divisor.position) (divisorFinite : divisor.isFinite = true) :
    isZero (dividend / divisor) = true := by
  rw [isZero_div_iff (isFinite_of_isZero zero) positive divisorFinite, (isZero_iff.1 zero).2,
    Int.natAbs_zero, Nat.zero_mul]
  exact Nat.zero_le _

/-- A sum of values that are not negative is zero only if both are. -/
theorem isZero_add_iff {left right : Binary64} (leftNonneg : 0 ≤ left) (rightNonneg : 0 ≤ right) :
    isZero (left + right) = true ↔ isZero left = true ∧ isZero right = true := by
  have leftHigh := ne_infinity_of_nonneg leftNonneg
  have rightHigh := ne_infinity_of_nonneg rightNonneg
  rw [le_iff, position_zero] at leftNonneg rightNonneg
  have aboveLeft := le_position_add leftNonneg.2.1 rightNonneg.2.1 leftHigh rightHigh
    (isOnGrid_position left) (natAbs_position_le left) (by omega)
  have aboveRight := le_position_add leftNonneg.2.1 rightNonneg.2.1 leftHigh rightHigh
    (isOnGrid_position right) (natAbs_position_le right) (by omega)
  constructor
  · intro zero
    rw [isZero_iff] at zero ⊢
    rw [isZero_iff]
    exact ⟨⟨leftNonneg.2.1, by omega⟩, rightNonneg.2.1, by omega⟩
  · rintro ⟨leftZero, rightZero⟩
    have exact_ : left.position + right.position ≤ 0 := by
      rw [(isZero_iff.1 leftZero).2, (isZero_iff.1 rightZero).2]
      exact Int.le_refl 0
    have below : (left + right).position ≤ 0 := position_add_le (isFinite_of_isZero leftZero)
      (isFinite_of_isZero rightZero) isOnGrid_zero (Nat.zero_le _) exact_
    exact isZero_iff.2 ⟨aboveLeft.1, by omega⟩

/-! ## Constants -/

theorem unitsPerOne_le_overflowLimit : unitsPerOne ≤ overflowLimit := by
  have power := @two_pow_le_overflowLimit 1074 (by decide)
  rwa [unitsPerOne]

theorem isOnGrid_unitsPerOne : IsOnGrid unitsPerOne := by
  have power := isOnGrid_two_pow 1074
  rwa [unitsPerOne]

theorem natCast_eq (number : Nat) :
    (Nat.cast number : Binary64) = ofUnits false (number * unitsPerOne) 1 := by
  have cast (α : Type) [NatCast α] : (Nat.cast number : α) = NatCast.natCast number := rfl
  have field : (NatCast.natCast number : Binary64) = ofNat number := rfl
  rw [cast, field, ofNat, ofQuotient]

theorem position_one : (1 : Binary64).position = unitsPerOne := by
  change (ofNat 1).position = _
  have rounded := roundUnits_mul_self Nat.one_pos isOnGrid_unitsPerOne
  rw [Nat.mul_comm] at rounded
  rw [ofNat, ofQuotient, position_ofUnits, rounded, Nat.min_eq_left unitsPerOne_le_overflowLimit,
    signedUnits_false]

theorem unitsPerOne_le_position_natCast {number : Nat} (positive : 0 < number) :
    unitsPerOne ≤ (Nat.cast number : Binary64).position := by
  rw [natCast_eq]
  refine le_position_ofUnits Nat.one_pos (by simpa using isOnGrid_unitsPerOne)
    (by simpa using unitsPerOne_le_overflowLimit) ?_
  rw [signedUnits_false, Int.natCast_one, Int.mul_one]
  exact Int.ofNat_le.2 (Nat.le_mul_of_pos_left _ positive)

/-- A finite value of whole units of one is the integer that it has so many of. -/
theorem toInt?_eq {value : Binary64} {number : Int} (isFinite : value.isFinite = true)
    (exactly : value.position = number * unitsPerOne) : value.toInt? = some number := by
  obtain ⟨negative, units, representable, rfl⟩ := exists_finite isFinite
  have one : (unitsPerOne : Int) ≠ 0 := Int.natCast_ne_zero.2 (Nat.ne_of_gt unitsPerOne_pos)
  rw [position_finite] at exactly
  have magnitude : units = number.natAbs * unitsPerOne := by
    rw [← natAbs_signedUnits negative units, exactly, Int.natAbs_mul, Int.natAbs_natCast]
  have scaled : signedUnits negative (number.natAbs * unitsPerOne) =
      signedUnits negative number.natAbs * unitsPerOne := by
    cases negative with
    | false => exact Int.natCast_mul _ _
    | true => rw [signedUnits_true, signedUnits_true, Int.natCast_mul, Int.neg_mul]
  rw [magnitude, scaled] at exactly
  unfold toInt?
  dsimp only
  rw [magnitude, Nat.mul_mod_left, if_pos rfl, Nat.mul_div_cancel _ unitsPerOne_pos,
    Int.eq_of_mul_eq_mul_right one exactly]

theorem ofInt?_eq_some {number : Int} {value : Binary64} (found : ofInt? number = some value) :
    value = ofInt number ∧ value.isFinite = true := by
  unfold ofInt? at found
  dsimp only at found
  split at found
  · next finite_ =>
    cases found
    exact ⟨rfl, finite_⟩
  · cases found

/-- A number that is at least one is no less than one as a value. -/
theorem unitsPerOne_le_position_ofInt {number : Int} (positive : 1 ≤ number) :
    unitsPerOne ≤ (ofInt number).position := by
  have sign : decide (number < 0) = false := decide_eq_false (by omega)
  unfold ofInt ofQuotient
  rw [sign]
  refine le_position_ofUnits Nat.one_pos (by simpa using isOnGrid_unitsPerOne)
    (by simpa using unitsPerOne_le_overflowLimit) ?_
  rw [signedUnits_false, ← Int.natCast_mul, Nat.mul_one]
  exact Int.ofNat_le.2 (Nat.le_mul_of_pos_left _ (by omega))

theorem nonneg_of_position_pos {value : Binary64} (positive : 0 < value.position) : 0 ≤ value :=
  le_iff.2 ⟨zero_ne_nan, ne_nan_of_pos positive, Int.le_of_lt positive⟩

theorem isZero_natCast_zero : isZero (Nat.cast 0 : Binary64) = true := by
  rw [natCast_eq, Nat.zero_mul, isZero_ofUnits_iff Nat.one_pos]
  exact Nat.zero_le _

end HyperbolicAuction.Binary64
