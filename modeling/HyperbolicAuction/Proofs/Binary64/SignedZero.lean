import HyperbolicAuction.Proofs.Binary64.Arithmetic

/-!
# Zeros of either sign

A comparison does not tell the two zeros apart, so numbers of one position may differ in the sign of
a zero. Such a sign is lost as soon as anything but a negative zero is added, or the larger of the
number and one that is not negative is taken.

`SameNumber` is equality up to that sign. Main statements: `sameNumber_iff`, `SameNumber.add`,
`SameNumber.add_eq`, `SameNumber.larger_eq`.
-/

namespace HyperbolicAuction.Binary64

open Scalar

attribute [local irreducible] overflowLimit unitsPerOne

/-- Equal, or both a zero. -/
def SameNumber (left right : Binary64) : Prop :=
  left = right ∨ isZero left = true ∧ isZero right = true

instance (left right : Binary64) : Decidable (left.SameNumber right) :=
  inferInstanceAs (Decidable (left = right ∨ isZero left = true ∧ isZero right = true))

theorem signedUnits_lt_zero {units : Nat} (negative : Bool) (positive : 0 < units) :
    decide (signedUnits negative units < 0) = negative := by
  cases negative with
  | false =>
    rw [signedUnits_false, decide_eq_false_iff_not]
    omega
  | true =>
    rw [signedUnits_true, decide_eq_true_iff]
    omega

theorem ofUnits_eq_finite (negative : Bool) {units : Nat} (representable : IsRepresentable units) :
    ofUnits negative units 1 = finite negative units representable := by
  simpa using ofUnits_mul_eq_finite negative Nat.one_pos representable

/-! ## Adding a zero -/

/-- Adding a zero to what is not a zero itself changes nothing. -/
theorem isZero_add_of_not_isZero {left value : Binary64} (zero : isZero left = true)
    (notZero : isZero value = false) : left + value = value := by
  obtain ⟨leftNegative, leftUnits, leftRepresentable, rfl⟩ :=
    exists_finite (isFinite_of_isZero zero)
  rw [isZero_finite_iff] at zero
  subst zero
  cases value with
  | nan => rfl
  | infinity negative => rfl
  | finite negative units representable =>
    have positive : 0 < units := by
      refine Nat.pos_of_ne_zero fun vanishes => ?_
      rw [isZero_finite_iff.2 vanishes] at notZero
      cases notZero
    obtain ⟨total, totalEq, sum⟩ :=
      finite_add_finite leftNegative negative leftRepresentable representable
    have only : signedUnits leftNegative 0 = 0 := by cases leftNegative <;> rfl
    rw [only, Int.zero_add] at totalEq
    have units_ : total.natAbs = units := by rw [totalEq, natAbs_signedUnits]
    rw [sum, if_neg (by omega), units_, totalEq, signedUnits_lt_zero negative positive]
    exact ofUnits_eq_finite negative representable

/-- Zeros add up to a zero, which is negative only if both are. -/
theorem zero_add_zero (left right : Bool) : zero left + zero right = zero (left && right) := by
  cases left <;> cases right <;> rfl

theorem exists_zero {value : Binary64} (isZero_ : isZero value = true) :
    ∃ negative, value = zero negative := by
  obtain ⟨negative, units, representable, rfl⟩ := exists_finite (isFinite_of_isZero isZero_)
  rw [isZero_finite_iff] at isZero_
  subst isZero_
  exact ⟨negative, rfl⟩

/-- A zero only takes the sign off a negative zero that it is added to. -/
theorem isZero_add_eq {left value : Binary64} (zero_ : isZero left = true)
    (notNegativeZero : value ≠ zero true) : left + value = value := by
  cases valueZero : isZero value with
  | false => exact isZero_add_of_not_isZero zero_ valueZero
  | true =>
    obtain ⟨leftNegative, rfl⟩ := exists_zero zero_
    obtain ⟨negative, rfl⟩ := exists_zero valueZero
    rw [zero_add_zero]
    cases negative with
    | false => rw [Bool.and_false]
    | true => exact absurd rfl notNegativeZero

/-- No quotient of numbers above zero is a negative zero, and none by what is not a number. -/
theorem div_ne_negative_zero {dividend divisor : Binary64} (positive : 0 < dividend.position)
    (divides : divisor = nan ∨ 0 < divisor.position) : dividend / divisor ≠ zero true := by
  rcases divides with rfl | divisorPositive
  · rcases infinity_or_finite_of_pos positive with rfl | ⟨units, representable, rfl⟩ <;>
      exact Binary64.noConfusion
  rcases infinity_or_finite_of_pos positive with rfl | ⟨units, representable, rfl⟩
  · rcases infinity_or_finite_of_pos divisorPositive with
      rfl | ⟨divisorUnits, divisorRepresentable, rfl⟩ <;> exact Binary64.noConfusion
  · rcases infinity_or_finite_of_pos divisorPositive with
      rfl | ⟨divisorUnits, divisorRepresentable, rfl⟩
    · change zero false ≠ zero true
      decide
    · rw [position_finite, signedUnits_false] at divisorPositive
      rw [finite_div_finite _ _ _ _ (by omega)]
      unfold ofUnits
      dsimp only
      split
      · intro equal
        cases equal
      · exact Binary64.noConfusion

/-! ## Equality up to the sign of a zero -/

theorem sameNumber_iff {left right : Binary64} (leftNumber : left ≠ nan) (rightNumber : right ≠ nan) :
    left.SameNumber right ↔ left.position = right.position := by
  constructor
  · rintro (rfl | ⟨leftZero, rightZero⟩)
    · rfl
    · rw [(isZero_iff.1 leftZero).2, (isZero_iff.1 rightZero).2]
  · intro equal
    have limit := overflowLimit_pos
    cases left with
    | nan => exact absurd rfl leftNumber
    | infinity left =>
      cases right with
      | nan => exact absurd rfl rightNumber
      | infinity right =>
        rw [position_infinity, position_infinity] at equal
        rw [← signedUnits_lt_zero left limit, equal, signedUnits_lt_zero right limit]
        exact .inl rfl
      | finite right units representable =>
        have bounded := representable.1
        rw [← natAbs_signedUnits right units, ← position_finite right units representable, ← equal,
          position_infinity, natAbs_signedUnits] at bounded
        omega
    | finite left leftUnits leftRepresentable =>
      cases right with
      | nan => exact absurd rfl rightNumber
      | infinity right =>
        have bounded := leftRepresentable.1
        rw [← natAbs_signedUnits left leftUnits,
          ← position_finite left leftUnits leftRepresentable, equal, position_infinity,
          natAbs_signedUnits] at bounded
        omega
      | finite right rightUnits rightRepresentable =>
        rw [position_finite, position_finite] at equal
        have units : leftUnits = rightUnits := by
          rw [← natAbs_signedUnits left leftUnits, equal, natAbs_signedUnits]
        subst units
        rcases Nat.eq_zero_or_pos leftUnits with vanishes | positive
        · exact .inr ⟨isZero_finite_iff.2 vanishes, isZero_finite_iff.2 vanishes⟩
        · have signs : left = right := by
            rw [← signedUnits_lt_zero left positive, equal, signedUnits_lt_zero right positive]
          subst signs
          exact .inl rfl

namespace SameNumber

variable {left middle right : Binary64}

theorem refl (value : Binary64) : value.SameNumber value := .inl rfl

theorem symm (same : left.SameNumber right) : right.SameNumber left := by
  rcases same with rfl | ⟨leftZero, rightZero⟩
  · exact .inl rfl
  · exact .inr ⟨rightZero, leftZero⟩

theorem trans (first : left.SameNumber middle) (second : middle.SameNumber right) :
    left.SameNumber right := by
  rcases first with rfl | ⟨leftZero, middleZero⟩
  · exact second
  · rcases second with rfl | ⟨_, rightZero⟩
    · exact .inr ⟨leftZero, middleZero⟩
    · exact .inr ⟨leftZero, rightZero⟩

theorem isFinite_eq (same : left.SameNumber right) : left.isFinite = right.isFinite := by
  rcases same with rfl | ⟨leftZero, rightZero⟩
  · rfl
  · rw [isFinite_of_isZero leftZero, isFinite_of_isZero rightZero]

theorem neg (same : left.SameNumber right) : (-left).SameNumber (-right) := by
  rcases same with rfl | ⟨leftZero, rightZero⟩
  · exact .inl rfl
  · obtain ⟨leftNegative, rfl⟩ := exists_zero leftZero
    obtain ⟨rightNegative, rfl⟩ := exists_zero rightZero
    exact .inr ⟨isZero_finite_iff.2 rfl, isZero_finite_iff.2 rfl⟩

/-- Adding a zero changes a number at most in the sign of a zero. -/
theorem isZero_add (zero_ : isZero left = true) (value : Binary64) :
    (left + value).SameNumber value := by
  cases valueZero : isZero value with
  | false => exact .inl (isZero_add_of_not_isZero zero_ valueZero)
  | true =>
    obtain ⟨leftNegative, rfl⟩ := exists_zero zero_
    obtain ⟨negative, rfl⟩ := exists_zero valueZero
    rw [zero_add_zero]
    exact .inr ⟨isZero_finite_iff.2 rfl, isZero_finite_iff.2 rfl⟩

theorem add_right (same : left.SameNumber right) (value : Binary64) :
    (left + value).SameNumber (right + value) := by
  rcases same with rfl | ⟨leftZero, rightZero⟩
  · exact .inl rfl
  · exact (isZero_add leftZero value).trans (isZero_add rightZero value).symm

theorem add {otherLeft otherRight : Binary64} (same : left.SameNumber right)
    (otherSame : otherLeft.SameNumber otherRight) :
    (left + otherLeft).SameNumber (right + otherRight) := by
  refine (same.add_right otherLeft).trans ?_
  rw [add_comm right otherLeft, add_comm right otherRight]
  exact otherSame.add_right right

theorem sub {otherLeft otherRight : Binary64} (same : left.SameNumber right)
    (otherSame : otherLeft.SameNumber otherRight) :
    (left - otherLeft).SameNumber (right - otherRight) :=
  same.add otherSame.neg

/-- The sign of a zero is lost in a sum with anything but a negative zero. -/
theorem add_eq (same : left.SameNumber right) {value : Binary64}
    (notNegativeZero : value ≠ zero true) : left + value = right + value := by
  rcases same with rfl | ⟨leftZero, rightZero⟩
  · rfl
  · rw [isZero_add_eq leftZero notNegativeZero, isZero_add_eq rightZero notNegativeZero]

/-- The sign of a zero is lost where the larger of it and a number that is not negative is taken. -/
theorem larger_eq (same : left.SameNumber right) {least : Binary64} (nonneg : 0 ≤ least) :
    larger least left = larger least right := by
  rcases same with rfl | ⟨leftZero, rightZero⟩
  · rfl
  · have notLess {value : Binary64} (zero_ : isZero value = true) : ¬ least < value := by
      rw [lt_iff, (isZero_iff.1 zero_).2]
      rw [le_iff, position_zero] at nonneg
      omega
    unfold larger
    rw [if_neg (notLess leftZero), if_neg (notLess rightZero)]

end SameNumber

end HyperbolicAuction.Binary64
