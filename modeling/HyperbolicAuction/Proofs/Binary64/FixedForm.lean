import HyperbolicAuction.Binary64.Bits
import HyperbolicAuction.Binary64.Text
import HyperbolicAuction.Proofs.Binary64.Nearest
import HyperbolicAuction.Proofs.Decimal.Numeral

/-!
# Values with a set number of places

A value is written in the fixed form by counting the hundredths, say, that are nearest to it, and of
two counts equally near by taking the even one. `IsNearestCount` says so of rational numbers. Counts
are in the order of the numbers they are nearest to, hence so are values in writing; and the sign
bit is written even where the count is zero.

Main statements: `exists_fixedForm`, `fixedText?_eq_none_iff`, and `IsFixedForm.value_le`.
-/

namespace HyperbolicAuction

/-! ## Nearest counts -/

/-- A count of parts, so many to one, is nearest to a number, and of two equally near it is even. -/
structure IsNearestCount (parts : Nat) (number : ℚ) (count : ℤ) : Prop where
  least : ∀ other : ℤ, |(count / parts : ℚ) - number| ≤ |(other / parts : ℚ) - number|
  even : ∀ other : ℤ, other ≠ count →
    |(other / parts : ℚ) - number| = |(count / parts : ℚ) - number| → Even count

theorem isNearestCount_nearestEven {numerator denominator parts : Nat} (partsPositive : 0 < parts)
    (positive : 0 < denominator) :
    IsNearestCount parts (numerator / denominator)
      (nearestEven (numerator * parts) denominator) := by
  have divisor : (0 : ℚ) < parts * denominator :=
    mul_pos (Nat.cast_pos.2 partsPositive) (Nat.cast_pos.2 positive)
  constructor
  · intro other
    rw [Binary64.abs_div_sub_div partsPositive positive,
      Binary64.abs_div_sub_div partsPositive positive, div_le_div_iff_of_pos_right divisor,
      Nat.cast_le]
    exact offBy_nearestEven_le positive other
  · intro other apart tie
    rw [Binary64.abs_div_sub_div partsPositive positive,
      Binary64.abs_div_sub_div partsPositive positive, div_left_inj' divisor.ne',
      Nat.cast_inj] at tie
    rw [Int.even_coe_nat, Nat.even_iff]
    exact nearestEven_even_of_tie positive apart (Nat.le_of_eq tie)

namespace IsNearestCount

variable {parts : Nat} {number lesser greater : ℚ} {count low high : ℤ}

theorem abs_neg_div_sub_neg (count : ℤ) (parts : Nat) (number : ℚ) :
    |((-count : ℤ) / parts : ℚ) - -number| = |(count / parts : ℚ) - number| := by
  rw [Int.cast_neg, neg_div, neg_sub_neg, abs_sub_comm]

/-- The other sign makes no difference. -/
theorem neg (nearest : IsNearestCount parts number count) :
    IsNearestCount parts (-number) (-count) := by
  have opposite (other : ℤ) :
      |(other / parts : ℚ) - -number| = |((-other : ℤ) / parts : ℚ) - number| := by
    rw [← abs_neg_div_sub_neg (-other), neg_neg]
  constructor
  · intro other
    rw [abs_neg_div_sub_neg, opposite other]
    exact nearest.least (-other)
  · intro other apart tie
    rw [abs_neg_div_sub_neg, opposite other] at tie
    exact (nearest.even (-other) (fun same => apart (neg_eq_iff_eq_neg.1 same)) tie).neg

/-! What is nearer to a number than another lies beyond the midpoint of the two, seen from it. -/

theorem add_le_of_near (less : lesser < greater) (near : |greater - number| ≤ |lesser - number|) :
    lesser + greater ≤ 2 * number := by
  by_contra beyond
  rw [abs_of_pos (by linarith : 0 < greater - number), le_abs] at near
  rcases near with above | below <;> linarith

theorem le_add_of_near (less : lesser < greater) (near : |lesser - number| ≤ |greater - number|) :
    2 * number ≤ lesser + greater := by
  by_contra beyond
  rw [abs_of_neg (by linarith : lesser - number < 0), le_abs] at near
  rcases near with above | below <;> linarith

theorem div_parts_lt (positive : 0 < parts) :
    (low / parts : ℚ) < high / parts ↔ low < high := by
  rw [div_lt_div_iff_of_pos_right (Nat.cast_pos.2 positive), Int.cast_lt]

/-- Of two counts nearest to one number neither is the lesser: both would be even, and the count
after the lesser one would be nearer. -/
theorem not_lt (positive : 0 < parts) (isLow : IsNearestCount parts number low)
    (isHigh : IsNearestCount parts number high) : ¬ low < high := by
  intro less
  have tie : |(high / parts : ℚ) - number| = |(low / parts : ℚ) - number| :=
    le_antisymm (isHigh.least low) (isLow.least high)
  have between : low + 1 < high := by
    obtain ⟨lowHalf, lowEven⟩ := isLow.even high less.ne' tie
    obtain ⟨highHalf, highEven⟩ := isHigh.even low less.ne tie.symm
    omega
  have fromHigh := add_le_of_near ((div_parts_lt positive).2 between) (isHigh.least (low + 1))
  have fromLow := le_add_of_near ((div_parts_lt positive).2 less) (isLow.least high)
  have next := (div_parts_lt positive).2 (lt_add_one low)
  linarith

/-- A greater number has no lesser count: else one number would be midway between the two. -/
theorem mono (positive : 0 < parts) (ordered : number ≤ greater)
    (isLow : IsNearestCount parts number low) (isHigh : IsNearestCount parts greater high) :
    low ≤ high := by
  by_contra crossed
  have less : high < low := not_le.1 crossed
  have fromLow := add_le_of_near ((div_parts_lt positive).2 less) (isLow.least high)
  have fromHigh := le_add_of_near ((div_parts_lt positive).2 less) (isHigh.least low)
  have same : greater = number := by linarith
  rw [same] at isHigh
  exact isHigh.not_lt positive isLow less

end IsNearestCount

namespace Binary64

attribute [local irreducible] overflowLimit unitsPerOne

variable {value lesser greater : Binary64} {places : Nat} {low high : Decimal.SignedNumeral}

/-! ## The sign bit -/

theorem overflowLimit_le_two_pow {exponent : Nat} (high : 2098 ≤ exponent) :
    overflowLimit ≤ 2 ^ exponent := by
  have raised := Nat.pow_le_pow_right Nat.zero_lt_two high
  rwa [overflowLimit]

/-- The bits of a magnitude stay below the sign bit. -/
theorem magnitudeBits_lt {units : Nat} (representable : IsRepresentable units) :
    magnitudeBits units < 2 ^ 63 := by
  unfold magnitudeBits
  split
  · next subnormal => exact Nat.lt_trans subnormal (by decide)
  · next normal =>
    have some_ : units ≠ 0 := by
      rintro rfl
      exact normal (Nat.two_pow_pos 52)
    have exponent : units.log2 < 2098 := by
      by_contra high
      have beyond := overflowLimit_le_two_pow (Nat.not_lt.1 high)
      have reached := Nat.le_trans beyond (Nat.log2_self_le some_)
      exact absurd representable.1 (Nat.not_lt.2 reached)
    have significand : units / 2 ^ (units.log2 - 52) < 2 ^ 53 := div_spacing_lt units
    dsimp only
    omega

theorem testBit_toBits_finite (negative : Bool) (units : Nat) (representable) :
    (finite negative units representable).toBits.testBit 63 = negative := by
  have bounded := magnitudeBits_lt representable
  unfold toBits
  dsimp only
  rw [Nat.mul_comm, Nat.testBit_two_pow_mul_add _ bounded]
  cases negative <;> rfl

/-! ## The fixed form -/

/-- A signed numeral is a value with some places, rounded to nearest and ties to even. -/
structure IsFixedForm (places : Nat) (value : Binary64) (amount : Decimal.SignedNumeral) :
    Prop where
  length : amount.numeral.fraction.length = places
  sign : amount.negative = value.toBits.testBit 63
  rounded : ∃ count : ℤ, amount.value = count / (10 ^ places : Nat) ∧
    IsNearestCount (10 ^ places) value.rational count

/-- A finite value has a fixed form. -/
theorem exists_fixedForm (finite_ : value.isFinite = true) (places : Nat) :
    ∃ amount : Decimal.SignedNumeral,
      fixedText? places value = some amount.text ∧ IsFixedForm places value amount := by
  obtain ⟨negative, units, representable, rfl⟩ := exists_finite finite_
  obtain ⟨numeral, written, length, value⟩ := Decimal.exists_numeral_toDigits
    (nearestEven (units * 10 ^ places) unitsPerOne) places
  have nearest := @isNearestCount_nearestEven units unitsPerOne (10 ^ places)
    (Nat.pow_pos (by decide)) unitsPerOne_pos
  refine ⟨⟨negative, numeral⟩, ?_, length, (testBit_toBits_finite _ _ _).symm, ?_⟩
  · unfold fixedText? Decimal.SignedNumeral.text
    dsimp only
    rw [written]
  · cases negative with
    | false =>
      refine ⟨nearestEven (units * 10 ^ places) unitsPerOne, ?_, ?_⟩
      · rw [Int.cast_natCast, Nat.cast_pow, Nat.cast_ofNat]
        exact value
      · rwa [rational, position_finite, signedUnits_false, Int.cast_natCast]
    | true =>
      refine ⟨-nearestEven (units * 10 ^ places) unitsPerOne, ?_, ?_⟩
      · rw [Int.cast_neg, Int.cast_natCast, Nat.cast_pow, Nat.cast_ofNat, neg_div]
        exact neg_inj.2 value
      · rw [rational, position_finite, signedUnits_true, Int.cast_neg, Int.cast_natCast, neg_div]
        exact nearest.neg

theorem fixedText?_eq_none_iff : fixedText? places value = none ↔ value.isFinite = false := by
  cases value with
  | finite => exact iff_of_false (fun none_ => nomatch none_) fun infinite => nomatch infinite
  | _ => exact iff_of_true rfl rfl

/-- A greater value is written as no lesser number. -/
theorem IsFixedForm.value_le (ordered : lesser ≤ greater) (isLow : IsFixedForm places lesser low)
    (isHigh : IsFixedForm places greater high) : low.value ≤ high.value := by
  obtain ⟨lowCount, lowValue, lowNearest⟩ := isLow.rounded
  obtain ⟨highCount, highValue, highNearest⟩ := isHigh.rounded
  have power : 0 < 10 ^ places := Nat.pow_pos (by decide)
  rw [lowValue, highValue, div_le_div_iff_of_pos_right (Nat.cast_pos.2 power), Int.cast_le]
  exact lowNearest.mono power (rational_le.2 (le_iff.1 ordered).2.2) highNearest

end Binary64

end HyperbolicAuction
