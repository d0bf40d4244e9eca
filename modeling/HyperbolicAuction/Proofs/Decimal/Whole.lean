import HyperbolicAuction.Decimal.Basic
import Mathlib.Algebra.Order.Field.Power
import Mathlib.Algebra.Order.Field.Rat
import Mathlib.Tactic.Linarith

/-!
# Whole decimal numbers

A decimal number that is an integer is recognised as one and truncated to it, however its zeros are
shared between coefficient and exponent.

Main statement: `truncate_of_rational`.
-/

namespace HyperbolicAuction.Decimal

/-- The rational number that a finite decimal number is. -/
def rational (negative : Bool) (coefficient : Nat) (exponent : Int) : Rat :=
  (if negative then -(coefficient : Rat) else coefficient) * 10 ^ exponent

variable {negative : Bool} {coefficient number : Nat} {exponent : Int}

/-- What is not negative as a number has a sign only before a zero. -/
theorem coefficient_of_negative (exactly : rational true coefficient exponent = number) :
    coefficient = 0 := by
  have power : (0 : Rat) < 10 ^ exponent := zpow_pos (by decide) exponent
  have product : -(coefficient : Rat) * 10 ^ exponent = number := exactly
  have least : (0 : Rat) ≤ number := Nat.cast_nonneg number
  have most : (0 : Rat) ≤ coefficient * 10 ^ exponent :=
    mul_nonneg (Nat.cast_nonneg coefficient) (le_of_lt power)
  have vanishes : (coefficient : Rat) * 10 ^ exponent = 0 := by linarith
  exact Nat.cast_eq_zero.1 ((mul_eq_zero.1 vanishes).resolve_right (ne_of_gt power))

/-- The exponent counts zeros, on one side of the point or on the other. -/
theorem scaled_of_rational (exactly : rational negative coefficient exponent = number) :
    coefficient * 10 ^ exponent.toNat = number * 10 ^ (-exponent).toNat := by
  have magnitude : (coefficient : Rat) * 10 ^ exponent = number := by
    cases negative with
    | false => exact exactly
    | true =>
      rw [← exactly, coefficient_of_negative exactly]
      simp [rational]
  have split : (10 : Rat) ^ exponent * 10 ^ (-exponent).toNat = 10 ^ exponent.toNat := by
    rw [← zpow_natCast, ← zpow_natCast, ← zpow_add₀ (by decide)]
    congr 1
    omega
  have scaled : (coefficient : Rat) * 10 ^ exponent.toNat = number * 10 ^ (-exponent).toNat := by
    rw [← magnitude, ← split, mul_assoc]
  exact_mod_cast scaled

/-- A coefficient that ends in a zero for each place has a digit beyond them, unless it is zero. -/
theorem not_leading_neg
    (scaled : coefficient * 10 ^ exponent.toNat = number * 10 ^ (-exponent).toNat)
    (positive : 0 < number) : ¬ leading coefficient exponent < 0 := by
  have some_ := @Nat.length_toDigits_pos 10 coefficient
  unfold leading digits
  rcases Int.le_total 0 exponent with grows | shrinks
  · omega
  · rcases Nat.eq_zero_or_pos (-exponent).toNat with none_ | places
    · omega
    · rw [Int.toNat_of_nonpos shrinks, Nat.pow_zero, Nat.mul_one] at scaled
      have least : 10 ^ (-exponent).toNat ≤ coefficient := by
        rw [scaled]
        exact Nat.le_mul_of_pos_left _ positive
      have long := mt (Nat.length_toDigits_le_iff (by decide) places).1 (Nat.not_lt.2 least)
      omega

theorem coefficient_mod
    (scaled : coefficient * 10 ^ exponent.toNat = number * 10 ^ (-exponent).toNat) :
    coefficient % 10 ^ (-exponent).toNat = 0 := by
  rcases Int.le_total 0 exponent with grows | shrinks
  · rw [Int.toNat_of_nonpos (Int.neg_nonpos_of_nonneg grows), Nat.pow_zero, Nat.mod_one]
  · rw [Int.toNat_of_nonpos shrinks, Nat.pow_zero, Nat.mul_one] at scaled
    rw [scaled, Nat.mul_mod_left]

theorem whole_of_scaled
    (scaled : coefficient * 10 ^ exponent.toNat = number * 10 ^ (-exponent).toNat) :
    isWhole coefficient exponent = true ∧ wholePart coefficient exponent = number := by
  have powerPos (places : Nat) : 0 < 10 ^ places := Nat.pow_pos (by decide)
  rcases Nat.eq_zero_or_pos coefficient with rfl | positive
  · rw [Nat.zero_mul] at scaled
    have vanishes := (Nat.mul_eq_zero.1 scaled.symm).resolve_right (Nat.ne_of_gt (powerPos _))
    refine ⟨rfl, ?_⟩
    rw [wholePart, if_pos (.inl rfl), vanishes]
  · have numberPos : 0 < number := by
      refine Nat.pos_of_ne_zero ?_
      rintro rfl
      rw [Nat.zero_mul] at scaled
      exact absurd scaled (Nat.ne_of_gt (Nat.mul_pos positive (powerPos _)))
    have leads := not_leading_neg scaled numberPos
    constructor
    · rw [isWhole, if_neg (Nat.ne_of_gt positive), if_neg leads, coefficient_mod scaled]
      rfl
    · rw [wholePart, if_neg (not_or.2 ⟨Nat.ne_of_gt positive, leads⟩), scaled,
        Nat.mul_div_cancel _ (powerPos _)]

/-- A decimal number that is a natural number has no fraction, and truncating leaves that number. -/
theorem truncate_of_rational (exactly : rational negative coefficient exponent = number) :
    isWhole coefficient exponent = true ∧ truncate negative coefficient exponent = number := by
  obtain ⟨whole, part⟩ := whole_of_scaled (scaled_of_rational exactly)
  refine ⟨whole, ?_⟩
  rw [truncate, part]
  cases negative with
  | false => rfl
  | true =>
    obtain rfl := coefficient_of_negative exactly
    have vanishes : number = 0 := part.symm.trans (if_pos (.inl rfl))
    rw [vanishes]
    rfl

end HyperbolicAuction.Decimal
