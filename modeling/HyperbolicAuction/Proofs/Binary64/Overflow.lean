import HyperbolicAuction.Proofs.Binary64.Arithmetic

/-!
# Beyond the finite values

The greatest finite magnitude lies one step below the overflow limit, and its significand is odd. A
quotient is rounded beyond the finite magnitudes from the midpoint of the two on, the midpoint
included; for natural numbers that is from `2 ^ 1024 - 2 ^ 970` on.

Main statements: `overflowLimit_le_roundUnits_iff`, `ofInt?_eq_none_iff`.
-/

namespace HyperbolicAuction.Binary64

variable {numerator denominator : Nat}

/-- The midpoint of the greatest finite magnitude and the overflow limit. -/
def overflowMidpoint : Nat := (2 ^ 54 - 1) * 2 ^ 2044

/-- Around quotients of the last binade the grid points are `2 ^ 2045` units apart. -/
theorem roundUnits_lastBinade {exponent : Nat} (positive : 0 < denominator)
    (above : 2 ^ (exponent + 53) * denominator ≤ numerator)
    (below : numerator < 2 ^ (exponent + 54) * denominator) :
    roundUnits numerator denominator =
      nearestEven numerator (denominator * 2 ^ (exponent + 1)) * 2 ^ (exponent + 1) := by
  have wholeAbove : 2 ^ (exponent + 53) ≤ numerator / denominator :=
    (Nat.le_div_iff_mul_le positive).2 above
  have wholeBelow : numerator / denominator < 2 ^ (exponent + 53 + 1) :=
    (Nat.div_lt_iff_lt_mul positive).2 below
  have some_ : numerator / denominator ≠ 0 :=
    Nat.ne_of_gt (Nat.lt_of_lt_of_le (Nat.two_pow_pos _) wholeAbove)
  have binade : (numerator / denominator).log2 = exponent + 53 :=
    (Nat.log2_eq_iff some_).2 ⟨wholeAbove, wholeBelow⟩
  have step : exponent + 53 - 52 = exponent + 1 := by omega
  unfold roundUnits spacing
  rw [binade, step]

/-- A quotient is rounded beyond the finite magnitudes exactly from the midpoint on: the greatest
finite magnitude has an odd significand, so the midpoint itself is rounded up. -/
theorem overflowLimit_le_roundUnits_iff (positive : 0 < denominator) :
    overflowLimit ≤ roundUnits numerator denominator ↔
      overflowMidpoint * denominator ≤ numerator := by
  obtain ⟨exponent, exponent_eq⟩ : ∃ exponent, exponent = 2044 := ⟨_, rfl⟩
  have limit : overflowLimit = 2 ^ (exponent + 54) := by rw [overflowLimit, exponent_eq]
  have midpoint : overflowMidpoint = (2 ^ 54 - 1) * 2 ^ exponent := by
    rw [overflowMidpoint, exponent_eq]
  have grown (more : Nat) : 2 ^ (exponent + more) = 2 ^ more * 2 ^ exponent := by
    rw [Nat.pow_add, Nat.mul_comm]
  have unit : 0 < 2 ^ exponent := Nat.two_pow_pos exponent
  have product : 0 < 2 ^ exponent * denominator := Nat.mul_pos unit positive
  rw [limit, midpoint]
  rcases Nat.lt_or_ge numerator (2 ^ (exponent + 53) * denominator) with small | large
  · have low : roundUnits numerator denominator ≤ 2 ^ (exponent + 53) :=
      roundUnits_le_of_le_mul positive (isOnGrid_two_pow _) (Nat.le_of_lt small)
    rw [grown, Nat.mul_assoc] at small
    rw [grown] at low ⊢
    rw [Nat.mul_assoc]
    omega
  · rcases Nat.lt_or_ge numerator (2 ^ (exponent + 54) * denominator) with within | beyond
    · rw [roundUnits_lastBinade positive large within, grown 54, grown 1]
      have doubled : denominator * (2 ^ 1 * 2 ^ exponent) = 2 * (2 ^ exponent * denominator) := by
        rw [Nat.pow_one, Nat.mul_comm, Nat.mul_assoc]
      rw [doubled, Nat.mul_assoc]
      constructor
      · intro rounded
        refine Nat.le_of_not_lt fun less => ?_
        have kept : nearestEven numerator (2 * (2 ^ exponent * denominator)) ≤ 2 ^ 53 - 1 :=
          nearestEven_le_of_lt_midpoint (by omega) (by omega)
        have scaled := Nat.mul_le_mul_right (2 ^ 1 * 2 ^ exponent) kept
        omega
      · intro reached
        have passed : 2 ^ 53 - 1 < nearestEven numerator (2 * (2 ^ exponent * denominator)) :=
          lt_nearestEven_of_midpoint_le (by omega) (by decide) (by omega)
        have scaled := Nat.mul_le_mul_right (2 ^ 1 * 2 ^ exponent) passed
        omega
    · have high : 2 ^ (exponent + 54) ≤ roundUnits numerator denominator :=
        le_roundUnits_of_mul_le positive (isOnGrid_two_pow _) beyond
      rw [grown, Nat.mul_assoc] at beyond
      rw [Nat.mul_assoc]
      omega

/-- The least natural number that no finite value is nearest to. -/
def leastInfinite : Nat := 2 ^ 1024 - 2 ^ 970

theorem leastInfinite_mul_unitsPerOne : leastInfinite * unitsPerOne = overflowMidpoint := by
  decide +kernel

attribute [local irreducible] overflowLimit unitsPerOne overflowMidpoint leastInfinite

theorem isFinite_ofUnits_iff {negative : Bool} :
    (ofUnits negative numerator denominator).isFinite = true ↔
      roundUnits numerator denominator < overflowLimit := by
  unfold ofUnits
  dsimp only
  split
  · next bounded => simp [isFinite, bounded]
  · next beyond => simp [isFinite, beyond]

/-- A natural number is too great for a finite value exactly from `leastInfinite` on. -/
theorem ofInt?_eq_none_iff (number : Nat) : ofInt? number = none ↔ leastInfinite ≤ number := by
  have sign : decide ((number : Int) < 0) = false := decide_eq_false (by omega)
  have rounded : (ofInt number).isFinite = true ↔ number < leastInfinite := by
    unfold ofInt ofQuotient
    rw [sign, Int.natAbs_natCast, isFinite_ofUnits_iff, ← Nat.not_le,
      overflowLimit_le_roundUnits_iff Nat.one_pos, Nat.mul_one, ← leastInfinite_mul_unitsPerOne,
      Nat.not_le]
    exact Nat.mul_lt_mul_right unitsPerOne_pos
  unfold ofInt?
  dsimp only
  split
  · next finite_ => simp [rounded.1 finite_]
  · next infinite => simpa using fun less => infinite (rounded.2 less)

end HyperbolicAuction.Binary64
