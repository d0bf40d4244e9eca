import HyperbolicAuction.Basic

/-!
# Laws of rounding a quotient

A rounded quotient stays on the same side of every whole number as the quotient itself, and the
rounded value of a greater quotient is no less. Between two whole numbers the midpoint decides. No
whole number is nearer to a quotient than the rounded one, which is even where another is as near.
-/

namespace HyperbolicAuction

variable {numerator denominator whole : Nat}

theorem nearestEven_le_of_le_mul (positive : 0 < denominator)
    (below : numerator ≤ whole * denominator) : nearestEven numerator denominator ≤ whole := by
  have quotientLe : numerator / denominator ≤ whole := by
    calc numerator / denominator ≤ whole * denominator / denominator := Nat.div_le_div_right below
      _ = whole := Nat.mul_div_cancel _ positive
  have successor := nearestEven_le_div_succ numerator denominator
  rcases Nat.lt_or_eq_of_le quotientLe with less | equal
  · exact Nat.le_trans successor less
  · -- the quotient reaches `whole`, so it is whole itself and nothing is rounded
    have reached : whole * denominator ≤ numerator :=
      (Nat.le_div_iff_mul_le positive).1 (Nat.le_of_eq equal.symm)
    have exact_ : numerator = whole * denominator := Nat.le_antisymm below reached
    exact Nat.le_of_eq (by rw [exact_, nearestEven_mul_self whole positive])

theorem le_nearestEven_of_mul_le (positive : 0 < denominator)
    (above : whole * denominator ≤ numerator) : whole ≤ nearestEven numerator denominator :=
  Nat.le_trans ((Nat.le_div_iff_mul_le positive).2 above) (div_le_nearestEven _ _)

/-- A proper quotient is rounded to zero exactly if it is at most a half, since zero is even. -/
theorem nearestEven_eq_zero_iff (small : numerator < denominator) :
    nearestEven numerator denominator = 0 ↔ 2 * numerator ≤ denominator := by
  unfold nearestEven
  rw [Nat.div_eq_of_lt small, Nat.mod_eq_of_lt small]
  dsimp only
  split <;> omega

/-- The whole part of a quotient is no greater than that of a greater one. -/
theorem div_le_div_of_mul_le {other otherDenominator : Nat} (positive : 0 < denominator)
    (otherPositive : 0 < otherDenominator)
    (ordered : numerator * otherDenominator ≤ other * denominator) :
    numerator / denominator ≤ other / otherDenominator := by
  rw [Nat.le_div_iff_mul_le otherPositive]
  refine Nat.le_of_mul_le_mul_right ?_ positive
  calc numerator / denominator * otherDenominator * denominator
      = numerator / denominator * denominator * otherDenominator := Nat.mul_right_comm ..
    _ ≤ numerator * otherDenominator :=
      Nat.mul_le_mul_right _ (Nat.div_mul_le_self numerator denominator)
    _ ≤ other * denominator := ordered

/-- Rounding adds at most half of the denominator. -/
theorem two_mul_nearestEven_mul_le (numerator denominator : Nat) :
    2 * (nearestEven numerator denominator * denominator) ≤ 2 * numerator + denominator := by
  have split := Nat.div_add_mod' numerator denominator
  unfold nearestEven
  dsimp only
  split
  · omega
  · rw [Nat.add_mul, Nat.one_mul]
    omega

/-- Rounding takes away at most half of the denominator. -/
theorem two_mul_le_nearestEven_mul (numerator : Nat) (positive : 0 < denominator) :
    2 * numerator ≤ 2 * (nearestEven numerator denominator * denominator) + denominator := by
  have split := Nat.div_add_mod' numerator denominator
  have rest := Nat.mod_lt numerator positive
  unfold nearestEven
  dsimp only
  split
  · omega
  · rw [Nat.add_mul, Nat.one_mul]
    omega

theorem nearestEven_mono {other otherDenominator : Nat} (positive : 0 < denominator)
    (otherPositive : 0 < otherDenominator)
    (ordered : numerator * otherDenominator ≤ other * denominator) :
    nearestEven numerator denominator ≤ nearestEven other otherDenominator := by
  rcases Nat.lt_or_eq_of_le (div_le_div_of_mul_le positive otherPositive ordered) with less | equal
  · calc nearestEven numerator denominator ≤ numerator / denominator + 1 :=
        nearestEven_le_div_succ _ _
      _ ≤ other / otherDenominator := less
      _ ≤ nearestEven other otherDenominator := div_le_nearestEven _ _
  · -- the whole parts agree, so the rests decide
    have rests : numerator % denominator * otherDenominator
        ≤ other % otherDenominator * denominator := by
      have left := Nat.div_add_mod' numerator denominator
      have right := Nat.div_add_mod' other otherDenominator
      rw [← left, ← right, equal, Nat.add_mul, Nat.add_mul,
        Nat.mul_right_comm _ otherDenominator denominator] at ordered
      exact Nat.le_of_add_le_add_left ordered
    have doubled : 2 * (numerator % denominator) * otherDenominator
        ≤ denominator * (2 * (other % otherDenominator)) := by
      calc 2 * (numerator % denominator) * otherDenominator
          = 2 * (numerator % denominator * otherDenominator) := Nat.mul_assoc ..
        _ ≤ 2 * (other % otherDenominator * denominator) := Nat.mul_le_mul_left 2 rests
        _ = denominator * (2 * (other % otherDenominator)) := by
          rw [Nat.mul_comm (other % otherDenominator), Nat.mul_left_comm]
    have half (reached : denominator ≤ 2 * (numerator % denominator)) :
        otherDenominator ≤ 2 * (other % otherDenominator) :=
      Nat.le_of_mul_le_mul_left (Nat.le_trans (Nat.mul_le_mul_right _ reached) doubled) positive
    have beyondHalf (passed : denominator < 2 * (numerator % denominator)) :
        otherDenominator < 2 * (other % otherDenominator) :=
      Nat.lt_of_mul_lt_mul_left
        (Nat.lt_of_lt_of_le (Nat.mul_lt_mul_of_pos_right passed otherPositive) doubled)
    simp only [nearestEven, equal]
    split <;> split <;> omega

/-! ## Midpoints -/

/-- What lies below the midpoint after a whole number is rounded to no more than that number. -/
theorem nearestEven_le_of_lt_midpoint (positive : 0 < denominator)
    (below : 2 * numerator < (2 * whole + 1) * denominator) :
    nearestEven numerator denominator ≤ whole := by
  have split := Nat.div_add_mod' numerator denominator
  have quotientLe : numerator / denominator ≤ whole := by
    refine Nat.lt_succ_iff.1 ((Nat.div_lt_iff_lt_mul positive).2 ?_)
    rw [Nat.add_mul, Nat.mul_assoc] at below
    rw [Nat.succ_mul]
    omega
  rcases Nat.lt_or_eq_of_le quotientLe with less | equal
  · exact Nat.le_trans (nearestEven_le_div_succ numerator denominator) less
  · have rest : 2 * (numerator % denominator) < denominator := by
      rw [equal] at split
      rw [Nat.add_mul, Nat.mul_assoc] at below
      omega
    refine Nat.le_of_eq ?_
    unfold nearestEven
    dsimp only
    rw [if_pos (.inl rest), equal]

/-- What reaches the midpoint after an odd number is rounded to more than that number. -/
theorem lt_nearestEven_of_midpoint_le (positive : 0 < denominator) (odd : whole % 2 = 1)
    (above : (2 * whole + 1) * denominator ≤ 2 * numerator) :
    whole < nearestEven numerator denominator := by
  have split := Nat.div_add_mod' numerator denominator
  have wholeLe : whole ≤ numerator / denominator := by
    refine (Nat.le_div_iff_mul_le positive).2 ?_
    rw [Nat.add_mul, Nat.mul_assoc] at above
    omega
  rcases Nat.lt_or_eq_of_le wholeLe with less | equal
  · exact Nat.lt_of_lt_of_le less (div_le_nearestEven numerator denominator)
  · have rest : denominator ≤ 2 * (numerator % denominator) := by
      rw [← equal] at split
      rw [Nat.add_mul, Nat.mul_assoc] at above
      omega
    unfold nearestEven
    dsimp only
    rw [← equal, if_neg (by omega)]
    omega

/-! ## Distances -/

/-- How far a whole number is from a quotient, in parts of the denominator. -/
def offBy (numerator denominator : Nat) (whole : Int) : Nat :=
  (whole * denominator - numerator).natAbs

theorem two_mul_offBy_nearestEven_le (positive : 0 < denominator) :
    2 * offBy numerator denominator (nearestEven numerator denominator) ≤ denominator := by
  have added := two_mul_nearestEven_mul_le numerator denominator
  have taken := two_mul_le_nearestEven_mul numerator positive
  unfold offBy
  rw [← Int.natCast_mul]
  omega

/-- Any other whole number is as far away as the denominator, less the error of rounding. -/
theorem denominator_le_offBy_add {whole : Int} (apart : whole ≠ nearestEven numerator denominator) :
    denominator ≤ offBy numerator denominator whole +
      offBy numerator denominator (nearestEven numerator denominator) := by
  unfold offBy
  rcases Int.lt_or_gt_of_ne apart with less | greater
  · have scaled := Int.mul_le_mul_of_nonneg_right (Int.add_one_le_of_lt less)
      (Int.natCast_nonneg denominator)
    rw [Int.add_mul, Int.one_mul] at scaled
    omega
  · have scaled := Int.mul_le_mul_of_nonneg_right (Int.add_one_le_of_lt greater)
      (Int.natCast_nonneg denominator)
    rw [Int.add_mul, Int.one_mul] at scaled
    omega

/-- No whole number is nearer to a quotient than the rounded one. -/
theorem offBy_nearestEven_le (positive : 0 < denominator) (whole : Int) :
    offBy numerator denominator (nearestEven numerator denominator) ≤
      offBy numerator denominator whole := by
  by_cases same : whole = nearestEven numerator denominator
  · exact Nat.le_of_eq (congrArg _ same.symm)
  · have near := @two_mul_offBy_nearestEven_le numerator denominator positive
    have far := denominator_le_offBy_add same
    omega

/-- Where another whole number is as near, the rounded one is even. -/
theorem nearestEven_even_of_tie (positive : 0 < denominator) {whole : Int}
    (apart : whole ≠ nearestEven numerator denominator)
    (tie : offBy numerator denominator whole ≤
      offBy numerator denominator (nearestEven numerator denominator)) :
    nearestEven numerator denominator % 2 = 0 := by
  have near := @two_mul_offBy_nearestEven_le numerator denominator positive
  have far := denominator_le_offBy_add apart
  have midpoint : 2 * offBy numerator denominator (nearestEven numerator denominator) =
      denominator := by omega
  have split := Nat.div_add_mod' numerator denominator
  unfold offBy at midpoint
  rw [← Int.natCast_mul] at midpoint
  unfold nearestEven at midpoint ⊢
  dsimp only at midpoint ⊢
  split
  · next down =>
    rw [if_pos down] at midpoint
    omega
  · next up =>
    rw [if_neg up, Nat.add_mul, Nat.one_mul] at midpoint
    have rest := Nat.mod_lt numerator positive
    omega

end HyperbolicAuction
