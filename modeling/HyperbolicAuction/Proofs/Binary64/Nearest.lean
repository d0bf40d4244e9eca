import HyperbolicAuction.Proofs.Binary64.Overflow
import Mathlib.Algebra.Order.Field.Basic
import Mathlib.Algebra.Order.Field.Rat
import Mathlib.Data.Int.Cast.Lemmas
import Mathlib.Tactic.FieldSimp
import Mathlib.Tactic.Linarith

/-!
# The nearest value

A number that is not negative is nearest to one finite value, or midway between two of which one has
an even significand; from the midpoint beyond the greatest finite value on it counts as infinite.
`IsNearest` says so of rational numbers and of values, without a step of rounding.

Main statements: `isNearest_ofQuotient`, a quotient is rounded to the nearest value, and
`IsNearest.position_eq`, no other is as near.
-/

namespace HyperbolicAuction.Binary64

variable {numerator denominator : Nat}

/-- The rational number that a finite value is. -/
def rational (value : Binary64) : ℚ := value.position / unitsPerOne

/-- The value nearest to a number that is not negative, and of two equally near the one with the even
significand. From the midpoint beyond the finite values on that is the infinity. -/
inductive IsNearest (number : ℚ) : Binary64 → Prop
  | finite {value : Binary64} (isFinite : value.isFinite = true) (within : number < leastInfinite)
      (least : ∀ other : Binary64, other.isFinite = true →
        |value.rational - number| ≤ |other.rational - number|)
      (even : ∀ other : Binary64, other.isFinite = true → other.rational ≠ value.rational →
        |other.rational - number| = |value.rational - number| →
        HasEvenSignificand value.position.natAbs) : IsNearest number value
  | infinity (beyond : leastInfinite ≤ number) : IsNearest number (infinity false)

attribute [local irreducible] overflowLimit unitsPerOne leastInfinite overflowMidpoint

/-- The distance of two quotients, in parts of both denominators. -/
theorem abs_div_sub_div {parts : Nat} (partsPositive : 0 < parts) (positive : 0 < denominator)
    (whole : ℤ) : |(whole / parts - numerator / denominator : ℚ)| =
      offBy (numerator * parts) denominator whole / (parts * denominator) := by
  have units : (0 : ℚ) < parts := Nat.cast_pos.2 partsPositive
  have divisor : (0 : ℚ) < denominator := Nat.cast_pos.2 positive
  have joined : (whole / parts - numerator / denominator : ℚ) =
      (whole * denominator - numerator * parts) / (parts * denominator) := by
    field_simp
  rw [joined, abs_div, abs_of_pos (mul_pos units divisor), offBy, Nat.cast_natAbs]
  push_cast
  rfl

/-- The distance to a quotient, in parts of a unit. -/
theorem abs_rational_sub (positive : 0 < denominator) (value : Binary64) :
    |value.rational - numerator / denominator| =
      offBy (numerator * unitsPerOne) denominator value.position / (unitsPerOne * denominator) :=
  abs_div_sub_div unitsPerOne_pos positive value.position

theorem rational_inj {value other : Binary64} :
    other.rational = value.rational ↔ other.position = value.position := by
  have units : (unitsPerOne : ℚ) ≠ 0 := Nat.cast_ne_zero.2 (Nat.ne_of_gt unitsPerOne_pos)
  unfold rational
  rw [div_left_inj' units, Int.cast_inj]

theorem lt_leastInfinite_iff (positive : 0 < denominator) :
    (numerator / denominator : ℚ) < leastInfinite ↔
      roundUnits (numerator * unitsPerOne) denominator < overflowLimit := by
  have divisor : (0 : ℚ) < denominator := Nat.cast_pos.2 positive
  rw [← Nat.not_le, overflowLimit_le_roundUnits_iff positive, ← leastInfinite_mul_unitsPerOne,
    Nat.mul_right_comm, Nat.not_le, Nat.mul_lt_mul_right unitsPerOne_pos, div_lt_iff₀ divisor]
  exact_mod_cast Iff.rfl

theorem ofUnits_eq_infinity {negative : Bool}
    (beyond : overflowLimit ≤ roundUnits numerator denominator) :
    ofUnits negative numerator denominator = infinity negative := by
  unfold ofUnits
  exact dif_neg (Nat.not_lt.2 beyond)

/-- A quotient is rounded to the nearest value. -/
theorem isNearest_ofQuotient (positive : 0 < denominator) :
    IsNearest (numerator / denominator) (ofQuotient false numerator denominator) := by
  have divisor : (0 : ℚ) < unitsPerOne * denominator :=
    mul_pos (Nat.cast_pos.2 unitsPerOne_pos) (Nat.cast_pos.2 positive)
  unfold ofQuotient
  rcases Nat.lt_or_ge (roundUnits (numerator * unitsPerOne) denominator) overflowLimit with
    bounded | beyond
  · have position : (ofUnits false (numerator * unitsPerOne) denominator).position =
        roundUnits (numerator * unitsPerOne) denominator := by
      rw [position_ofUnits, Nat.min_eq_left (Nat.le_of_lt bounded), signedUnits_false]
    refine .finite (isFinite_ofUnits_iff.2 bounded) ((lt_leastInfinite_iff positive).2 bounded)
      ?_ ?_
    · intro other _
      rw [abs_rational_sub positive, abs_rational_sub positive,
        div_le_div_iff_of_pos_right divisor, Nat.cast_le, position]
      exact offBy_roundUnits_le positive (isOnGrid_position other)
    · intro other _ apart tie
      rw [abs_rational_sub positive, abs_rational_sub positive, div_left_inj' divisor.ne',
        Nat.cast_inj, position] at tie
      rw [Ne, rational_inj, position] at apart
      rw [position, Int.natAbs_natCast]
      exact hasEvenSignificand_of_tie positive (isOnGrid_position other) apart (Nat.le_of_eq tie)
  · rw [ofUnits_eq_infinity beyond]
    refine .infinity (not_lt.1 fun less => ?_)
    exact absurd ((lt_leastInfinite_iff positive).1 less) (Nat.not_lt.2 beyond)

/-! ## Only one value is nearest -/

variable {number : ℚ} {low high one other : Binary64}

theorem rational_lt : low.rational < high.rational ↔ low.position < high.position := by
  have units : (0 : ℚ) < unitsPerOne := Nat.cast_pos.2 unitsPerOne_pos
  rw [rational, rational, div_lt_div_iff_of_pos_right units, Int.cast_lt]

theorem rational_le : low.rational ≤ high.rational ↔ low.position ≤ high.position := by
  rw [← not_lt, ← not_lt, rational_lt]

theorem exists_of_isOnGrid {point : Nat} (onGrid : IsOnGrid point)
    (bounded : point < overflowLimit) :
    ∃ value : Binary64, value.isFinite = true ∧ value.position = point :=
  ⟨.finite false point ⟨bounded, onGrid⟩, rfl, rfl⟩

/-- A value nearest to a number that is not negative is not below zero. -/
theorem nonneg_of_least (nonneg : 0 ≤ number)
    (least : |low.rational - number| ≤ |rational 0 - number|) : 0 ≤ low.position := by
  by_contra below
  have less : low.rational < rational 0 := rational_lt.2 (Int.not_le.1 below)
  have origin : rational 0 = 0 := by rw [rational, position_zero, Int.cast_zero, zero_div]
  rw [origin, zero_sub, abs_neg, abs_of_nonneg nonneg, abs_of_neg (by linarith)] at least
  linarith

/-- Of two nearest values neither is below the other: both would have an even significand, and so
there would be a value between them, which is nearer. -/
theorem IsNearest.not_position_lt (nonneg : 0 ≤ number) (isLow : IsNearest number low)
    (isHigh : IsNearest number high) : ¬ low.position < high.position := by
  intro less
  cases isLow with
  | infinity =>
    have bounded := natAbs_position_le high
    rw [position_infinity, signedUnits_false] at less
    omega
  | finite lowFinite within lowLeast lowEven =>
    cases isHigh with
    | infinity beyond => exact absurd within (not_lt.2 beyond)
    | finite highFinite _ highLeast highEven =>
      have apart := rational_lt.2 less
      have tie := le_antisymm (lowLeast high highFinite) (highLeast low lowFinite)
      have middle : number - low.rational = high.rational - number := by
        rcases abs_eq_abs.1 tie with same | opposite
        · linarith
        · linarith
      have fromZero := nonneg_of_least nonneg (lowLeast 0 rfl)
      obtain ⟨point, onGrid, above, below⟩ := exists_onGrid_between
        (lowEven high highFinite apart.ne' tie.symm) (highEven low lowFinite apart.ne tie)
        (by omega)
      have bounded := (isFinite_iff.1 highFinite).2
      obtain ⟨between, betweenFinite, located⟩ :=
        exists_of_isOnGrid onGrid (Nat.lt_trans below bounded)
      have left : low.rational < between.rational := rational_lt.2 (by omega)
      have right : between.rational < high.rational := rational_lt.2 (by omega)
      have nearest := lowLeast between betweenFinite
      rw [abs_of_neg (by linarith)] at nearest
      exact absurd nearest (not_le.2 (abs_lt.2 ⟨by linarith, by linarith⟩))

/-- The nearest values to a number that is not negative differ at most in the sign of a zero. -/
theorem IsNearest.position_eq (nonneg : 0 ≤ number) (isOne : IsNearest number one)
    (isOther : IsNearest number other) : one.position = other.position :=
  Int.le_antisymm (Int.not_lt.1 (isOther.not_position_lt nonneg isOne))
    (Int.not_lt.1 (isOne.not_position_lt nonneg isOther))

end HyperbolicAuction.Binary64
