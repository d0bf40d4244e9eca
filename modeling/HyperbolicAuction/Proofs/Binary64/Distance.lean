import HyperbolicAuction.Proofs.Binary64.Monotone
import HyperbolicAuction.Proofs.Binary64.SignedZero

/-!
# The distance of binary64 numbers

The distance of two finite values is their exact distance, rounded once, so a smaller exact distance
is never a greater rounded one; but two of them may be rounded to one number. An infinity is
infinitely far from every finite value.

Main statements: `position_distance`, `distance_mono`, `unitsApart_le_of_distance_le`,
`distance_nonpos_iff`.
-/

namespace HyperbolicAuction.Binary64

open Scalar

attribute [local irreducible] overflowLimit unitsPerOne

variable {left right other : Binary64}

/-- The exact distance of two numbers in units, where an infinity stands at the overflow limit. -/
def unitsApart (left right : Binary64) : Nat := (left.position - right.position).natAbs

theorem sub_ne_nan (leftFinite : left.isFinite = true) (number : right ≠ nan) :
    left - right ≠ nan :=
  add_ne_nan leftFinite (neg_ne_nan number)

theorem position_sub (leftFinite : left.isFinite = true) (rightFinite : right.isFinite = true) :
    (left - right).position =
      signedUnits (left.position - right.position < 0)
        (min (roundUnits (unitsApart left right) 1) overflowLimit) := by
  rw [← isFinite_neg] at rightFinite
  rw [sub_eq_add_neg, position_add leftFinite rightFinite, position_ofUnits, position_neg,
    ← Int.sub_eq_add_neg]
  rfl

theorem unitsApart_comm (left right : Binary64) :
    unitsApart left right = unitsApart right left := by
  rw [unitsApart, ← Int.natAbs_neg, Int.neg_sub]
  rfl

theorem distance_ne_nan (leftFinite : left.isFinite = true) (number : right ≠ nan) :
    distance left right ≠ nan :=
  larger_ne_nan (sub_ne_nan leftFinite number) _

theorem position_distance (leftFinite : left.isFinite = true)
    (rightFinite : right.isFinite = true) :
    (distance left right).position = min (roundUnits (unitsApart left right) 1) overflowLimit := by
  have forth := sub_ne_nan leftFinite (isFinite_iff.1 rightFinite).1
  have back := sub_ne_nan rightFinite (isFinite_iff.1 leftFinite).1
  rw [distance, position_larger forth back, position_sub leftFinite rightFinite,
    position_sub rightFinite leftFinite, unitsApart_comm right left]
  rcases Int.lt_or_le (left.position - right.position) 0 with negative | nonneg
  · have opposite : ¬ right.position - left.position < 0 := by omega
    rw [decide_eq_true negative, decide_eq_false opposite, signedUnits_true, signedUnits_false]
    omega
  · rw [decide_eq_false (Int.not_lt.2 nonneg), signedUnits_false]
    cases decide (right.position - left.position < 0) with
    | false => exact Int.max_self _
    | true =>
      rw [signedUnits_true]
      omega

theorem distance_infinity (leftFinite : left.isFinite = true) (negative : Bool) :
    distance left (infinity negative) = infinity false := by
  obtain ⟨sign, units, representable, rfl⟩ := exists_finite leftFinite
  cases negative <;> rfl

/-- A greater distance is never rounded to a smaller one. -/
theorem distance_mono (leftFinite : left.isFinite = true) (otherFinite : other.isFinite = true)
    (number : right ≠ nan) (nearer : unitsApart left right ≤ unitsApart other right) :
    distance left right ≤ distance other right := by
  cases right with
  | nan => exact absurd rfl number
  | infinity negative =>
    rw [distance_infinity leftFinite, distance_infinity otherFinite]
    exact le_refl Binary64.noConfusion
  | finite negative units representable =>
    refine le_iff.2 ⟨distance_ne_nan leftFinite number, distance_ne_nan otherFinite number, ?_⟩
    rw [position_distance leftFinite rfl, position_distance otherFinite rfl]
    have rounded := roundUnits_mono Nat.one_pos Nat.one_pos (Nat.mul_le_mul_right 1 nearer)
    omega

/-- What is no farther once rounded is farther by at most one part in `2 ^ 52`, or little more. -/
theorem unitsApart_le_of_distance_le (leftFinite : left.isFinite = true)
    (otherFinite : other.isFinite = true) (finite_ : (distance left right).isFinite = true)
    (ordered : distance left right ≤ distance other right) :
    (2 ^ 53 - 1) * unitsApart left right ≤ (2 ^ 53 + 1) * unitsApart other right := by
  cases right with
  | nan =>
    obtain ⟨sign, units, representable, rfl⟩ := exists_finite leftFinite
    cases finite_
  | infinity negative =>
    rw [distance_infinity leftFinite] at finite_
    cases finite_
  | finite negative units representable =>
    obtain ⟨_, bounded⟩ := isFinite_iff.1 finite_
    have positions := (le_iff.1 ordered).2.2
    rw [position_distance leftFinite rfl] at bounded positions
    rw [position_distance otherFinite rfl] at positions
    have taken := le_roundUnits_one (unitsApart left (finite negative units representable))
    have added := roundUnits_one_error (unitsApart other (finite negative units representable))
    omega

/-- Distances of nothing alone are rounded to nothing. -/
theorem distance_nonpos_iff (leftFinite : left.isFinite = true)
    (rightFinite : right.isFinite = true) :
    distance left right ≤ 0 ↔ left.SameNumber right := by
  have leftNumber := (isFinite_iff.1 leftFinite).1
  have rightNumber := (isFinite_iff.1 rightFinite).1
  have number := distance_ne_nan leftFinite rightNumber
  have limit := overflowLimit_pos
  have rounded := @roundUnits_eq_zero_iff (unitsApart left right) 1 Nat.one_pos
  rw [le_iff, sameNumber_iff leftNumber rightNumber, position_distance leftFinite rightFinite,
    position_zero]
  rw [unitsApart] at rounded ⊢
  constructor
  · rintro ⟨_, _, vanishes⟩
    omega
  · intro equal
    exact ⟨number, zero_ne_nan, by omega⟩

end HyperbolicAuction.Binary64
