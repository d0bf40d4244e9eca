import HyperbolicAuction.Binary64.Basic
import HyperbolicAuction.Proofs.Binary64.Grid

/-!
# The order of binary64 numbers

Every number has a position, an integer of units, where an infinity stands at the overflow limit of
its sign. Numbers are ordered as their positions are, and what is not a number is ordered with
nothing: `le_iff` and `lt_iff` turn a comparison into one of integers. The tests of a scalar are
read in the same way.
-/

namespace HyperbolicAuction

theorem Binary64.overflowLimit_pos : 0 < Binary64.overflowLimit := by
  have power := Nat.two_pow_pos 2098
  rwa [overflowLimit]

namespace Binary64

attribute [local irreducible] overflowLimit unitsPerOne

/-- The place of a number among the integers of units. -/
def position : Binary64 → Int
  | nan => 0
  | infinity negative => signedUnits negative overflowLimit
  | finite negative units _ => signedUnits negative units

@[simp] theorem position_infinity (negative : Bool) :
    (infinity negative).position = signedUnits negative overflowLimit := rfl

@[simp] theorem position_finite (negative : Bool) (units : Nat) (representable) :
    (finite negative units representable).position = signedUnits negative units := rfl

@[simp] theorem signedUnits_false (units : Nat) : signedUnits false units = units := rfl

@[simp] theorem signedUnits_true (units : Nat) : signedUnits true units = -(units : Int) := rfl

theorem natAbs_signedUnits (negative : Bool) (units : Nat) :
    (signedUnits negative units).natAbs = units := by
  cases negative <;> simp

/-- The magnitude of a position is a grid point, at most the overflow limit. -/
theorem isOnGrid_position (value : Binary64) : IsOnGrid value.position.natAbs := by
  cases value with
  | nan => exact isOnGrid_zero
  | infinity negative =>
    rw [position_infinity, natAbs_signedUnits]
    exact isOnGrid_overflowLimit
  | finite negative units representable =>
    rw [position_finite, natAbs_signedUnits]
    exact representable.isOnGrid

theorem natAbs_position_le (value : Binary64) : value.position.natAbs ≤ overflowLimit := by
  cases value with
  | nan => exact Nat.zero_le _
  | infinity negative => exact Nat.le_of_eq (natAbs_signedUnits negative overflowLimit)
  | finite negative units representable =>
    rw [position_finite, natAbs_signedUnits]
    exact Nat.le_of_lt representable.1

theorem isFinite_iff {value : Binary64} :
    value.isFinite = true ↔ value ≠ nan ∧ value.position.natAbs < overflowLimit := by
  cases value with
  | nan => simp [isFinite]
  | infinity negative => simp [isFinite, natAbs_signedUnits]
  | finite negative units representable => simp [isFinite, natAbs_signedUnits, representable.1]

/-- A finite value has the position of its units. -/
theorem exists_finite {value : Binary64} (finite_ : value.isFinite = true) :
    ∃ negative units representable, value = finite negative units representable := by
  cases value with
  | nan => simp [isFinite] at finite_
  | infinity negative => simp [isFinite] at finite_
  | finite negative units representable => exact ⟨negative, units, representable, rfl⟩

/-! ## Comparison -/

theorem le_iff {left right : Binary64} :
    left ≤ right ↔ left ≠ nan ∧ right ≠ nan ∧ left.position ≤ right.position := by
  have limit := overflowLimit_pos
  change atMost left right = true ↔ _
  cases left with
  | nan => simp [atMost]
  | infinity left =>
    cases right with
    | nan => simp [atMost]
    | infinity right =>
      cases left <;> cases right <;> simp [atMost]
      omega
    | finite right units representable =>
      have := representable.1
      cases left <;> cases right <;> simp [atMost] <;> omega
  | finite left leftUnits leftRepresentable =>
    cases right with
    | nan => simp [atMost]
    | infinity right =>
      have := leftRepresentable.1
      cases left <;> cases right <;> simp [atMost] <;> omega
    | finite right rightUnits rightRepresentable => simp [atMost]

theorem lt_iff {left right : Binary64} :
    left < right ↔ left ≠ nan ∧ right ≠ nan ∧ left.position < right.position := by
  have limit := overflowLimit_pos
  change less left right = true ↔ _
  cases left with
  | nan => simp [less]
  | infinity left =>
    cases right with
    | nan => simp [less]
    | infinity right =>
      cases left <;> cases right <;> simp [less]
      omega
    | finite right units representable =>
      have := representable.1
      cases left <;> cases right <;> simp [less] <;> omega
  | finite left leftUnits leftRepresentable =>
    cases right with
    | nan => simp [less]
    | infinity right =>
      have := leftRepresentable.1
      cases left <;> cases right <;> simp [less] <;> omega
    | finite right rightUnits rightRepresentable => simp [less]

theorem lt_iff_position {left right : Binary64} (leftNumber : left ≠ nan)
    (rightNumber : right ≠ nan) : left < right ↔ left.position < right.position := by
  rw [lt_iff]
  exact ⟨fun less => less.2.2, fun less => ⟨leftNumber, rightNumber, less⟩⟩

/-- Whatever is comparable at all is no less than itself. -/
theorem le_refl {value : Binary64} (number : value ≠ nan) : value ≤ value :=
  le_iff.2 ⟨number, number, Int.le_refl _⟩

theorem le_trans {left middle right : Binary64} (first : left ≤ middle) (second : middle ≤ right) :
    left ≤ right := by
  rw [le_iff] at first second ⊢
  exact ⟨first.1, second.2.1, Int.le_trans first.2.2 second.2.2⟩

theorem ne_nan_of_le {left right : Binary64} (ordered : left ≤ right) :
    left ≠ nan ∧ right ≠ nan :=
  ⟨(le_iff.1 ordered).1, (le_iff.1 ordered).2.1⟩

theorem not_lt_of_le {left right : Binary64} (ordered : left ≤ right) : ¬ right < left := by
  rw [le_iff] at ordered
  rw [lt_iff]
  omega

protected theorem le_of_lt {left right : Binary64} (less : left < right) : left ≤ right := by
  rw [lt_iff] at less
  exact le_iff.2 ⟨less.1, less.2.1, Int.le_of_lt less.2.2⟩

protected theorem lt_of_lt_of_le {left middle right : Binary64} (less : left < middle)
    (ordered : middle ≤ right) : left < right := by
  rw [lt_iff] at less
  rw [le_iff] at ordered
  exact lt_iff.2 ⟨less.1, ordered.2.1, Int.lt_of_lt_of_le less.2.2 ordered.2.2⟩

/-- Of two numbers one is no greater than the other. -/
protected theorem le_of_not_lt {left right : Binary64} (leftNumber : left ≠ nan)
    (rightNumber : right ≠ nan) (notLess : ¬ right < left) : left ≤ right := by
  rw [lt_iff_position rightNumber leftNumber] at notLess
  exact le_iff.2 ⟨leftNumber, rightNumber, Int.not_lt.1 notLess⟩

/-- What is no lower than a finite value is a number above minus infinity. -/
theorem ne_of_isFinite_le {low value : Binary64} (lowFinite : low.isFinite = true)
    (above : low ≤ value) : value ≠ nan ∧ value ≠ infinity true := by
  refine ⟨(ne_nan_of_le above).2, ?_⟩
  rintro rfl
  have bounded := (isFinite_iff.1 lowFinite).2
  have ordered := (le_iff.1 above).2.2
  rw [position_infinity, signedUnits_true] at ordered
  omega

/-! ## Tests of scalars -/

open Scalar

@[simp] theorem position_zero : (0 : Binary64).position = 0 := rfl

theorem zero_ne_nan : (0 : Binary64) ≠ nan := Binary64.noConfusion

theorem isNumber_of_ne_nan {value : Binary64} (number : value ≠ nan) : isNumber value = true :=
  decide_eq_true (le_refl number)

theorem isFinite_eq (value : Binary64) : Scalar.isFinite value = value.isFinite := rfl

theorem isZero_iff {value : Binary64} :
    isZero value = true ↔ value ≠ nan ∧ value.position = 0 := by
  simp only [isZero, Bool.and_eq_true, decide_eq_true_eq, le_iff, position_zero]
  have := zero_ne_nan
  constructor
  · rintro ⟨⟨number, _, high⟩, _, _, low⟩
    exact ⟨number, Int.le_antisymm high low⟩
  · rintro ⟨number, equal⟩
    exact ⟨⟨number, this, by omega⟩, this, number, by omega⟩

theorem isUsable_iff {value : Binary64} :
    isUsable value = true ↔
      value ≠ nan ∧ 0 < value.position ∧ value.position < overflowLimit := by
  simp only [isUsable, Bool.and_eq_true, decide_eq_true_eq, lt_iff, position_zero, isFinite_eq,
    isFinite_iff]
  constructor
  · rintro ⟨⟨number, bounded⟩, _, _, positive⟩
    exact ⟨number, positive, by omega⟩
  · rintro ⟨number, positive, bounded⟩
    exact ⟨⟨number, by omega⟩, zero_ne_nan, number, positive⟩

/-- A finite value is usable unless it is at most zero. -/
theorem isUsable_eq_not_le {value : Binary64} (finite_ : value.isFinite = true) :
    isUsable value = !decide (value ≤ 0) := by
  have parts := isFinite_iff.1 finite_
  rw [Bool.eq_iff_iff, isUsable_iff, Bool.not_eq_true', decide_eq_false_iff_not, le_iff,
    position_zero]
  constructor
  · rintro ⟨_, positive, _⟩ ⟨_, _, low⟩
    omega
  · intro high
    refine ⟨parts.1, ?_, by omega⟩
    exact Int.not_le.1 fun low => high ⟨parts.1, zero_ne_nan, low⟩

theorem isUsable_of_not_isFinite {value : Binary64} (infinite : value.isFinite = false) :
    isUsable value = false := by
  unfold isUsable
  rw [isFinite_eq, infinite]
  rfl

theorem isUsable_eq_true_iff {value : Binary64} :
    isUsable value = true ↔ value.isFinite = true ∧ 0 < value := by
  simp only [isUsable, isFinite_eq, Bool.and_eq_true, decide_eq_true_eq]

theorem isUsable_eq_false_iff {value : Binary64} :
    isUsable value = false ↔ value.isFinite = false ∨ value ≤ 0 := by
  cases finite_ : value.isFinite with
  | false => simp [isUsable_of_not_isFinite finite_]
  | true => simp [isUsable_eq_not_le finite_]

theorem isUsable_eq_isFinite {value : Binary64} (positive : 0 < value) :
    isUsable value = value.isFinite := by
  rw [Bool.eq_iff_iff, isUsable_eq_true_iff]
  exact and_iff_left positive

theorem pos_of_nonneg_of_not_isZero {value : Binary64} (nonneg : 0 ≤ value)
    (notZero : isZero value = false) : 0 < value.position := by
  rw [le_iff, position_zero] at nonneg
  have apart : value.position ≠ 0 := by
    intro zero
    rw [isZero_iff.2 ⟨nonneg.2.1, zero⟩] at notZero
    cases notZero
  omega

theorem ne_infinity_of_isFinite {value : Binary64} (finite_ : value.isFinite = true)
    (negative : Bool) : value ≠ infinity negative := by
  rintro rfl
  cases finite_

theorem eq_false_of_ne_infinity {negative : Bool} (high : infinity negative ≠ infinity true) :
    negative = false := by
  cases negative with
  | false => rfl
  | true => exact absurd rfl high

theorem ne_infinity_of_nonneg {value : Binary64} (nonneg : 0 ≤ value) : value ≠ infinity true := by
  rintro rfl
  rw [le_iff, position_zero, position_infinity, signedUnits_true] at nonneg
  have limit := overflowLimit_pos
  omega

/-! ## The larger of two values -/

theorem larger_nan_left (value : Binary64) : larger nan value = nan := by
  rw [larger, if_neg]
  rw [lt_iff]
  exact fun ordered => ordered.1 rfl

theorem larger_ne_nan {first : Binary64} (number : first ≠ nan) (second : Binary64) :
    larger first second ≠ nan := by
  unfold larger
  split
  · next less => exact (lt_iff.1 less).2.1
  · exact number

theorem position_larger {first second : Binary64} (firstNumber : first ≠ nan)
    (secondNumber : second ≠ nan) :
    (larger first second).position = max first.position second.position := by
  unfold larger
  split
  · next less =>
    have := (lt_iff.1 less).2.2
    omega
  · next notLess =>
    have : ¬ first.position < second.position := fun less =>
      notLess (lt_iff.2 ⟨firstNumber, secondNumber, less⟩)
    omega

theorem le_larger_left {first : Binary64} (number : first ≠ nan) (second : Binary64) :
    first ≤ larger first second := by
  unfold larger
  split
  · next less =>
    have := lt_iff.1 less
    exact le_iff.2 ⟨number, this.2.1, Int.le_of_lt this.2.2⟩
  · exact le_refl number

theorem le_larger_right {first second : Binary64} (firstNumber : first ≠ nan)
    (secondNumber : second ≠ nan) : second ≤ larger first second := by
  refine le_iff.2 ⟨secondNumber, larger_ne_nan firstNumber second, ?_⟩
  rw [position_larger firstNumber secondNumber]
  exact Int.le_max_right ..

theorem nonneg_larger_zero (value : Binary64) : 0 ≤ larger 0 value :=
  le_larger_left zero_ne_nan value

/-- The larger of two values is usable if both are finite, provided that one of them is above zero
and the other one is not below. -/
theorem isUsable_larger_eq {first second : Binary64} (nonneg : first = nan ∨ 0 ≤ first)
    (positive : 0 < second) :
    isUsable (larger first second) = (first.isFinite && second.isFinite) := by
  rcases nonneg with rfl | nonneg
  · rw [larger_nan_left]
    rfl
  · rw [lt_iff, position_zero] at positive
    rw [le_iff, position_zero] at nonneg
    have number := larger_ne_nan nonneg.2.1 second
    rw [Bool.eq_iff_iff, Bool.and_eq_true, isUsable_iff, isFinite_iff, isFinite_iff,
      position_larger nonneg.2.1 positive.2.1]
    constructor
    · rintro ⟨_, _, bounded⟩
      exact ⟨⟨nonneg.2.1, by omega⟩, positive.2.1, by omega⟩
    · rintro ⟨⟨_, firstBounded⟩, _, secondBounded⟩
      exact ⟨number, by omega, by omega⟩

end Binary64

end HyperbolicAuction
