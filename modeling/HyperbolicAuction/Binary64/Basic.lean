import HyperbolicAuction.Scalar

/-!
# Binary64 numbers

Magnitudes are whole numbers of *units*, a unit being `2 ^ -1074`, the least positive binary64
value. A magnitude is on the grid when it has at most 53 significant bits and lies below the
overflow limit, so that addition and comparison of values are addition and comparison of integers.

A value is not a number, an infinity, or a signed magnitude on the grid. Each operation takes the
exact result and rounds it once to the nearest grid point, ties to the even significand; overflow
gives an infinity of the same sign. There is one value that is not a number.

The order is the order of the extended integers of units: both zeros are equal in it, and nothing is
ordered with the value that is not a number.

Main statement: `roundUnits_significand`, whatever quotient is rounded, the result has at most 53
significant bits; only the overflow limit remains to be checked.
-/

namespace HyperbolicAuction.Binary64

/-! ## The grid of magnitudes -/

/-- How many units make one. -/
def unitsPerOne : Nat := 2 ^ 1074

/-- The least magnitude, in units, that is too great to be finite. -/
def overflowLimit : Nat := 2 ^ 2098

/-- Magnitudes with a significand of at most 53 bits, below the overflow limit. -/
def IsRepresentable (units : Nat) : Prop :=
  units < overflowLimit ∧
    ∃ significand exponent, significand < 2 ^ 53 ∧ units = significand * 2 ^ exponent

/-- The distance of neighbours on the grid around a magnitude: 53 bits of it are kept. -/
def spacing (units : Nat) : Nat := 2 ^ (units.log2 - 52)

/-- The grid point nearest to a quotient of units; of two equally near, the one with the even
significand. -/
def roundUnits (numerator denominator : Nat) : Nat :=
  let step := spacing (numerator / denominator)
  nearestEven numerator (denominator * step) * step

theorem two_pow_le_overflowLimit {exponent : Nat} (low : exponent ≤ 2098) :
    2 ^ exponent ≤ overflowLimit := by
  have raised := Nat.pow_le_pow_right Nat.zero_lt_two low
  rwa [overflowLimit]

theorem isRepresentable_zero : IsRepresentable 0 :=
  ⟨Nat.lt_of_lt_of_le (Nat.two_pow_pos 0) (two_pow_le_overflowLimit (by decide)),
    0, 0, Nat.two_pow_pos 53, by simp⟩

theorem div_spacing_lt (units : Nat) : units / spacing units < 2 ^ 53 := by
  unfold spacing
  rw [Nat.div_lt_iff_lt_mul (Nat.two_pow_pos _), ← Nat.pow_add]
  exact Nat.lt_of_lt_of_le Nat.lt_log2_self (Nat.pow_le_pow_right (by decide) (by omega))

theorem roundUnits_significand (numerator denominator : Nat) :
    ∃ significand exponent, significand < 2 ^ 53 ∧
      roundUnits numerator denominator = significand * 2 ^ exponent := by
  have quotient := div_spacing_lt (numerator / denominator)
  rw [Nat.div_div_eq_div_mul] at quotient
  have rounded := nearestEven_le_div_succ numerator
    (denominator * spacing (numerator / denominator))
  by_cases full : nearestEven numerator (denominator * spacing (numerator / denominator)) = 2 ^ 53
  · exact ⟨1, 53 + ((numerator / denominator).log2 - 52), by decide, by
      rw [roundUnits, full, spacing, Nat.one_mul, Nat.pow_add]⟩
  · exact ⟨_, _, by omega, rfl⟩

end HyperbolicAuction.Binary64

namespace HyperbolicAuction

/-! ## Values -/

/-- A number of the interchange format with 53 significant bits and exponents up to 1023. -/
inductive Binary64 where
  | nan
  | infinity (negative : Bool)
  | finite (negative : Bool) (units : Nat) (representable : Binary64.IsRepresentable units)
deriving DecidableEq

namespace Binary64

/-- A magnitude with its sign, as an integer of units. -/
def signedUnits (negative : Bool) (units : Nat) : Int :=
  if negative then -(units : Int) else units

/-- The zero of a sign. -/
def zero (negative : Bool) : Binary64 := finite negative 0 isRepresentable_zero

/-- The value nearest to a signed quotient of units, or the infinity of its sign. -/
def ofUnits (negative : Bool) (numerator denominator : Nat) : Binary64 :=
  let units := roundUnits numerator denominator
  if bounded : units < overflowLimit then
    finite negative units ⟨bounded, roundUnits_significand numerator denominator⟩
  else infinity negative

/-- The value nearest to a signed quotient. -/
def ofQuotient (negative : Bool) (numerator denominator : Nat) : Binary64 :=
  ofUnits negative (numerator * unitsPerOne) denominator

/-- The value nearest to a natural number. -/
def ofNat (number : Nat) : Binary64 := ofQuotient false number 1

/-- The value nearest to an integer. -/
def ofInt (number : Int) : Binary64 := ofQuotient (number < 0) number.natAbs 1

/-! ## Arithmetic -/

/-- The value of the other sign. -/
def neg : Binary64 → Binary64
  | nan => nan
  | infinity negative => infinity (!negative)
  | finite negative units representable => finite (!negative) units representable

/-- Values that cancel give the positive zero, unless both are negative zeros. -/
def add : Binary64 → Binary64 → Binary64
  | nan, _ => nan
  | _, nan => nan
  | infinity left, infinity right => if left = right then infinity left else nan
  | infinity left, finite .. => infinity left
  | finite .., infinity right => infinity right
  | finite left leftUnits _, finite right rightUnits _ =>
    let total := signedUnits left leftUnits + signedUnits right rightUnits
    if total = 0 then zero (left && right) else ofUnits (total < 0) total.natAbs 1

/-- Subtraction adds the value of the other sign. -/
def sub (left right : Binary64) : Binary64 := add left (neg right)

/-- An infinity times a zero is not a number. -/
def mul : Binary64 → Binary64 → Binary64
  | nan, _ => nan
  | _, nan => nan
  | infinity left, infinity right => infinity (left != right)
  | infinity left, finite right units _ => if units = 0 then nan else infinity (left != right)
  | finite left units _, infinity right => if units = 0 then nan else infinity (left != right)
  | finite left leftUnits _, finite right rightUnits _ =>
    ofUnits (left != right) (leftUnits * rightUnits) unitsPerOne

/-- A zero divisor gives an infinity, or no number when the dividend is a zero too. -/
def div : Binary64 → Binary64 → Binary64
  | nan, _ => nan
  | _, nan => nan
  | infinity _, infinity _ => nan
  | infinity left, finite right .. => infinity (left != right)
  | finite left .., infinity right => zero (left != right)
  | finite left leftUnits _, finite right rightUnits _ =>
    if rightUnits = 0 then
      if leftUnits = 0 then nan else infinity (left != right)
    else ofQuotient (left != right) leftUnits rightUnits

/-! ## Order -/

/-- Whether the first value is less than the second. -/
def less : Binary64 → Binary64 → Bool
  | nan, _ => false
  | _, nan => false
  | infinity left, infinity right => left && !right
  | infinity left, finite .. => left
  | finite .., infinity right => !right
  | finite left leftUnits _, finite right rightUnits _ =>
    decide (signedUnits left leftUnits < signedUnits right rightUnits)

/-- Whether the first value is less than the second or equal to it. -/
def atMost : Binary64 → Binary64 → Bool
  | nan, _ => false
  | _, nan => false
  | infinity left, infinity right => left || !right
  | infinity left, finite .. => left
  | finite .., infinity right => !right
  | finite left leftUnits _, finite right rightUnits _ =>
    decide (signedUnits left leftUnits ≤ signedUnits right rightUnits)

instance : Neg Binary64 := ⟨neg⟩
instance : Add Binary64 := ⟨add⟩
instance : Sub Binary64 := ⟨sub⟩
instance : Mul Binary64 := ⟨mul⟩
instance : Div Binary64 := ⟨div⟩
instance : LT Binary64 := ⟨fun left right => less left right = true⟩
instance : LE Binary64 := ⟨fun left right => atMost left right = true⟩

instance : DecidableLT Binary64 := fun left right => inferInstanceAs (Decidable (less left right = true))
instance : DecidableLE Binary64 := fun left right => inferInstanceAs (Decidable (atMost left right = true))

/-! ## Classes of values -/

/-- Neither an infinity nor the value that is not a number. -/
def isFinite : Binary64 → Bool
  | finite .. => true
  | _ => false

/-- Either infinity. -/
def isInfinite : Binary64 → Bool
  | infinity _ => true
  | _ => false

/-- The integer that a finite value becomes when its fraction is dropped. -/
def truncate? : Binary64 → Option Int
  | finite negative units _ => some (signedUnits negative (units / unitsPerOne))
  | _ => none

/-- The integer that a value is, if it is one. -/
def toInt? : Binary64 → Option Int
  | finite negative units _ =>
    if units % unitsPerOne = 0 then some (signedUnits negative (units / unitsPerOne)) else none
  | _ => none

/-- The value nearest to an integer, if that is finite. -/
def ofInt? (number : Int) : Option Binary64 :=
  let rounded := ofInt number
  if rounded.isFinite then some rounded else none

end Binary64

/-- Arithmetic rounded to binary64. The least divisor is the value nearest to `10 ^ -9`. -/
instance : Scalar Binary64 where
  zero := .zero false
  one := .ofNat 1
  natCast := .ofNat
  decidableLT := inferInstance
  decidableLE := inferInstance
  epsilon := .ofQuotient false 1 (10 ^ 9)
  isFinite := Binary64.isFinite

end HyperbolicAuction
