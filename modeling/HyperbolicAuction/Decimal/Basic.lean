import HyperbolicAuction.Binary64.Basic

/-!
# Decimal numbers

A decimal number is a coefficient times a power of ten. Numbers of one value and different exponents
are different, since they are written differently: an exponent of zero or less is written with a
point as long as at most six zeros follow it before the first digit, and every other number with one
digit before the point and an exponent. `placePoint` divides a row of digits by a power of ten by
writing a point into it; a row that is too short is filled up with zeros.

What is not a number has a sign and may carry digits. One that signals may not be computed with.

Numbers are compared by their values, whatever their exponents. Of two that differ in the place of
the leading digit that place decides; the others are brought to one exponent. Nothing here takes a
power of ten that the digits of a number do not reach.

Sums are rounded to 28 significant digits, ties to the even last digit. A sum whose leading digit
has an exponent beyond the greatest overflows. A failure is shown as the list of the conditions that
it signals, which is always one.
-/

namespace HyperbolicAuction

/-! ## Errors -/

/-- What can go wrong with decimal numbers. -/
inductive DecimalError where
  /-- A text is not the writing of a decimal number. -/
  | malformedText
  /-- A number has no exact form, or an operation no result. -/
  | undefinedOperation
  /-- A sum is greater than every number that sums may be. -/
  | exponentOverflow
deriving DecidableEq, Repr

namespace DecimalError

/-- The kind of a failure. -/
def kind : DecimalError → ErrorKind
  | malformedText => .undefinedOperation
  | undefinedOperation => .undefinedOperation
  | exponentOverflow => .exponentOverflow

/-- The name of the condition that is signalled. -/
def condition : DecimalError → String
  | malformedText => "ConversionSyntax"
  | undefinedOperation => "InvalidOperation"
  | exponentOverflow => "Overflow"

/-- The text of a failure. -/
def message (error : DecimalError) : String :=
  "[<class 'decimal." ++ error.condition ++ "'>]"

end DecimalError

/-! ## Numbers -/

/-- A decimal number, kept with its exponent. -/
inductive Decimal where
  | nan (negative signals : Bool) (payload : Nat)
  | infinity (negative : Bool)
  | finite (negative : Bool) (coefficient : Nat) (exponent : Int)
deriving DecidableEq, Repr

namespace Decimal

/-- What is not a number, and carries nothing. -/
def quietNaN : Decimal := nan false false 0

/-- The digits of a coefficient; zero has one. -/
def digits (coefficient : Nat) : List Char := Nat.toDigits 10 coefficient

/-- The exponent of the leading digit. -/
def leading (coefficient : Nat) (exponent : Int) : Int :=
  exponent + (digits coefficient).length - 1

/-- The magnitude of a finite decimal number without its fraction. -/
def wholePart (coefficient : Nat) (exponent : Int) : Nat :=
  if coefficient = 0 ∨ leading coefficient exponent < 0 then 0
  else coefficient * 10 ^ exponent.toNat / 10 ^ (-exponent).toNat

/-- The integer that a finite decimal number becomes when its fraction is dropped. -/
def truncate (negative : Bool) (coefficient : Nat) (exponent : Int) : Int :=
  if negative then -(wholePart coefficient exponent : Int) else wholePart coefficient exponent

/-- Whether a finite decimal number has no fraction. -/
def isWhole (coefficient : Nat) (exponent : Int) : Bool :=
  if coefficient = 0 then true
  else if leading coefficient exponent < 0 then false
  else coefficient % 10 ^ (-exponent).toNat == 0

/-- An exponent held where it can no longer change the nearest binary64 value: beyond it, every
coefficient of so many digits is too great or vanishes. -/
def heldExponent (length : Nat) (exponent : Int) : Int :=
  max (-(length + 400 : Nat)) (min 400 exponent)

/-- The binary64 value nearest to a decimal number. -/
def toBinary64 : Decimal → Binary64
  | nan .. => .nan
  | infinity negative => .infinity negative
  | finite negative coefficient exponent =>
    let held := heldExponent (digits coefficient).length exponent
    .ofQuotient negative (coefficient * 10 ^ held.toNat) (10 ^ (-held).toNat)

/-- The decimal number that an integer is. -/
def ofInt (number : Int) : Decimal := finite (number < 0) number.natAbs 0

/-- The decimal number that a binary64 value is: a unit is a power of five, divided by one of ten. -/
def ofBinary64 : Binary64 → Decimal
  | .nan => quietNaN
  | .infinity negative => infinity negative
  | .finite negative units _ => finite negative (units * 5 ^ 1074) (-1074)

/-! ## Writing -/

/-- A row of digits with a point some places from its right end, and always a digit before it. -/
def placePoint (digits : List Char) (places : Nat) : List Char :=
  if places = 0 then digits
  else if digits.length ≤ places then
    '0' :: '.' :: (List.replicate (places - digits.length) '0' ++ digits)
  else
    digits.take (digits.length - places) ++ '.' :: digits.drop (digits.length - places)

/-- A row of digits without its leading zeros; the last zero of a row of zeros stays. -/
def stripZeros (digits : List Char) : List Char :=
  match digits.dropWhile (· == '0') with
  | [] => ['0']
  | stripped => stripped

/-- A text of digits divided by a power of ten; a power below one leaves it as it is. -/
def scaleText (text : String) (places : Int) : String :=
  String.ofList (placePoint (stripZeros text.toList) places.toNat)

/-- A minus sign before a negative number. -/
def signText (negative : Bool) : String := if negative then "-" else ""

/-- One digit, the others after a point, and the exponent with its sign. -/
def scientificText (mark : String) (digits : List Char) (exponent : Int) : String :=
  let significand := placePoint digits (digits.length - 1)
  let sign := if exponent < 0 then "-" else "+"
  String.ofList significand ++ mark ++ sign ++ toString exponent.natAbs

/-- A decimal number in writing. -/
def toText : Decimal → String
  | nan negative signals payload =>
    let word := if signals then "sNaN" else "NaN"
    signText negative ++ word ++ if payload = 0 then "" else toString payload
  | infinity negative => signText negative ++ "Infinity"
  | finite negative coefficient exponent =>
    let leading := leading coefficient exponent
    signText negative ++
      if exponent ≤ 0 ∧ -6 ≤ leading then
        String.ofList (placePoint (digits coefficient) (-exponent).toNat)
      else scientificText "E" (digits coefficient) leading

/-! ## Order -/

/-- How two magnitudes compare. -/
def compareMagnitudes (left : Nat) (leftExponent : Int) (right : Nat) (rightExponent : Int) :
    Ordering :=
  if left = 0 ∨ right = 0 then compare left right
  else
    (compare (leading left leftExponent) (leading right rightExponent)).then
      (let least := min leftExponent rightExponent
       compare (left * 10 ^ (leftExponent - least).toNat)
         (right * 10 ^ (rightExponent - least).toNat))

/-- How two decimal numbers compare; what is not a number compares with nothing. -/
def compare? : Decimal → Decimal → Option Ordering
  | nan .., _ => none
  | _, nan .. => none
  | infinity left, infinity right => some (compare right left)
  | infinity left, finite .. => some (if left then .lt else .gt)
  | finite .., infinity right => some (if right then .gt else .lt)
  | finite left leftCoefficient leftExponent, finite right rightCoefficient rightExponent =>
    some <|
      if leftCoefficient = 0 ∧ rightCoefficient = 0 then .eq
      else match left && leftCoefficient != 0, right && rightCoefficient != 0 with
        | true, false => .lt
        | false, true => .gt
        | false, false =>
          compareMagnitudes leftCoefficient leftExponent rightCoefficient rightExponent
        | true, true =>
          compareMagnitudes rightCoefficient rightExponent leftCoefficient leftExponent

/-! ## Arithmetic of a set precision -/

/-- How many significant digits a sum has at most. -/
def precision : Nat := 28

/-- The greatest exponent of the leading digit of a sum. -/
def greatestLeading : Int := 999999

/-- A finite number rounded to the precision, unless it overflows. -/
def rounded? (negative : Bool) (coefficient : Nat) (exponent : Int) : Option Decimal :=
  let excess := (digits coefficient).length - precision
  let kept := nearestEven coefficient (10 ^ excess)
  if greatestLeading < leading kept (exponent + excess) then none
  else some (finite negative kept (exponent + excess))

/-- How far above the units a coefficient may end before a one is below every digit that is kept. -/
def reach : Nat := precision + 2

/-- A number plus one, unless it overflows. A number that is too small to change any digit of one
that is kept gives one itself. To a number that ends far above the units one is added closer to its
end: there it is dropped all the same, after it has decided a tie. -/
def successor? : Decimal → Option Decimal
  | finite negative coefficient exponent =>
    if coefficient = 0 ∨ leading coefficient exponent < -(reach : Int) then some (finite false 1 0)
    else
      let low := max 0 (exponent - reach)
      let scaled := coefficient * 10 ^ (exponent - low).toNat
      let one := 10 ^ (-exponent).toNat
      let least := min low exponent
      if negative then rounded? (one < scaled) (max one scaled - min one scaled) least
      else rounded? false (scaled + one) least
  | value => some value

end Decimal

end HyperbolicAuction
