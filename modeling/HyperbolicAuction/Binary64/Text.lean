import HyperbolicAuction.Decimal.Basic

/-!
# Binary64 numbers in writing

Two forms are used. The *shortest* form has the fewest digits from which the value can be read back,
and of those the digits nearest to it. The *fixed* form has a set number of places after the point
and is rounded from the exact value.

The shortest form is positional from `10 ^ -4` up to `10 ^ 16`, with at least one digit after the
point, and otherwise has an exponent of at least two digits.
-/

namespace HyperbolicAuction.Binary64

/-! ## Shortest form -/

/-- The exponent of the leading decimal digit of a magnitude that is not zero. -/
def leadingExponent (units : Nat) : Int :=
  if unitsPerOne ≤ units then (Nat.toDigits 10 (units / unitsPerOne)).length - 1
  else
    let shift := (Nat.toDigits 10 (unitsPerOne / units)).length
    if unitsPerOne ≤ units * 10 ^ (shift - 1) then -((shift - 1 : Nat) : Int) else -(shift : Int)

/-- Whether a coefficient times a power of ten is read back as a magnitude. -/
def readsBack (units coefficient : Nat) (exponent : Int) : Bool :=
  roundUnits (coefficient * 10 ^ exponent.toNat * unitsPerOne) (10 ^ (-exponent).toNat) == units

/-- The multiple of a power of ten that is read back as a magnitude, of the two around it. Of two
such the nearer is taken, and of two equally near the even one. -/
def neighbour? (units : Nat) (exponent : Int) : Option Nat :=
  let numerator := units * 10 ^ (-exponent).toNat
  let denominator := unitsPerOne * 10 ^ exponent.toNat
  let nearest := nearestEven numerator denominator
  let below := numerator / denominator
  [nearest, below, below + 1].find? fun coefficient => readsBack units coefficient exponent

/-- The fewest digits from which a magnitude can be read back, and the exponent of the last. Seventeen
always suffice. -/
def shortest (units : Nat) : Nat × Int :=
  let leading := leadingExponent units
  ((List.range 17).findSome? fun (more : Nat) =>
    let exponent := leading - more
    (neighbour? units exponent).map (·, exponent)).getD (units, 0)

/-- Digits without trailing zeros, and the exponent of the last of them. -/
def dropTrailingZeros (digits : List Char) (exponent : Int) : List Char × Int :=
  let kept := (digits.reverse.dropWhile (· == '0')).reverse
  (kept, exponent + (digits.length - kept.length : Nat))

/-- A magnitude in the shortest form. -/
def shortestText (units : Nat) : String :=
  if units = 0 then "0.0"
  else
    let (coefficient, last) := shortest units
    let (digits, exponent) := dropTrailingZeros (Nat.toDigits 10 coefficient) last
    let leading := exponent + digits.length - 1
    if leading < -4 ∨ 16 ≤ leading then
      let significand := Decimal.placePoint digits (digits.length - 1)
      let sign := if leading < 0 then "-" else "+"
      let fill := if leading.natAbs < 10 then "0" else ""
      String.ofList significand ++ "e" ++ sign ++ fill ++ toString leading.natAbs
    else if exponent < 0 then String.ofList (Decimal.placePoint digits (-exponent).toNat)
    else String.ofList (digits ++ List.replicate exponent.toNat '0') ++ ".0"

/-- A value in the shortest form. -/
def toText : Binary64 → String
  | nan => "nan"
  | infinity negative => Decimal.signText negative ++ "inf"
  | finite negative units _ => Decimal.signText negative ++ shortestText units

/-! ## Fixed form -/

/-- A finite value with a set number of places, rounded to nearest and ties to even; a value that is
rounded to zero keeps its sign. -/
def fixedText? (places : Nat) : Binary64 → Option String
  | finite negative units _ =>
    let digits := Nat.toDigits 10 (nearestEven (units * 10 ^ places) unitsPerOne)
    some (Decimal.signText negative ++ String.ofList (Decimal.placePoint digits places))
  | _ => none

end HyperbolicAuction.Binary64
