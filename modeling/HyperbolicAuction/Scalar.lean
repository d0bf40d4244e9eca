import HyperbolicAuction.Basic

/-!
# Scalars

Prices, times and rates are scalars. The curve is written once over any `Scalar`, so that one
definition runs in binary64 and is exact over the rationals.

Comparison is all that is asked of the order: a scalar type may hold a value that is ordered with
nothing, as binary64 does, so a negated comparison says less than the opposite one.
-/

namespace HyperbolicAuction

/-- A type of numbers that a curve can be computed in. -/
class Scalar (α : Type) extends
    Zero α, One α, NatCast α, Add α, Sub α, Mul α, Div α, LT α, LE α where
  decidableLT : DecidableLT α
  decidableLE : DecidableLE α
  /-- The least divisor that a premium or an elapsed time is allowed to be. -/
  epsilon : α
  /-- Whether a value is a number of finite magnitude. -/
  isFinite : α → Bool

instance Scalar.instDecidableLT {α : Type} [Scalar α] : DecidableLT α := Scalar.decidableLT
instance Scalar.instDecidableLE {α : Type} [Scalar α] : DecidableLE α := Scalar.decidableLE

/-- What can go wrong in the arithmetic of a curve. -/
inductive ArithmeticError where
  | divisionByZero
  /-- A count is too great to be a scalar. -/
  | countTooGreat
deriving DecidableEq, Repr

/-- The kind of an arithmetic error. -/
def ArithmeticError.kind : ArithmeticError → ErrorKind
  | .divisionByZero => .divisionByZero
  | .countTooGreat => .outOfRange

/-- The text of an arithmetic error. -/
def ArithmeticError.message : ArithmeticError → String
  | .divisionByZero => "float division by zero"
  | .countTooGreat => "int too large to convert to float"

namespace Scalar

variable {α : Type} [Scalar α]

/-- The first value, unless the second is greater than it. -/
def larger (first second : α) : α := if first < second then second else first

/-- Equal to zero, whatever its sign. -/
def isZero (value : α) : Bool := decide (value ≤ 0) && decide (0 ≤ value)

/-- Ordered with itself, as every number is. -/
def isNumber (value : α) : Bool := decide (value ≤ value)

/-- Finite and above zero. -/
def isUsable (value : α) : Bool := isFinite value && decide (0 < value)

/-- The distance of two values. -/
def distance (left right : α) : α := larger (left - right) (right - left)

/-- The quotient, refused for a divisor equal to zero. -/
def quotient (dividend divisor : α) : Except ArithmeticError α :=
  if isZero divisor then .error .divisionByZero else .ok (dividend / divisor)

end Scalar

/-- Exact arithmetic. -/
instance : Scalar Rat where
  zero := 0
  one := 1
  decidableLT := inferInstance
  decidableLE := inferInstance
  epsilon := 1 / 1000000000
  isFinite _ := true

end HyperbolicAuction
