import HyperbolicAuction.Amount.Decode
import HyperbolicAuction.Amount.Order
import HyperbolicAuction.Random.Generator

/-!
# Drawing counts and intervals

A count or an interval is asked for by a fixed value or by a range: a tuple of a least and a greatest
number, both included. A value is made an integer by dropping its fraction; a fixed text is read in
base ten.

Draws that were made before a failure stay made: the generator is part of the state, and the failure
is not. A simulation is refused for its configuration or its seed, or fails at the number of its
sales, at a time between two of them, or at a price.
-/

namespace HyperbolicAuction

/-! ## Errors -/

/-- Why a simulation is refused or fails. -/
inductive SimulationError where
  | needsAccrual
  | needsGenesisPremium
  | needsOpenTime
  | needsDecay
  | negativeSeed
  | fewerThanTwoEnds (count : Nat)
  | moreThanTwoEnds
  | unorderedEnds (error : OrderError)
  | emptyRange (range : Raw)
  | noSuccessor (typeName : String)
  | decimal (error : DecimalError)
  | reversedBounds (low : Int)
  | lowOutOfBounds
  | highOutOfBounds
  | notInteger (value : Raw)
  | notNumber (typeName : String)
  | infiniteNumber
  | negativeCount (count : Int)
  | intervalNotPositive (interval : Int)
  | amount (error : AmountError)
  | arithmetic (error : ArithmeticError)

namespace SimulationError

/-- The kind of a cause. -/
def kind : SimulationError → ErrorKind
  | unorderedEnds (.unordered ..) => .wrongType
  | unorderedEnds .notNumber => DecimalError.undefinedOperation.kind
  | noSuccessor _ => .wrongType
  | decimal error => error.kind
  | notInteger _ => .wrongType
  | infiniteNumber => .outOfRange
  | amount error => error.kind
  | arithmetic error => error.kind
  | _ => .invalidValue

/-- The text of a cause. -/
def message : SimulationError → String
  | needsAccrual => "Simulation needs a positive pts"
  | needsGenesisPremium => "Simulation needs genesis_price above genesis_floor"
  | needsOpenTime => "Simulation needs an open time"
  | needsDecay => "Simulation needs a positive k"
  | negativeSeed => "expected non-negative integer"
  | fewerThanTwoEnds count =>
    "not enough values to unpack (expected 2, got " ++ toString count ++ ")"
  | moreThanTwoEnds => "too many values to unpack (expected 2)"
  | unorderedEnds (.unordered left right) =>
    "'<' not supported between instances of '" ++ left ++ "' and '" ++ right ++ "'"
  | unorderedEnds .notNumber => DecimalError.undefinedOperation.message
  | emptyRange range => AmountError.showing "Invalid range: " range.show?
  | noSuccessor typeName =>
    "can only concatenate " ++ typeName ++ " (not \"int\") to " ++ typeName
  | decimal error => error.message
  | reversedBounds low => if low = 0 then "high <= 0" else "low >= high"
  | lowOutOfBounds => "low is out of bounds for int64"
  | highOutOfBounds => "high is out of bounds for int64"
  | notInteger value =>
    "int() argument must be a string, a bytes-like object or a real number, not '" ++
      value.typeName ++ "'"
  | notNumber typeName => "cannot convert " ++ typeName ++ "NaN to integer"
  | infiniteNumber => "cannot convert float infinity to integer"
  | negativeCount count =>
    AmountError.showing "Sale count cannot be negative: " (Text.writeInteger? count)
  | intervalNotPositive interval =>
    AmountError.showing "Interval must be positive, got " (Text.writeInteger? interval)
  | amount error => error.message
  | arithmetic error => error.message

end SimulationError

namespace Simulation

/-! ## Draws -/

open HyperbolicAuction.Random

/-- A computation that draws and may fail. -/
abbrev Drawing := ExceptT SimulationError (StateM Generator)

/-- A fixed value as an integer. -/
def fixedInteger : Raw → Except SimulationError Int
  | .bool value => .ok value.toInt
  | .int value => .ok value
  | .float value =>
    match value, value.truncate? with
    | _, some number => .ok number
    | .nan, none => .error (.notNumber "float ")
    | _, none => .error .infiniteNumber
  | .decimal (.finite negative coefficient exponent) =>
    .ok (Decimal.truncate negative coefficient exponent)
  | .decimal (.nan ..) => .error (.notNumber "")
  | .decimal (.infinity _) => .error (.amount .infinite)
  | .text text =>
    match Text.readDecimal (Text.trim Text.isWhiteSpace text.toList) with
    | .ok number => .ok number
    | .error .malformed => .error (.amount (.malformedText 10 text))
    | .error (.tooLong digits) => .error (.amount (.tooLongToRead digits))
  | value => .error (.notInteger value)

/-- The value one above another, in the arithmetic of its type. -/
def successor : Raw → Except SimulationError Raw
  | .bool value => .ok (.int (value.toInt + 1))
  | .int value => .ok (.int (value + 1))
  | .float value => .ok (.float (value + 1))
  | .decimal value =>
    match value.successor? with
    | some next => .ok (.decimal next)
    | none => .error (.decimal .exponentOverflow)
  | value => .error (.noSuccessor value.typeName)

/-- The integers that a range of raw ends goes from and to. The ends are compared as they are. The
last integer is the one before the end's successor, so that an end with a fraction counts without
it. -/
def rangeBounds (low high : Raw) : Except SimulationError (Int × Int) := do
  let reversed ← (high.less low).mapError .unorderedEnds
  if reversed then throw (.emptyRange (.tuple [low, high]))
  let next ← successor high
  let first ← fixedInteger low
  let beyond ← fixedInteger next
  return (first, beyond - 1)

/-- Draws an integer of a range. The ends are those of 64-bit integers at most. -/
def drawBetween (low high : Int) : Drawing Int := do
  if low < -2 ^ 63 then throw .lowOutOfBounds
  if 2 ^ 63 ≤ high then throw .highOutOfBounds
  if high < low then throw (.reversedBounds low)
  return low + (← Generator.choose ((high - low).toNat + 1) : Nat)

/-- A result that draws nothing. -/
def undrawn {α : Type} : Except SimulationError α → Drawing α
  | .ok value => pure value
  | .error error => throw error

/-- The integer that is asked for. -/
def draw : Raw → Drawing Int
  | .tuple [low, high] => do
    let (first, last) ← undrawn (rangeBounds low high)
    drawBetween first last
  | .tuple ends =>
    if ends.length < 2 then throw (.fewerThanTwoEnds ends.length) else throw .moreThanTwoEnds
  | value => undrawn (fixedInteger value)

end Simulation

end HyperbolicAuction
