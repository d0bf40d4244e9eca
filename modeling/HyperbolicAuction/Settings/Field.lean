import HyperbolicAuction.Amount.Raw
import HyperbolicAuction.Binary64.Basic
import HyperbolicAuction.Curve.Sampling
import HyperbolicAuction.Decimal.Reader
import HyperbolicAuction.Settings.CountText

/-!
# Reading one setting

A setting is a count between two bounds or a number above zero. It is read from a raw value of any
numeric type, or from text. Text may be surrounded by white space, and single underscores may stand
between its characters.
-/

namespace HyperbolicAuction

/-- The settings by name. -/
inductive SettingsField where
  | tokenDecimals
  | curveSteps
  | leastHalfLives
  | fallbackSeconds
deriving DecidableEq, Repr

/-- The name of a setting. -/
def SettingsField.name : SettingsField → String
  | tokenDecimals => "token_decimals"
  | curveSteps => "curve_steps"
  | leastHalfLives => "curve_u_max_default"
  | fallbackSeconds => "degenerate_window_sec"

/-- Why a value is not acceptable for a setting. -/
inductive FieldError where
  | notCountable
  | malformedCount
  | countTooLong
  | fractionalCount
  | unboundedCount
  | belowLeast
  | aboveGreatest
  | notNumeric
  | malformedNumber
  | notPositive
deriving DecidableEq, Repr

/-- The code under which a cause is reported. -/
def FieldError.code : FieldError → String
  | notCountable => "int_type"
  | malformedCount => "int_parsing"
  | countTooLong => "int_parsing_size"
  | fractionalCount => "int_from_float"
  | unboundedCount => "finite_number"
  | belowLeast => "greater_than_equal"
  | aboveGreatest => "less_than_equal"
  | notNumeric => "float_type"
  | malformedNumber => "float_parsing"
  | notPositive => "greater_than"

namespace SettingsField

/-! ## Counts -/

/-- A count from its text. -/
def readCountText (text : String) : Except FieldError Int :=
  (CountText.read text).mapError fun
    | .malformed => .malformedCount
    | .tooLong => .countTooLong

/-- The integers of 64 bits. -/
def isWord (number : Int) : Bool := -2 ^ 63 < number && number < 2 ^ 63

/-- A count from a raw value. -/
def readCount : Raw → Except FieldError Int
  | .bool value => .ok value.toInt
  | .int value => .ok value
  | .text value => readCountText value
  | .float value =>
    match value.truncate?, value.toInt? with
    | none, _ => .error .unboundedCount
    | some _, none => .error .fractionalCount
    | some _, some number => if isWord number then .ok number else .error .countTooLong
  | .decimal (.finite negative coefficient exponent) =>
    if Decimal.isWhole coefficient exponent then
      .ok (Decimal.truncate negative coefficient exponent)
    else .error .fractionalCount
  | .decimal _ => .error .unboundedCount
  | _ => .error .notCountable

/-- A count between two bounds from a raw value. -/
def readBounded (least greatest : Nat) (value : Raw) : Except FieldError Nat := do
  let count ← readCount value
  if count < least then throw .belowLeast
  if greatest < count then throw .aboveGreatest
  return count.toNat

/-! ## Numbers -/

/-- A number from characters that are all its own. -/
def readNumberChars? (chars : List Char) : Option Binary64 :=
  if String.ofList ((Decimal.readSign chars).2.map Char.toLower) == "nan" then some .nan
  else (Decimal.ofNumeral? chars).map (·.toBinary64)

/-- A text without its underscores, if there are any and each stands alone between others. -/
def dropUnderscores? (chars : List Char) : Option (List Char) :=
  if chars.contains '_' then CountText.dropUnderscores? chars else none

/-- A number from its text. -/
def readNumberText (text : String) : Except FieldError Binary64 :=
  let read := (readNumberChars? (Text.trim Text.isWhiteSpace text.toList)).or
    ((dropUnderscores? text.toList).bind readNumberChars?)
  match read with
  | some number => .ok number
  | none => .error .malformedNumber

/-- A number from a raw value. -/
def readNumber : Raw → Except FieldError Binary64
  | .bool value => .ok (.ofInt value.toInt)
  | .int value =>
    match Binary64.ofInt? value with
    | some number => .ok number
    | none => .error .notNumeric
  | .text value => readNumberText value
  | .float value => .ok value
  | .decimal (.nan _ true _) => .error .notNumeric
  | .decimal value => .ok value.toBinary64
  | _ => .error .notNumeric

/-- A number above zero from a raw value. -/
def readPositive (value : Raw) : Except FieldError Binary64 := do
  let number ← readNumber value
  if 0 < number then return number else throw .notPositive

end SettingsField

end HyperbolicAuction
