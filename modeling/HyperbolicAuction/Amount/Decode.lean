import HyperbolicAuction.Amount.Raw
import HyperbolicAuction.Decimal.Reader

/-!
# Decoding 256-bit amounts

An amount is a natural number. It arrives as one scalar, as a low and a high limb of 128 bits (the
first two items of a sequence, or the entries `low` and `high` of a mapping), or wrapped in a
mapping. Of a wrapper's entries the first of `raw`, `value` and `dec` that is not null counts.

Limbs are joined by their weight and not checked to be limbs: only a negative one is refused.

A raw amount counts the least units of its token. Human units are the raw amount divided by a power
of ten: exact as a decimal number, and rounded once as a binary64 value.

Each constructor of `AmountError` is one cause for which a raw value is refused. A message that would
have to show an integer of more digits than are written says that instead.
-/

namespace HyperbolicAuction

/-! ## Errors -/

/-- Why a raw value is not an amount, a time, or what holds them. -/
inductive AmountError where
  | boolean (value : Bool)
  | fractional (shown : String)
  | emptyText
  | malformedText (base : Nat) (text : String)
  | tooLongToRead (digits : Nat)
  | tooLongToWrite
  | unsupported (value : Raw)
  | negativeLimbs (low high : Int)
  | unsupportedMapping (entries : List (String × Raw))
  | shortPair (value : Raw)
  | negative (number : Int)
  | infinite
  | decimal (error : DecimalError)
  | beyondBinary64
  | missingDecay
  | notMapping (typeName : String)

namespace AmountError

/-- The kind of a cause. -/
def kind : AmountError → ErrorKind
  | infinite => .outOfRange
  | decimal error => error.kind
  | beyondBinary64 => .outOfRange
  | notMapping _ => .missingPart
  | _ => .invalidValue

/-- The text of `tooLongToWrite`. -/
def tooLongText : String :=
  "Exceeds the limit (" ++ toString Text.digitLimit ++ " digits) for integer string conversion"

/-- What can be done about `tooLongText`. -/
def tooLongAdvice : String :=
  "; use sys.set_int_max_str_digits() to increase the limit"

/-- A text that shows a value, if the value can be shown. -/
def showing (before : String) : Option String → String
  | some shown => before ++ shown
  | none => tooLongText ++ tooLongAdvice

/-- The beginning of a quoted text, as far as messages show it. -/
def quotedStart (text : String) : String :=
  String.ofList ((Text.quoted text).toList.take 200)

/-- The text of a cause. -/
def message : AmountError → String
  | boolean value => "Cannot parse boolean as integer: " ++ Raw.truthText value
  | fractional shown => "Expected an integer, got " ++ shown
  | emptyText => "Cannot parse empty string as integer"
  | malformedText base text =>
    "invalid literal for int() with base " ++ toString base ++ ": " ++ quotedStart text
  | tooLongToRead digits =>
    tooLongText ++ ": value has " ++ toString digits ++ " digits" ++ tooLongAdvice
  | tooLongToWrite => tooLongText ++ tooLongAdvice
  | unsupported value => showing "Unsupported numeric value: " value.show?
  | negativeLimbs low high =>
    showing "u256 limbs cannot be negative: " do
      return "low=" ++ (← Text.writeInteger? low) ++ ", high=" ++ (← Text.writeInteger? high)
  | unsupportedMapping entries => showing "Unsupported u256 mapping: " (Raw.mapping entries).show?
  | shortPair value => showing "u256 tuple needs (low, high), got " value.show?
  | negative number => showing "u256 cannot be negative: " (Text.writeInteger? number)
  | infinite => "cannot convert Infinity to integer"
  | decimal error => error.message
  | beyondBinary64 => "int too large to convert to float"
  | missingDecay => "Auction config is missing 'k'"
  | notMapping typeName => "'" ++ typeName ++ "' object has no attribute 'get'"

end AmountError

namespace Amount

/-! ## Decoding -/

/-- The weight of a high limb. -/
def limbWeight : Nat := 2 ^ 128

/-- The entries of a wrapper that may hold the amount, first choice first. -/
def wrapperKeys : List String := ["raw", "value", "dec"]

/-- An integer from its text, in base sixteen after the mark `0x` and otherwise in base ten. -/
def readText (text : String) : Except AmountError Int :=
  let chars := Text.trim Text.isBlank text.toList
  let refused (base : Nat) : Text.IntegerError → AmountError
    | .malformed => .malformedText base (String.ofList chars)
    | .tooLong digits => .tooLongToRead digits
  if chars.isEmpty then .error .emptyText
  else match Text.afterHexMark? chars with
    | some digits => (Text.readHexadecimal digits).mapError (refused 16)
    | none => (Text.readDecimal chars).mapError (refused 10)

/-- A scalar as an integer. -/
def readScalar : Raw → Except AmountError Int
  | .bool value => .error (.boolean value)
  | .int value => .ok value
  | .float value =>
    match value.toInt? with
    | some number => .ok number
    | none => .error (.fractional value.toText)
  | .decimal (.infinity _) => .error .infinite
  | .decimal (.nan negative signals payload) =>
    if signals then .error (.decimal .undefinedOperation)
    else .error (.fractional (Decimal.nan negative signals payload).toText)
  | .decimal (.finite negative coefficient exponent) =>
    if Decimal.isWhole coefficient exponent then
      .ok (Decimal.truncate negative coefficient exponent)
    else .error (.fractional (Decimal.finite negative coefficient exponent).toText)
  | .text value => readText value
  | value => .error (.unsupported value)

/-- An integer as an amount. -/
def natural (number : Int) : Except AmountError Nat :=
  if number < 0 then .error (.negative number) else .ok number.toNat

/-- Two limbs as an amount. -/
def joinLimbs (low high : Raw) : Except AmountError Nat := do
  let lowLimb ← readScalar low
  let highLimb ← readScalar high
  if lowLimb < 0 ∨ highLimb < 0 then throw (.negativeLimbs lowLimb highLimb)
  return lowLimb.toNat + highLimb.toNat * limbWeight

/-- The first two items of a sequence as an amount. -/
def joinItems (sequence : Raw) : List Raw → Except AmountError Nat
  | low :: high :: _ => joinLimbs low high
  | _ => .error (.shortPair sequence)

/-- What a wrapper holds. -/
def wrapped? (entries : List (String × Raw)) : Option Raw :=
  wrapperKeys.findSome? fun key => (entries.lookup key).filter (!·.isNull)

theorem sizeOf_lt_of_wrapped? {entries : List (String × Raw)} {inner : Raw}
    (found : wrapped? entries = some inner) : sizeOf inner < sizeOf entries := by
  obtain ⟨key, _, filtered⟩ := List.exists_of_findSome?_eq_some found
  exact Raw.sizeOf_lt_of_lookup (Option.filter_eq_some_iff.1 filtered).1

/-- A raw value as an amount. -/
def decode : Raw → Except AmountError Nat
  | .mapping entries =>
    match entries.lookup "low", entries.lookup "high" with
    | some low, some high => joinLimbs low high
    | _, _ =>
      match found : wrapped? entries with
      | some inner =>
        have _ := sizeOf_lt_of_wrapped? found
        decode inner
      | none => .error (.unsupportedMapping entries)
  | .list items => joinItems (.list items) items
  | .tuple items => joinItems (.tuple items) items
  | value => do natural (← readScalar value)
termination_by value => sizeOf value
decreasing_by
  simp only [Raw.mapping.sizeOf_spec]
  omega

/-! ## Human units -/

/-- The decimals of the payment token. -/
def tokenDecimals : Int := 18

/-- A text of digits, or what stands for one, divided by a power of ten. What is absent, zero or
empty counts as zero. -/
def scale (value : Raw) (decimals : Int) : Except AmountError String :=
  if value.isBlank then .ok (Decimal.scaleText "" decimals)
  else match value.plainText? with
    | none => .error .tooLongToWrite
    | some text => .ok (Decimal.scaleText text decimals)

/-- A raw amount as a decimal number: all its digits, with the point placed among them. -/
def descale (value : Raw) (decimals : Int) : Except AmountError Decimal := do
  let number ← decode value
  match Text.writeInteger? number with
  | none => throw .tooLongToWrite
  | some digits =>
    return (Decimal.ofNumeral? (Decimal.scaleText digits decimals).toList).getD .quietNaN

/-- A raw amount in human units. -/
def toHuman (value : Raw) (decimals : Int) : Except AmountError Binary64 := do
  return (← descale value decimals).toBinary64

/-- A raw amount that counts seconds. -/
def toSeconds (value : Raw) : Except AmountError Binary64 := do
  match Binary64.ofInt? (← decode value) with
  | some seconds => return seconds
  | none => throw .beyondBinary64

end Amount

end HyperbolicAuction
