import HyperbolicAuction.Decimal.Basic
import HyperbolicAuction.Text.Integer

/-!
# Reading decimal numbers

A numeral is a sign, digits with at most one point among them, and an exponent after the letter `e`
of either case; or the word for an infinity. The coefficient keeps every digit, and the exponent
counts the digits after the point.

A text may hold more than a numeral: blanks around it, underscores anywhere, digits of every script,
and the word for what is not a number, with digits after it. A text whose number cannot be kept
exactly, since its exponent is beyond the bounds, is refused.
-/

namespace HyperbolicAuction.Decimal

/-- The value of a row of digits. -/
def digitsValue (digits : List Char) : Nat :=
  digits.foldl (fun value c => 10 * value + (c.toNat - '0'.toNat)) 0

/-- A sign, and what follows it. -/
def readSign : List Char → Bool × List Char
  | '-' :: rest => (true, rest)
  | '+' :: rest => (false, rest)
  | rest => (false, rest)

/-- What follows the digits of a number: nothing, or an exponent. -/
def readExponent? : List Char → Option Int
  | [] => some 0
  | mark :: rest =>
    let (negative, digits) := readSign rest
    if (mark = 'e' || mark = 'E') && !digits.isEmpty && digits.all Char.isDigit then
      let magnitude := digitsValue digits
      some (if negative then -(magnitude : Int) else magnitude)
    else none

/-- Digits with at most one point, and an exponent. -/
def readNumber? (negative : Bool) (chars : List Char) : Option Decimal :=
  let whole := chars.takeWhile Char.isDigit
  let afterWhole := chars.dropWhile Char.isDigit
  let (fraction, rest) := match afterWhole with
    | '.' :: afterPoint => (afterPoint.takeWhile Char.isDigit, afterPoint.dropWhile Char.isDigit)
    | _ => ([], afterWhole)
  if whole.isEmpty && fraction.isEmpty then none
  else (readExponent? rest).map fun exponent =>
    finite negative (digitsValue (whole ++ fraction)) (exponent - fraction.length)

/-- The words for an infinity. -/
def infinityWords : List String := ["inf", "infinity"]

/-- The decimal number of a numeral. -/
def ofNumeral? (chars : List Char) : Option Decimal :=
  let (negative, rest) := readSign chars
  if infinityWords.contains (String.ofList (rest.map Char.toLower)) then some (infinity negative)
  else readNumber? negative rest

/-- What is not a number, from its word and the digits after it. -/
def readNaN? (chars : List Char) : Option Decimal :=
  let (negative, rest) := readSign chars
  let payload? (signals : Bool) (digits : List Char) : Option Decimal :=
    if digits.all Char.isDigit then some (nan negative signals (digitsValue digits)) else none
  match rest.map Char.toLower with
  | 'n' :: 'a' :: 'n' :: digits => payload? false digits
  | 's' :: 'n' :: 'a' :: 'n' :: digits => payload? true digits
  | _ => none

/-- A character, or the digit `0` to `9` of the value it has in its script. -/
def westernDigit (c : Char) : Char :=
  match Text.decimalDigit? c with
  | some value => Char.ofNat ('0'.toNat + value)
  | none => c

/-- The greatest exponent of a leading digit. -/
def greatestExponent : Int := 10 ^ 18 - 1

/-- The least exponent of a last digit. -/
def leastExponent : Int := 3 - 2 * 10 ^ 18

/-- Whether a number is kept as it is. -/
def isKept : Decimal → Bool
  | finite _ coefficient exponent =>
    leastExponent ≤ exponent && leading coefficient exponent ≤ greatestExponent
  | _ => true

/-- The decimal number that a text is the writing of. -/
def ofText (text : String) : Except DecimalError Decimal :=
  let chars := ((Text.trim Text.isBlank text.toList).filter (· != '_')).map westernDigit
  match (ofNumeral? chars).or (readNaN? chars) with
  | none => .error .malformedText
  | some number => if isKept number then .ok number else .error .undefinedOperation

end HyperbolicAuction.Decimal
