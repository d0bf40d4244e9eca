import HyperbolicAuction.Basic

/-!
# Integers in writing

Texts are trimmed of the characters with the property "white space", or of the wider class of blanks
to which the four information separators also belong. The characters of the general category
"decimal number" come in runs of ten, from the zero of a script to its nine.

An integer is read from digits with single underscores between them. In base ten a sign may stand
before the first digit. In base sixteen the digits follow the mark `0x`, whose `x` may be a capital,
and an underscore may stand before the first. The digits are those of every script.

Numbers of more than `digitLimit` decimal digits are neither read nor written.

Main statement: `decimalDigit?_lt`, the value of a digit is below ten.
-/

namespace HyperbolicAuction.Text

/-! ## Blanks -/

/-- The characters with the property "white space". -/
def isWhiteSpace (c : Char) : Bool :=
  let code := c.toNat
  (0x9 ≤ code && code ≤ 0xD) || code == 0x20 || code == 0x85 || code == 0xA0 || code == 0x1680 ||
    (0x2000 ≤ code && code ≤ 0x200A) || code == 0x2028 || code == 0x2029 || code == 0x202F ||
    code == 0x205F || code == 0x3000

/-- White space, and the separators of files, groups, records and units. -/
def isBlank (c : Char) : Bool :=
  isWhiteSpace c || (0x1C ≤ c.toNat && c.toNat ≤ 0x1F)

/-- A text without the characters of a class at either end. -/
def trim (isOuter : Char → Bool) (chars : List Char) : List Char :=
  ((chars.dropWhile isOuter).reverse.dropWhile isOuter).reverse

/-! ## Decimal digits -/

/-- The zeros of all scripts that have decimal digits, ascending. -/
def decimalZeros : List Nat :=
  [0x30, 0x660, 0x6F0, 0x7C0, 0x966, 0x9E6, 0xA66, 0xAE6, 0xB66, 0xBE6, 0xC66, 0xCE6, 0xD66, 0xDE6,
   0xE50, 0xED0, 0xF20, 0x1040, 0x1090, 0x17E0, 0x1810, 0x1946, 0x19D0, 0x1A80, 0x1A90, 0x1B50,
   0x1BB0, 0x1C40, 0x1C50, 0xA620, 0xA8D0, 0xA900, 0xA9D0, 0xA9F0, 0xAA50, 0xABF0, 0xFF10, 0x104A0,
   0x10D30, 0x11066, 0x110F0, 0x11136, 0x111D0, 0x112F0, 0x11450, 0x114D0, 0x11650, 0x116C0,
   0x11730, 0x118E0, 0x11950, 0x11C50, 0x11D50, 0x11DA0, 0x16A60, 0x16AC0, 0x16B50, 0x1D7CE,
   0x1D7D8, 0x1D7E2, 0x1D7EC, 0x1D7F6, 0x1E140, 0x1E2F0, 0x1E950, 0x1FBF0]

/-- The value of a decimal digit of any script. -/
def decimalDigit? (c : Char) : Option Nat :=
  (decimalZeros.find? fun first => first ≤ c.toNat && c.toNat < first + 10).map (c.toNat - ·)

theorem decimalDigit?_lt {c : Char} {value : Nat} (digit : decimalDigit? c = some value) :
    value < 10 := by
  simp only [decimalDigit?, Option.map_eq_some_iff] at digit
  obtain ⟨first, found, rfl⟩ := digit
  have within := List.find?_some found
  simp only [Bool.and_eq_true, decide_eq_true_eq] at within
  omega

/-! ## Integers -/

/-- The greatest number of decimal digits that is read or written. -/
def digitLimit : Nat := 4300

/-- Why a text is not read as an integer. -/
inductive IntegerError where
  | malformed
  | tooLong (digits : Nat)
deriving DecidableEq, Repr

/-- The value of a letter as a digit. -/
def letterDigit? (c : Char) : Option Nat :=
  if 'a' ≤ c ∧ c ≤ 'f' then some (c.toNat - 'a'.toNat + 10)
  else if 'A' ≤ c ∧ c ≤ 'F' then some (c.toNat - 'A'.toNat + 10)
  else none

/-- The value of a digit of a base. -/
def digit? (base : Nat) (c : Char) : Option Nat :=
  ((decimalDigit? c).or (letterDigit? c)).filter (· < base)

/-- One digit or more, with single underscores between them. -/
def digits? (base : Nat) : List Char → Option (List Nat)
  | [] => none
  | [c] => (digit? base c).map ([·])
  | c :: '_' :: rest => do return (← digit? base c) :: (← digits? base rest)
  | c :: rest => do return (← digit? base c) :: (← digits? base rest)

/-- The number that a row of digits stands for. -/
def digitsNumber (base : Nat) (digits : List Nat) : Nat :=
  digits.foldl (fun number digit => base * number + digit) 0

/-- An unsigned number in base ten. The digits are counted before what follows them is looked at. -/
def readDigits (chars : List Char) : Except IntegerError Nat :=
  let isOwn (c : Char) := c == '_' || (decimalDigit? c).isSome
  match digits? 10 (chars.takeWhile isOwn) with
  | none => .error .malformed
  | some digits =>
    if digitLimit < digits.length then .error (.tooLong digits.length)
    else if !chars.all isOwn then .error .malformed
    else .ok (digitsNumber 10 digits)

/-- An integer in base ten. -/
def readDecimal : List Char → Except IntegerError Int
  | '-' :: rest => do return -(← readDigits rest : Nat)
  | '+' :: rest => do return (← readDigits rest : Nat)
  | rest => do return (← readDigits rest : Nat)

/-- The digits of a number in base sixteen, after its mark. -/
def readHexadecimal (chars : List Char) : Except IntegerError Int :=
  let digits := match chars with
    | '_' :: rest => rest
    | rest => rest
  match digits? 16 digits with
  | none => .error .malformed
  | some digits => .ok (digitsNumber 16 digits : Nat)

/-- What follows the mark of base sixteen. -/
def afterHexMark? : List Char → Option (List Char)
  | '0' :: 'x' :: rest => some rest
  | '0' :: 'X' :: rest => some rest
  | _ => none

/-- An integer in base ten. -/
def writeInteger? (number : Int) : Option String :=
  if number.natAbs < 10 ^ digitLimit then some (toString number) else none

end HyperbolicAuction.Text
