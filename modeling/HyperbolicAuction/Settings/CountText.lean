import HyperbolicAuction.Text.Integer

/-!
# Counts in writing

A count is written with the digits `0` to `9`, and single underscores may stand between them. White
space around it is dropped, and so are a plus sign, zeros in front with underscores after them, and
a fraction of one zero or more. A minus sign stands before such zeros or after them.

A text that begins with a count of more digits than are read is refused as too long, whatever
follows them. What has to be dropped in front hides the length.
-/

namespace HyperbolicAuction.CountText

/-- Why a text is not read as a count. -/
inductive CountTextError where
  | malformed
  | tooLong
deriving DecidableEq, Repr

/-- A minus sign, and what follows it. -/
def readMinus : List Char → Bool × List Char
  | '-' :: rest => (true, rest)
  | rest => (false, rest)

/-- A minus sign before characters. -/
def withMinus (negative : Bool) (chars : List Char) : List Char :=
  if negative then '-' :: chars else chars

/-! ## Plain counts -/

/-- Digits that do not begin with a zero, unless it is the only one; a minus sign may stand before
them. -/
def readPlain? (chars : List Char) : Option Int :=
  let (negative, digits) := readMinus chars
  let isPlain := digits == ['0'] || (digits.head?.any (· != '0') && digits.all Char.isDigit)
  if isPlain ∧ digits.length ≤ Text.digitLimit then
    let magnitude : Nat := digits.foldl (fun number c => 10 * number + (c.toNat - '0'.toNat)) 0
    some (if negative then -(magnitude : Int) else magnitude)
  else none

/-- Whether a text begins with a plain count of too many digits. -/
def beginsTooLong (chars : List Char) : Bool :=
  let digits := (readMinus chars).2.takeWhile Char.isDigit
  digits.head?.any (· != '0') && decide (Text.digitLimit < digits.length)

/-! ## What is dropped -/

/-- Whether a character begins a number without zeros in front. -/
def beginsNumber (c : Char) : Bool := c == '-' || (c.isDigit && c != '0')

/-- A number without the zeros in front, and the underscores among them; the last of them stays
where nothing or a point follows. -/
def dropZeros? : List Char → Option (List Char)
  | '0' :: rest =>
    let isDropped (c : Char) := c == '0' || c == '_'
    let last := (rest.takeWhile isDropped).getLastD '0'
    match rest.dropWhile isDropped with
    | [] => some [last]
    | c :: after =>
      if beginsNumber c then some (c :: after)
      else if c = '.' then some (last :: c :: after)
      else none
  | c :: rest => if beginsNumber c then some (c :: rest) else none
  | [] => none

/-- A number without a fraction of zeros. -/
def dropFraction? (chars : List Char) : Option (List Char) :=
  match chars.dropWhile (· != '.') with
  | [] => some chars
  | _ :: fraction =>
    if !fraction.isEmpty && fraction.all (· == '0') then some (chars.takeWhile (· != '.')) else none

/-- Whether each underscore of a row of characters stands alone between two others. -/
def underscoresStandAlone (chars : List Char) : Bool :=
  chars.head? != some '_' && chars.getLast? != some '_' &&
    (chars.zip chars.tail).all fun pair => pair.1 != '_' || pair.2 != '_'

/-- A number without its underscores. -/
def dropUnderscores? (chars : List Char) : Option (List Char) :=
  if underscoresStandAlone chars then some (chars.filter (· != '_')) else none

/-- What follows a plus sign, unless that is a minus sign. -/
def dropPlus? : List Char → Option (List Char)
  | '+' :: '-' :: _ => none
  | '+' :: rest => some rest
  | chars => some chars

/-- A text as a plain count is written. -/
def plain? (chars : List Char) : Option (List Char) := do
  let (negative, unsigned) := readMinus (← dropPlus? (Text.trim Text.isWhiteSpace chars))
  let digits ← dropUnderscores? (← dropFraction? (← dropZeros? unsigned))
  return withMinus negative digits

/-- A count from its text. -/
def read (text : String) : Except CountTextError Int :=
  if beginsTooLong text.toList then .error .tooLong
  else match (plain? text.toList).bind readPlain? with
    | some count => .ok count
    | none => .error .malformed

end HyperbolicAuction.CountText
