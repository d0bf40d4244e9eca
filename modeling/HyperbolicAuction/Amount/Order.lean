import HyperbolicAuction.Amount.Raw
import HyperbolicAuction.Decimal.Basic

/-!
# The order of raw values

Numbers of all types are ordered by their values, texts by their characters, and two lists or two
tuples by the first items in which they differ. Nothing else is ordered. Equality is wider: every
value may be equal to another. It fails only where a number is compared with one that signals.

Lists of different lengths differ without a look at their items; of tuples the items are compared
first.
-/

namespace HyperbolicAuction

/-- Why two values are not ordered. -/
inductive OrderError where
  /-- Values of these types have no order. -/
  | unordered (left right : String)
  /-- A decimal number is compared that is not a number, or with what is not a number. -/
  | notNumber
deriving DecidableEq, Repr

namespace Raw

/-- The number that a value is, whatever its type. -/
def number? : Raw → Option Decimal
  | bool value => some (.ofInt value.toInt)
  | int value => some (.ofInt value)
  | float value => some (.ofBinary64 value)
  | decimal value => some value
  | _ => none

/-- Whether a value is a decimal number. -/
def isDecimal : Raw → Bool
  | decimal _ => true
  | _ => false

/-- Whether a value is not a number and may not be computed with. -/
def signals : Raw → Bool
  | decimal (.nan _ signals _) => signals
  | _ => false

/-! ## Equality -/

/-- Whether two values that hold no others are equal numbers. -/
def equalNumbers (left right : Raw) : Except OrderError Bool :=
  match left.number?, right.number? with
  | some leftNumber, some rightNumber =>
    if left.signals || right.signals then .error .notNumber
    else .ok (leftNumber.compare? rightNumber == some .eq)
  | _, _ => .ok false

mutual

/-- Whether two values are equal. -/
def equals : Raw → Raw → Except OrderError Bool
  | null, other => .ok other.isNull
  | text left, other =>
    match other with
    | text right => .ok (left == right)
    | _ => .ok false
  | list left, other =>
    match other with
    | list right => if left.length = right.length then equalItems left right else .ok false
    | _ => .ok false
  | tuple left, other =>
    match other with
    | tuple right => equalItems left right
    | _ => .ok false
  | mapping left, other =>
    match other with
    | mapping right => if left.length = right.length then equalEntries left right else .ok false
    | _ => .ok false
  | bool value, other => equalNumbers (bool value) other
  | int value, other => equalNumbers (int value) other
  | float value, other => equalNumbers (float value) other
  | decimal value, other => equalNumbers (decimal value) other

/-- Whether two sequences have equal items. -/
def equalItems : List Raw → List Raw → Except OrderError Bool
  | [], right => .ok right.isEmpty
  | _ :: _, [] => .ok false
  | left :: leftRest, right :: rightRest => do
    if ← equals left right then equalItems leftRest rightRest else return false

/-- Whether each entry has an equal one of its key among others. -/
def equalEntries : List (String × Raw) → List (String × Raw) → Except OrderError Bool
  | [], _ => .ok true
  | (key, value) :: rest, others =>
    match others.lookup key with
    | some other => do if ← equals value other then equalEntries rest others else return false
    | none => .ok false

end

/-! ## Order -/

/-- Whether a value that is not a sequence is less than another. -/
def lessScalar (left right : Raw) : Except OrderError Bool :=
  match left, right with
  | text left, text right => .ok (decide (left < right))
  | _, _ =>
    match left.number?, right.number? with
    | some leftNumber, some rightNumber =>
      match leftNumber.compare? rightNumber with
      | some order => .ok (order == .lt)
      | none => if left.isDecimal || right.isDecimal then .error .notNumber else .ok false
    | _, _ => .error (.unordered left.typeName right.typeName)

mutual

/-- Whether a value is less than another. -/
def less : Raw → Raw → Except OrderError Bool
  | list left, other =>
    match other with
    | list right => lessItems left right
    | _ => lessScalar (list left) other
  | tuple left, other =>
    match other with
    | tuple right => lessItems left right
    | _ => lessScalar (tuple left) other
  | left, other => lessScalar left other

/-- Whether a sequence is less than another: by the first items that are not equal, or by its
length. -/
def lessItems : List Raw → List Raw → Except OrderError Bool
  | [], right => .ok (!right.isEmpty)
  | _ :: _, [] => .ok false
  | left :: leftRest, right :: rightRest => do
    if ← equals left right then lessItems leftRest rightRest else less left right

end

end Raw

end HyperbolicAuction
