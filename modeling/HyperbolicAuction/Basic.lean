/-!
# Common ground

Every part of the library has an error type of its own, whose constructors are causes. A cause is of
one of the kinds of `ErrorKind`; callers that treat causes alike tell them apart by kind.

`nearestEven` takes a quotient of natural numbers to the nearest whole number, and a tie to the even
neighbour. It is the only rounding of the library: results of binary64 arithmetic and printed
amounts are both made by it, on different grids.

Entries are values under names, in the order in which the names first arrived. A name that arrives
again takes its new value and keeps its place.

Main statements: a rounded quotient is its whole part or the next number, and never the next number
when the division leaves nothing over; `lookup_set`, a name has the value that was last set for it,
and setting it changes no other; `lookup_unset`, a name that is unset has none, and the others keep
theirs.
-/

namespace HyperbolicAuction

/-! ## Kinds of errors -/

/-- What sort of thing went wrong. -/
inductive ErrorKind where
  /-- The value is of an acceptable type, and is not acceptable. -/
  | invalidValue
  /-- The value is too great for the type it is converted to. -/
  | outOfRange
  /-- The value is of a type that the operation is not defined on. -/
  | wrongType
  /-- The value has no part of the name that was asked for. -/
  | missingPart
  /-- The operation is not defined on the value. -/
  | undefinedOperation
  /-- The result has an exponent beyond those of decimal arithmetic. -/
  | exponentOverflow
  | divisionByZero
deriving DecidableEq, Repr

/-! ## Powers -/

/-- A power with a natural exponent is the core library's own, whichever other powers are in
scope. -/
@[default_instance 20000]
instance (priority := 2000) instPower {α : Type} [NatPow α] : Pow α Nat := instPowNat

/-! ## Rounding a quotient -/

/-- The whole number nearest to `numerator / denominator`; of two equally near, the even one. -/
def nearestEven (numerator denominator : Nat) : Nat :=
  let whole := numerator / denominator
  let rest := numerator % denominator
  if 2 * rest < denominator ∨ (2 * rest = denominator ∧ whole % 2 = 0) then whole else whole + 1

theorem div_le_nearestEven (numerator denominator : Nat) :
    numerator / denominator ≤ nearestEven numerator denominator := by
  simp only [nearestEven]
  split <;> omega

theorem nearestEven_le_div_succ (numerator denominator : Nat) :
    nearestEven numerator denominator ≤ numerator / denominator + 1 := by
  simp only [nearestEven]
  split <;> omega

theorem nearestEven_mul_self (whole : Nat) {denominator : Nat} (positive : 0 < denominator) :
    nearestEven (whole * denominator) denominator = whole := by
  simp [nearestEven, Nat.mul_div_cancel _ positive, positive]

end HyperbolicAuction

/-! ## Named entries -/

namespace HyperbolicAuction.Entries

variable {α : Type}

/-- Entries with one set. -/
def set : List (String × α) → String → α → List (String × α)
  | [], name, value => [(name, value)]
  | entry :: rest, name, value =>
    if entry.1 = name then (name, value) :: rest else entry :: set rest name value

/-- Entries with others set one after the other. -/
def setAll (entries arrivals : List (String × α)) : List (String × α) :=
  arrivals.foldl (fun known entry => set known entry.1 entry.2) entries

/-- Entries without those of a name. -/
def unset (entries : List (String × α)) (name : String) : List (String × α) :=
  entries.filter (·.1 != name)

theorem lookup_set (entries : List (String × α)) (name : String) (value : α) (other : String) :
    (set entries name value).lookup other =
      if other = name then some value else entries.lookup other := by
  induction entries with
  | nil => grind [set]
  | cons entry rest ih => grind [set]

theorem lookup_unset (entries : List (String × α)) (name other : String) :
    (unset entries name).lookup other = if other = name then none else entries.lookup other := by
  induction entries with
  | nil => grind [unset]
  | cons entry rest ih => grind [unset]

end HyperbolicAuction.Entries
