import HyperbolicAuction.Curve.Sampling

/-!
# Looking up a sampled curve

Between two samples a curve is read off the chord that joins them; outside the window it is read at
the nearer end. `nearest` answers with a sample itself.

The segment of a key in a table ends at the first row after the key. A short table is scanned. In a
long one the rows behind the first are tried one after the other, and the rest is halved; a row near
the beginning is looked at before, so that it may take the place of the end. Rows are told apart by
whether the key has passed them, which is asked in two ways: a row that is not ordered with the key
is neither passed nor after it. Where the rows do not ascend, the order of the trials decides which
segment is found.

Coordinates are expected in ascending order. A window so long that its offsets overflow has samples
at infinity before its last one; a coordinate there is read off the segment that the search ends at.
A coordinate that is not a number gives a point whose coordinates are not numbers.

Main statement: `segmentEnd_eq`, where the rows up to some place are passed and the others are after
the key, that place is found.
-/

namespace HyperbolicAuction

/-! ## Finding a segment -/

/-- The first place from `low` on whose row is not passed, or `high`. -/
def scan (passed : Nat → Bool) (low high : Nat) : Nat :=
  ((List.range' low (high - low)).find? (!passed ·)).getD high

/-- A place between two others where passed rows end, found by halving. -/
def bisect (passed : Nat → Bool) (low high : Nat) : Nat :=
  if low < high then
    let middle := (low + high) / 2
    if passed middle then bisect passed (middle + 1) high else bisect passed low middle
  else low
termination_by high - low

/-- The most rows of a table that is scanned. -/
def scannedSize : Nat := 4

/-- The rows that are tried one after the other. -/
def triedPlaces : List Nat := [1, 2, 3]

/-- The row that may take the place of the end, in a table that goes on behind it. -/
def nearPlace : Nat := 9

/-- The place of the row that ends the segment of a key, in a table whose first row is not after the
key; the number of rows if none is after it. -/
def segmentEnd (size : Nat) (passed after : Nat → Bool) : Nat :=
  if size ≤ scannedSize then scan passed 1 size
  else match triedPlaces.find? after with
    | some place => place
    | none =>
      let high := if nearPlace + 1 < size && after nearPlace then nearPlace else size
      bisect passed 3 high

/-! ## Ascending rows -/

theorem scan_eq {passed : Nat → Bool} {low place high : Nat} (low_le : low ≤ place)
    (le_high : place ≤ high) (passes : ∀ i < high, passed i = decide (i < place)) :
    scan passed low high = place := by
  obtain rfl | lt_high := Nat.eq_or_lt_of_le le_high
  · have none_found : (List.range' low (place - low)).find? (!passed ·) = none := by
      simp only [List.find?_eq_none, List.mem_range'_1]
      grind
    simp [scan, none_found]
  · have found : (List.range' low (high - low)).find? (!passed ·) = some place := by
      rw [List.find?_range'_eq_some]
      grind
    simp [scan, found]

theorem bisect_eq {passed : Nat → Bool} {low place high : Nat} (low_le : low ≤ place)
    (le_high : place ≤ high) (passes : ∀ i < high, passed i = decide (i < place)) :
    bisect passed low high = place := by
  fun_induction bisect passed low high with
  | case1 low high apart middle passed_middle ih => grind
  | case2 low high apart middle not_passed ih => grind
  | case3 low high met => omega

theorem segmentEnd_eq {size place : Nat} {passed after : Nat → Bool} (place_pos : 1 ≤ place)
    (place_le : place ≤ size) (passes : ∀ i < size, passed i = decide (i < place))
    (isAfter : ∀ i < size, after i = decide (place ≤ i)) :
    segmentEnd size passed after = place := by
  unfold segmentEnd scannedSize triedPlaces nearPlace
  split
  · exact scan_eq place_pos place_le passes
  · next long =>
    have first := isAfter 1 (by omega)
    have second := isAfter 2 (by omega)
    have third := isAfter 3 (by omega)
    split
    · next tried found => grind
    · next none_found =>
      have three_lt : 3 < place := by grind
      split
      · next near =>
        have ninth := isAfter 9 (by grind)
        exact bisect_eq (by omega) (by grind) fun i lt => passes i (by grind)
      · exact bisect_eq (by omega) place_le passes

/-! ## Samples that are looked up -/

/-- The samples that are looked up. -/
structure Lookup (α : Type) where
  points : List (Point α)
deriving DecidableEq

namespace Lookup

variable {α : Type} [Scalar α]

open Scalar

/-! ## Reading a table of two columns -/

/-- A value held between two bounds; not a number if any of the three is not. -/
def clamp (value low high : α) : α :=
  if !isNumber value then value
  else if !isNumber low then low
  else if !isNumber high then high
  else
    let raised := if value < low then low else value
    if high < raised then high else raised

/-- The place of the row that ends the segment of a key. -/
def placeAfter (key : α) (rows : Array (α × α)) : Nat :=
  segmentEnd rows.size (fun place => rows[place]?.any (·.1 ≤ key))
    (fun place => rows[place]?.any (key < ·.1))

/-- The chord from one row to another, at a key. Drawn from its start or, where that is no number,
from its end; where both are not, a level chord has the value of its ends. -/
def chord (left right : α × α) (key : α) : α :=
  let slope := (right.2 - left.2) / (right.1 - left.1)
  let fromLeft := slope * (key - left.1) + left.2
  let fromRight := slope * (key - right.1) + right.2
  if isNumber fromLeft then fromLeft
  else if isNumber fromRight then fromRight
  else if left.2 ≤ right.2 ∧ right.2 ≤ left.2 then left.2
  else fromRight

/-- The second column at a key of the first. -/
def interpolate (first : α × α) (rest : List (α × α)) (key : α) : α :=
  let last := rest.getLastD first
  if rest.isEmpty then first.2
  else if !isNumber key then key
  else if last.1 < key then last.2
  else if key < first.1 then first.2
  else
    let rows := (first :: rest).toArray
    let next := placeAfter key rows
    match rows[next - 1]?, rows[next]? with
    | some row, some next => if row.1 ≤ key ∧ key ≤ row.1 then row.2 else chord row next key
    | _, _ => last.2

/-- The second column, by one coordinate of the samples. -/
def column (key value : Point α → α) (first : Point α) (rest : List (Point α)) (at_ : α) : α :=
  let row := fun point => (key point, value point)
  interpolate (row first) (rest.map row) at_

/-! ## Queries -/

/-- How many samples there are. -/
def size (lookup : Lookup α) : Nat := lookup.points.length

/-- The first and the last value of a coordinate. -/
def range? (lookup : Lookup α) (key : Point α → α) : Option (α × α) :=
  match lookup.points with
  | [] => none
  | first :: rest => some (key first, key (rest.getLastD first))

/-- The curve at an offset. -/
def atU? (lookup : Lookup α) (u : α) : Option (Point α) :=
  match lookup.points with
  | [] => none
  | first :: rest =>
    let held := clamp u first.u (rest.getLastD first).u
    some {
      epochIndex := first.epochIndex
      tau := column Point.u Point.tau first rest held
      u := held
      price := column Point.u Point.price first rest held }

/-- The curve some seconds after the start of its epoch. -/
def atTau? (lookup : Lookup α) (tau : α) : Option (Point α) :=
  match lookup.points with
  | [] => none
  | first :: rest =>
    let held := clamp tau first.tau (rest.getLastD first).tau
    some {
      epochIndex := first.epochIndex
      tau := held
      u := column Point.tau Point.u first rest held
      price := column Point.tau Point.price first rest held }

/-- The curve at a fraction of its window. -/
def atFraction? (lookup : Lookup α) (fraction : α) : Option (Point α) :=
  match lookup.range? Point.u with
  | none => none
  | some (low, high) => lookup.atU? (low + (high - low) * fraction)

/-- The nearer of two samples; of two equally near the first. A distance that is not a number is
nearer than every other. -/
def nearer (u : α) (best next : Point α) : Point α :=
  let bestDistance := distance best.u u
  let nextDistance := distance next.u u
  if isNumber bestDistance && (!isNumber nextDistance || decide (nextDistance < bestDistance)) then
    next
  else best

/-- The sample nearest to an offset. -/
def nearest? (lookup : Lookup α) (u : α) : Option (Point α) :=
  match lookup.points with
  | [] => none
  | first :: rest => some (rest.foldl (nearer u) first)

end Lookup

end HyperbolicAuction
