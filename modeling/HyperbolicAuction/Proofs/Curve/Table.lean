import HyperbolicAuction.Curve.Lookup
import HyperbolicAuction.Proofs.Curve.Exact

/-!
# Reading a table

A table whose keys ascend is read between the two rows around a key. The search for them is one over
places, and finds the place at which rows stop being passed; that holds for every type of scalars. In
exact arithmetic what is read there lies on the chord of the two rows, at their ends as well, so it
does not matter to which of two segments a row that they share is counted.

Main statements: `placeAfter_eq`, `interpolate_eq_chord`, `column_of_sample`, `atU?_eq`.
-/

namespace HyperbolicAuction.Lookup

open Scalar Exact

/-! ## The search -/

/-- The row after a key is found where the rows up to it are passed and the others are not. -/
theorem placeAfter_eq {α : Type} [Scalar α] {key : α} {rows : List (α × α)} {place : Nat}
    (place_pos : 1 ≤ place) (place_le : place ≤ rows.length)
    (passed : ∀ index row, rows[index]? = some row → (row.1 ≤ key ↔ index < place))
    (after : ∀ index row, rows[index]? = some row → (key < row.1 ↔ place ≤ index)) :
    placeAfter key rows.toArray = place := by
  refine segmentEnd_eq place_pos place_le ?_ ?_
  · intro index drawn
    have found := List.getElem?_eq_getElem (l := rows) drawn
    rw [List.getElem?_toArray, found, Option.any_some]
    exact decide_eq_decide.2 (passed index _ found)
  · intro index drawn
    have found := List.getElem?_eq_getElem (l := rows) drawn
    rw [List.getElem?_toArray, found, Option.any_some]
    exact decide_eq_decide.2 (after index _ found)

/-! ## Chords -/

theorem chord_eq (left right : ℚ × ℚ) (key : ℚ) :
    chord left right key =
      (right.2 - left.2) / (right.1 - left.1) * (key - left.1) + left.2 := by
  unfold chord
  exact if_pos (isNumber_eq_true _)

theorem chord_left (left right : ℚ × ℚ) : chord left right left.1 = left.2 := by
  rw [chord_eq, sub_self, mul_zero, zero_add]

theorem chord_right {left right : ℚ × ℚ} (less : left.1 < right.1) :
    chord left right right.1 = right.2 := by
  rw [chord_eq, div_mul_cancel₀ _ (sub_pos.2 less).ne', sub_add_cancel]

/-- A chord down falls. -/
theorem chord_strictAnti {left right : ℚ × ℚ} (less : left.1 < right.1) (down : right.2 < left.2) :
    StrictAnti (chord left right) := by
  intro key later before
  have slope : (right.2 - left.2) / (right.1 - left.1) < 0 :=
    div_neg_of_neg_of_pos (sub_neg.2 down) (sub_pos.2 less)
  rw [chord_eq, chord_eq]
  exact add_lt_add_left (mul_lt_mul_of_neg_left (sub_lt_sub_right before _) slope) _

/-- In another unit of the keys the same value is read. -/
theorem chord_mul (left right : ℚ × ℚ) (key : ℚ) {unit : ℚ} (positive : 0 < unit) :
    chord (left.1 * unit, left.2) (right.1 * unit, right.2) (key * unit) = chord left right key := by
  rw [chord_eq, chord_eq]
  congr 1
  show (right.2 - left.2) / (right.1 * unit - left.1 * unit) * (key * unit - left.1 * unit) = _
  rw [← sub_mul, ← sub_mul, div_mul_eq_mul_div, div_mul_eq_mul_div, ← mul_assoc,
    mul_div_mul_right _ _ positive.ne']

/-- Between values in proportion to their keys, so is what is read. -/
theorem chord_of_proportional {left right : ℚ} (less : left < right) (key unit : ℚ) :
    chord (left, left * unit) (right, right * unit) key = key * unit := by
  rw [chord_eq]
  show (right * unit - left * unit) / (right - left) * (key - left) + left * unit = key * unit
  rw [← sub_mul, mul_div_cancel_left₀ unit (sub_pos.2 less).ne']
  ring

/-! ## Reading between two rows -/

variable {rows : List (ℚ × ℚ)} {first left right : ℚ × ℚ} {rest : List (ℚ × ℚ)} {key : ℚ}
  {place : Nat}

theorem getElem?_last {α : Type} (first : α) (rest : List α) :
    (first :: rest)[rest.length]? = some (rest.getLastD first) := by
  rw [List.getLastD_eq_getLast?, ← List.getLast?_cons, List.getLast?_eq_getElem?]
  rfl

/-- A list that has ends starts with the one and goes on to the other. -/
theorem exists_cons_of_ends {α : Type} {items : List α} {first last : α}
    (starts : items.head? = some first) (ends : items.getLast? = some last) :
    ∃ rest, items = first :: rest ∧ rest.getLastD first = last := by
  obtain ⟨rest, rfl⟩ := List.head?_eq_some_iff.1 starts
  rw [List.getLast?_cons, Option.some.injEq, ← List.getLastD_eq_getLast?] at ends
  exact ⟨rest, rfl, ends⟩

/-- Keys that ascend from row to row. -/
def Ascends (rows : List (ℚ × ℚ)) : Prop := rows.Pairwise fun earlier later => earlier.1 < later.1

theorem Ascends.key_lt_key (ascends : Ascends rows) {index later : Nat} {row other : ℚ × ℚ}
    (found : rows[index]? = some row) (foundLater : rows[later]? = some other)
    (less : index < later) : row.1 < other.1 := by
  obtain ⟨within, rfl⟩ := List.getElem?_eq_some_iff.1 found
  obtain ⟨laterWithin, rfl⟩ := List.getElem?_eq_some_iff.1 foundLater
  exact List.pairwise_iff_getElem.1 ascends index later within laterWithin less

theorem Ascends.key_le_key (ascends : Ascends rows) {index later : Nat} {row other : ℚ × ℚ}
    (found : rows[index]? = some row) (foundLater : rows[later]? = some other)
    (ordered : index ≤ later) : row.1 ≤ other.1 := by
  rcases Nat.lt_or_eq_of_le ordered with less | rfl
  · exact (ascends.key_lt_key found foundLater less).le
  · rw [found, Option.some.injEq] at foundLater
    rw [foundLater]

/-- A key that has reached a row and not the next one is after it. -/
theorem placeAfter_of_between (ascends : Ascends rows) {row : ℚ × ℚ}
    (found : rows[place]? = some row) (reached : row.1 ≤ key)
    (short : ∀ next, rows[place + 1]? = some next → key < next.1) :
    placeAfter key rows.toArray = place + 1 := by
  obtain ⟨within, _⟩ := List.getElem?_eq_some_iff.1 found
  have passed (index : Nat) (other : ℚ × ℚ) (foundOther : rows[index]? = some other) :
      other.1 ≤ key ↔ index < place + 1 := by
    constructor
    · intro reachedOther
      by_contra beyond
      obtain ⟨otherWithin, _⟩ := List.getElem?_eq_some_iff.1 foundOther
      have nextWithin : place + 1 < rows.length :=
        Nat.lt_of_le_of_lt (Nat.not_lt.1 beyond) otherWithin
      have foundNext := List.getElem?_eq_getElem nextWithin
      have farther := ascends.key_le_key foundNext foundOther (Nat.not_lt.1 beyond)
      exact absurd (farther.trans reachedOther) (not_le.2 (short _ foundNext))
    · intro before
      exact (ascends.key_le_key foundOther found (Nat.lt_succ_iff.1 before)).trans reached
  refine placeAfter_eq (Nat.succ_pos place) within passed ?_
  intro index other foundOther
  have split := not_congr (passed index other foundOther)
  rwa [not_le, not_lt] at split

/-- Rows in places one after the other, in a table of ascending keys. -/
structure Adjacent (rows : List (ℚ × ℚ)) (place : Nat) (left right : ℚ × ℚ) : Prop where
  ascends : Ascends rows
  left : rows[place]? = some left
  right : rows[place + 1]? = some right

namespace Adjacent

theorem less (adjacent : Adjacent rows place left right) : left.1 < right.1 :=
  adjacent.ascends.key_lt_key adjacent.left adjacent.right (Nat.lt_succ_self place)

/-- A key between two rows is within the table. -/
theorem within (adjacent : Adjacent (first :: rest) place left right) (low : left.1 ≤ key)
    (high : key ≤ right.1) : rest ≠ [] ∧ first.1 ≤ key ∧ key ≤ (rest.getLastD first).1 := by
  obtain ⟨drawn, _⟩ := List.getElem?_eq_some_iff.1 adjacent.right
  have many : rest ≠ [] := by
    rintro rfl
    simp at drawn
  rw [List.length_cons] at drawn
  have atFirst : (first :: rest)[0]? = some first := rfl
  have atLast := getElem?_last first rest
  refine ⟨many, ?_, ?_⟩
  · exact (adjacent.ascends.key_le_key atFirst adjacent.left (Nat.zero_le place)).trans low
  · exact high.trans
      (adjacent.ascends.key_le_key adjacent.right atLast (Nat.lt_succ_iff.1 drawn))

end Adjacent

/-- What is read between two rows lies on their chord. -/
theorem interpolate_eq_chord (adjacent : Adjacent (first :: rest) place left right)
    (low : left.1 ≤ key) (high : key ≤ right.1) :
    interpolate first rest key = chord left right key := by
  obtain ⟨many, fromFirst, toLast⟩ := adjacent.within low high
  have some_ : rest.isEmpty = false := by simpa using many
  unfold interpolate
  simp only [some_, isNumber_eq_true, not_lt.2 fromFirst, not_lt.2 toLast, Bool.not_true,
    Bool.false_eq_true, if_false]
  rcases lt_or_eq_of_le high with before | rfl
  · have short (next : ℚ × ℚ) (foundNext : (first :: rest)[place + 1]? = some next) :
        key < next.1 := by
      cases adjacent.right.symm.trans foundNext
      exact before
    rw [placeAfter_of_between adjacent.ascends adjacent.left low short]
    simp only [List.getElem?_toArray, Nat.add_sub_cancel, adjacent.left, adjacent.right]
    split
    · next atLeft =>
      rw [← le_antisymm atLeft.1 atLeft.2, chord_left]
    · rfl
  · have short (next : ℚ × ℚ) (foundNext : (first :: rest)[place + 1 + 1]? = some next) :
        right.1 < next.1 :=
      (Adjacent.mk adjacent.ascends adjacent.right foundNext).less
    rw [placeAfter_of_between adjacent.ascends adjacent.right (le_refl right.1) short,
      chord_right adjacent.less]
    simp only [List.getElem?_toArray, Nat.add_sub_cancel, adjacent.right]
    cases next : (first :: rest)[place + 1 + 1]? with
    | some row => exact if_pos ⟨le_refl _, le_refl _⟩
    | none =>
      have drawn := (List.getElem?_eq_some_iff.1 adjacent.right).1
      have beyond := List.getElem?_eq_none_iff.1 next
      have last := getElem?_last first rest
      rw [List.length_cons] at drawn beyond
      rw [show rest.length = place + 1 by omega, adjacent.right, Option.some.injEq] at last
      rw [last]

/-! ## Holding a key -/

theorem clamp_eq_min_max (value low high : ℚ) : clamp value low high = min (max value low) high := by
  have raised : (if value < low then low else value) = max value low := larger_eq_max value low
  unfold clamp
  simp only [isNumber_eq_true, raised, Bool.not_true, Bool.false_eq_true, if_false]
  split
  · next less => exact (min_eq_right less.le).symm
  · next notLess => exact (min_eq_left (not_lt.1 notLess)).symm

/-- A value within two bounds is held where it is. -/
theorem clamp_of_within {value low high : ℚ} (above : low ≤ value) (below : value ≤ high) :
    clamp value low high = value := by
  rw [clamp_eq_min_max, max_eq_left above, min_eq_left below]

theorem within_clamp (value : ℚ) {low high : ℚ} (ordered : low ≤ high) :
    low ≤ clamp value low high ∧ clamp value low high ≤ high := by
  rw [clamp_eq_min_max]
  exact ⟨le_min (le_max_right value low) ordered, min_le_right _ _⟩

/-- In another unit the same value is held. -/
theorem clamp_mul (value low high : ℚ) {unit : ℚ} (positive : 0 < unit) :
    clamp (value * unit) (low * unit) (high * unit) = clamp value low high * unit := by
  rw [clamp_eq_min_max, clamp_eq_min_max, min_mul_of_nonneg _ _ positive.le,
    max_mul_of_nonneg _ _ positive.le]

/-! ## Reading samples -/

variable {points : List (Point ℚ)} {start sample next : Point ℚ} {others : List (Point ℚ)} {u : ℚ}

/-- Samples one after the other at ascending coordinates are rows one after the other, whichever
column is read. -/
theorem adjacent_of_points (coordinate value : Point ℚ → ℚ)
    (ascending : points.Pairwise fun earlier later => coordinate earlier < coordinate later)
    (found : points[place]? = some sample) (foundNext : points[place + 1]? = some next) :
    Adjacent (points.map fun point => (coordinate point, value point)) place
      (coordinate sample, value sample) (coordinate next, value next) where
  ascends := List.pairwise_map.2 ascending
  left := by rw [List.getElem?_map, found, Option.map_some]
  right := by rw [List.getElem?_map, foundNext, Option.map_some]

/-- Between two samples every column is read off their chord, by either coordinate. -/
theorem column_eq_chord (coordinate value : Point ℚ → ℚ)
    (ascending : (start :: others).Pairwise fun earlier later =>
      coordinate earlier < coordinate later)
    (found : (start :: others)[place]? = some sample)
    (foundNext : (start :: others)[place + 1]? = some next)
    (low : coordinate sample ≤ key) (high : key ≤ coordinate next) :
    column coordinate value start others key =
      chord (coordinate sample, value sample) (coordinate next, value next) key :=
  interpolate_eq_chord (adjacent_of_points coordinate value ascending found foundNext) low high

/-- A coordinate within the samples lies between two of them, if there are two. -/
theorem exists_around (coordinate : Point ℚ → ℚ) (many : others ≠ [])
    (low : coordinate start ≤ key) (high : key ≤ coordinate (others.getLastD start)) :
    ∃ place sample next, (start :: others)[place]? = some sample ∧
      (start :: others)[place + 1]? = some next ∧ coordinate sample ≤ key ∧
      key ≤ coordinate next := by
  induction others generalizing start with
  | nil => exact absurd rfl many
  | cons second rest ih =>
    rcases le_total key (coordinate second) with before | passed
    · exact ⟨0, start, second, rfl, rfl, low, before⟩
    · cases rest with
      | nil => exact ⟨0, start, second, rfl, rfl, low, high⟩
      | cons third rest =>
        obtain ⟨place, sample, next, found, foundNext, around⟩ :=
          ih (List.cons_ne_nil third rest) passed high
        exact ⟨place + 1, sample, next, found, foundNext, around⟩

/-- At a sample its own value is read. -/
theorem column_of_sample (coordinate value : Point ℚ → ℚ)
    (ascending : (start :: others).Pairwise fun earlier later =>
      coordinate earlier < coordinate later)
    (found : (start :: others)[place]? = some sample) :
    column coordinate value start others (coordinate sample) = value sample := by
  cases place with
  | zero =>
    obtain rfl := Option.some.inj found
    cases others with
    | nil => rfl
    | cons second rest =>
      have less := (adjacent_of_points coordinate value ascending found rfl).less
      rw [column_eq_chord coordinate value ascending found rfl (le_refl _) less.le]
      exact chord_left _ (coordinate second, value second)
  | succ place =>
    have foundBefore := List.getElem?_eq_getElem
      (Nat.lt_of_succ_lt (List.getElem?_eq_some_iff.1 found).1)
    have less := (adjacent_of_points coordinate value ascending foundBefore found).less
    rw [column_eq_chord coordinate value ascending foundBefore found less.le (le_refl _)]
    exact chord_right less

/-- Between two samples every column is read off their chord. -/
theorem atU?_eq (ascending : points.Pairwise fun earlier later => earlier.u < later.u)
    (found : points[place]? = some sample) (foundNext : points[place + 1]? = some next)
    (low : sample.u ≤ u) (high : u ≤ next.u) :
    ∃ point, atU? { points } u = some point ∧ point.u = u ∧
      point.tau = chord (sample.u, sample.tau) (next.u, next.tau) u ∧
      point.price = chord (sample.u, sample.price) (next.u, next.price) u := by
  cases points with
  | nil => cases found
  | cons first rest =>
    have adjacent := adjacent_of_points Point.u Point.price ascending found foundNext
    obtain ⟨many, fromFirst, toLast⟩ := adjacent.within low high
    have held : clamp u first.u (rest.getLastD first).u = u := by
      refine clamp_of_within fromFirst ?_
      rwa [List.getLastD_map] at toLast
    refine ⟨_, rfl, held, ?_, ?_⟩
    · rw [held]
      exact column_eq_chord Point.u Point.tau ascending found foundNext low high
    · rw [held]
      exact column_eq_chord Point.u Point.price ascending found foundNext low high

/-- A time within the samples is read where it is. -/
theorem atTau?_of_within {last : Point ℚ} {tau : ℚ} (first : points.head? = some start)
    (final : points.getLast? = some last) (low : start.tau ≤ tau) (high : tau ≤ last.tau) :
    ∃ point, atTau? ⟨points⟩ tau = some point ∧ point.tau = tau := by
  obtain ⟨rest, rfl, rfl⟩ := exists_cons_of_ends first final
  exact ⟨_, rfl, clamp_of_within low high⟩

end HyperbolicAuction.Lookup
