import HyperbolicAuction.Proofs.Curve.Forms
import HyperbolicAuction.Proofs.Curve.Table
import HyperbolicAuction.Proofs.Curve.Window
import Mathlib.Data.Rat.Floor

/-!
# How far a reading lies above the ask

Between two samples a price is read off a chord of the hyperbola, so it lies above the ask, by an
amount that shrinks with the square of the distance of the samples and is nothing at the samples
themselves. `excess` is that amount. It grows with the segment, so more samples in between never make
a reading worse; and as chords fall, readings fall along the window as the ask does.

All of this is in exact arithmetic, for epochs with a premium.

Main statements: `reading_eq`, `excess_le`, `excess_mono`, `readPrice_eq`, `readPrice_exceeds_ask`.
-/

namespace HyperbolicAuction

open Scalar Exact Outcome

/-- The price that is read at an offset off the samples of a window, if there are samples. -/
def Epoch.readPrice (epoch : Epoch ℚ) (window : Window ℚ) (steps : Int) (u : ℚ) :
    Except ArithmeticError (Option ℚ) := do
  let points ← epoch.samples window steps
  return (Lookup.atU? { points } u).map (·.price)

namespace Exact

variable {floor premium left right innerLeft innerRight u : ℚ}

/-! ## Chords of the hyperbola -/

/-- The ask some half-lives after the start. -/
def hyperbola (floor premium u : ℚ) : ℚ := floor + premium / (u + 1)

/-- What is read at an offset between two others. -/
def reading (floor premium left right u : ℚ) : ℚ :=
  Lookup.chord (left, hyperbola floor premium left) (right, hyperbola floor premium right) u

/-- How far a chord of the hyperbola lies above it. -/
def excess (premium left right u : ℚ) : ℚ :=
  premium / (u + 1) * ((u - left) / (left + 1)) * ((right - u) / (right + 1))

theorem hyperbola_lt (floor : ℚ) (positive : 0 < premium) (nonneg : 0 ≤ left)
    (less : left < right) : hyperbola floor premium right < hyperbola floor premium left :=
  add_lt_add_right
    (div_lt_div_of_pos_left positive (by linarith) (add_lt_add_left less 1)) floor

theorem hyperbola_le (floor : ℚ) (positive : 0 < premium) (nonneg : 0 ≤ left)
    (ordered : left ≤ right) : hyperbola floor premium right ≤ hyperbola floor premium left := by
  rcases lt_or_eq_of_le ordered with less | rfl
  · exact (hyperbola_lt floor positive nonneg less).le
  · exact le_refl _

theorem reading_eq (floor premium : ℚ) (nonneg : 0 ≤ left) (less : left < right) (low : 0 ≤ u) :
    reading floor premium left right u =
      hyperbola floor premium u + excess premium left right u := by
  have leftDivides : left + 1 ≠ 0 := by linarith
  have rightDivides : right + 1 ≠ 0 := by linarith
  have divides : u + 1 ≠ 0 := by linarith
  have apart : right - left ≠ 0 := (sub_pos.2 less).ne'
  unfold reading hyperbola excess
  rw [Lookup.chord_eq]
  field_simp
  ring

theorem reading_left (floor premium left right : ℚ) :
    reading floor premium left right left = hyperbola floor premium left :=
  Lookup.chord_left (left, _) (right, _)

theorem reading_right (floor premium : ℚ) (less : left < right) :
    reading floor premium left right right = hyperbola floor premium right :=
  Lookup.chord_right less

theorem reading_strictAnti (floor : ℚ) (positive : 0 < premium) (nonneg : 0 ≤ left)
    (less : left < right) : StrictAnti (reading floor premium left right) :=
  Lookup.chord_strictAnti less (hyperbola_lt floor positive nonneg less)

/-- The bounds of a segment around an offset. -/
structure Around (left right u : ℚ) : Prop where
  nonneg : 0 ≤ left
  low : left ≤ u
  high : u ≤ right

theorem excess_left (premium left right : ℚ) : excess premium left right left = 0 := by
  rw [excess, sub_self, zero_div, mul_zero, zero_mul]

theorem excess_right (premium left right : ℚ) : excess premium left right right = 0 := by
  rw [excess, sub_self, zero_div, mul_zero]

theorem excess_nonneg (positive : 0 < premium) (around : Around left right u) :
    0 ≤ excess premium left right u := by
  obtain ⟨nonneg, low, high⟩ := around
  have fromLeft : 0 ≤ u - left := sub_nonneg.2 low
  have toRight : 0 ≤ right - u := sub_nonneg.2 high
  have leftDivides : 0 < left + 1 := by linarith
  have rightDivides : 0 < right + 1 := by linarith
  have divides : 0 < u + 1 := by linarith
  unfold excess
  positivity

/-- On a wider segment the chord lies farther above. -/
theorem excess_mono (positive : 0 < premium) (around : Around innerLeft innerRight u)
    (nonneg : 0 ≤ left) (low : left ≤ innerLeft) (high : innerRight ≤ right) :
    excess premium innerLeft innerRight u ≤ excess premium left right u := by
  obtain ⟨innerNonneg, innerLow, innerHigh⟩ := around
  have divides : 0 < u + 1 := by linarith
  have fromLeft : (u - innerLeft) / (innerLeft + 1) ≤ (u - left) / (left + 1) :=
    div_le_div₀ (by linarith) (by linarith) (by linarith) (by linarith)
  have toRight : (innerRight - u) / (innerRight + 1) ≤ (right - u) / (right + 1) := by
    rw [div_le_div_iff₀ (by linarith) (by linarith)]
    nlinarith
  have innerFromLeft : 0 ≤ (u - innerLeft) / (innerLeft + 1) :=
    div_nonneg (by linarith) (by linarith)
  have innerToRight : 0 ≤ (innerRight - u) / (innerRight + 1) :=
    div_nonneg (by linarith) (by linarith)
  have share : 0 ≤ premium / (u + 1) := div_nonneg positive.le divides.le
  unfold excess
  exact mul_le_mul (mul_le_mul_of_nonneg_left fromLeft share) toRight innerToRight
    (mul_nonneg share (innerFromLeft.trans fromLeft))

/-- A chord lies above by at most a quarter of the premium for a segment of one half-life, and by the
square of its length for another. -/
theorem excess_le (positive : 0 < premium) (around : Around left right u) :
    excess premium left right u ≤ premium * (right - left) ^ 2 / 4 := by
  obtain ⟨nonneg, low, high⟩ := around
  have fromLeft : 0 ≤ u - left := sub_nonneg.2 low
  have toRight : 0 ≤ right - u := sub_nonneg.2 high
  calc excess premium left right u
      ≤ premium * (u - left) * (right - u) := by
        unfold excess
        have share : premium / (u + 1) ≤ premium := div_le_self positive.le (by linarith)
        have leftPart : (u - left) / (left + 1) ≤ u - left := div_le_self fromLeft (by linarith)
        have rightPart : (right - u) / (right + 1) ≤ right - u := div_le_self toRight (by linarith)
        have leftNonneg : 0 ≤ (u - left) / (left + 1) := div_nonneg fromLeft (by linarith)
        have rightNonneg : 0 ≤ (right - u) / (right + 1) := div_nonneg toRight (by linarith)
        exact mul_le_mul (mul_le_mul share leftPart leftNonneg positive.le) rightPart rightNonneg
          (mul_nonneg positive.le fromLeft)
    _ ≤ premium * (right - left) ^ 2 / 4 := by
        nlinarith [mul_nonneg positive.le (sq_nonneg ((u - left) - (right - u)))]

/-! ## Offsets of a window -/

variable {bound : ℚ} {count index : Nat}

theorem offset_strictMono (positive : 0 < bound) (some_ : 0 < count) :
    StrictMono (offset bound count) := by
  intro index later less
  have counts : (index : ℚ) < later := Nat.cast_lt.2 less
  exact div_lt_div_of_pos_right (mul_lt_mul_of_pos_left counts positive) (Nat.cast_pos.2 some_)

theorem offset_nonneg (positive : 0 < bound) (count index : Nat) : 0 ≤ offset bound count index :=
  div_nonneg (mul_nonneg positive.le (Nat.cast_nonneg index)) (Nat.cast_nonneg count)

theorem offset_zero (bound : ℚ) (count : Nat) : offset bound count 0 = 0 := by
  rw [offset, Nat.cast_zero, mul_zero, zero_div]

theorem offset_last (bound : ℚ) (some_ : 0 < count) : offset bound count count = bound :=
  mul_div_cancel_right₀ bound (Nat.cast_ne_zero.2 some_.ne')

theorem offset_succ_sub (bound : ℚ) (count index : Nat) :
    offset bound count (index + 1) - offset bound count index = bound / count := by
  unfold offset
  push_cast
  ring

/-- Of more segments, some end where one of fewer does. -/
theorem offset_mul_mul (bound : ℚ) {factor : Nat} (scaled : 0 < factor) :
    offset bound (factor * count) (factor * index) = offset bound count index := by
  have divides : (factor : ℚ) ≠ 0 := Nat.cast_ne_zero.2 scaled.ne'
  unfold offset
  push_cast
  rw [mul_left_comm, mul_div_mul_left _ _ divides]

/-! ## Samples of a window -/

theorem drawn_ascending (epoch : Epoch ℚ) (positive : 0 < bound) (some_ : 0 < count) :
    (drawn epoch bound count).Pairwise fun earlier later => earlier.u < later.u :=
  List.pairwise_map.2 (List.pairwise_lt_range.imp (offset_strictMono positive some_).lt_iff_lt.2)

theorem getElem?_drawn (epoch : Epoch ℚ) (bound : ℚ) (within : index ≤ count) :
    (drawn epoch bound count)[index]? = some (epoch.pointAt (offset bound count index)) := by
  rw [drawn, List.getElem?_map, List.getElem?_range (Nat.lt_succ_of_le within), Option.map_some]

theorem head?_drawn (epoch : Epoch ℚ) (bound : ℚ) (count : Nat) :
    (drawn epoch bound count).head? = some (epoch.pointAt 0) := by
  rw [List.head?_eq_getElem?, getElem?_drawn epoch bound (Nat.zero_le count), offset_zero]

theorem getLast?_drawn (epoch : Epoch ℚ) (bound : ℚ) (some_ : 0 < count) :
    (drawn epoch bound count).getLast? = some (epoch.pointAt bound) := by
  have length : (drawn epoch bound count).length - 1 = count := by
    rw [drawn, List.length_map, List.length_range, Nat.add_sub_cancel]
  rw [List.getLast?_eq_getElem?, length, getElem?_drawn epoch bound (le_refl count),
    offset_last bound some_]

/-! ## Segments -/

/-- An offset on one of the segments of a window. -/
structure OnSegment (bound : ℚ) (count index : Nat) (u : ℚ) : Prop where
  within : index < count
  low : offset bound count index ≤ u
  high : u ≤ offset bound count (index + 1)

theorem OnSegment.around (on : OnSegment bound count index u) (positive : 0 < bound) :
    Around (offset bound count index) (offset bound count (index + 1)) u :=
  ⟨offset_nonneg positive count index, on.low, on.high⟩

/-- One of more segments is part of one of fewer. -/
theorem OnSegment.exists_coarser {factor fine : Nat} (on : OnSegment bound (factor * count) fine u)
    (positive : 0 < bound) :
    ∃ index, OnSegment bound count index u ∧
      offset bound count index ≤ offset bound (factor * count) fine ∧
      offset bound (factor * count) (fine + 1) ≤ offset bound count (index + 1) := by
  obtain ⟨within, fromFine, toFine⟩ := on
  have some_ : 0 < factor * count := Nat.zero_lt_of_lt within
  have scaled : 0 < factor := Nat.pos_of_mul_pos_right some_
  have grows := (offset_strictMono positive some_).monotone
  have low : offset bound count (fine / factor) ≤ offset bound (factor * count) fine :=
    (offset_mul_mul bound scaled).symm.trans_le (grows (Nat.mul_div_le fine factor))
  have high : offset bound (factor * count) (fine + 1) ≤ offset bound count (fine / factor + 1) :=
    (grows (Nat.lt_mul_div_succ fine scaled)).trans_eq (offset_mul_mul bound scaled)
  exact ⟨_, ⟨Nat.div_lt_of_lt_mul within, low.trans fromFine, toFine.trans high⟩, low, high⟩

/-- Every offset before the end of a window is on a segment, and not at its end. -/
theorem exists_segment (positive : 0 < bound) (some_ : 0 < count) (low : 0 ≤ u) (high : u < bound) :
    ∃ index, OnSegment bound count index u ∧ u < offset bound count (index + 1) := by
  have countPositive : (0 : ℚ) < count := Nat.cast_pos.2 some_
  have passed : 0 ≤ u * count / bound := by positivity
  have start : offset bound count ⌊u * count / bound⌋₊ ≤ u := by
    rw [offset, div_le_iff₀ countPositive, mul_comm, ← le_div_iff₀ positive]
    exact Nat.floor_le passed
  have before : u < offset bound count (⌊u * count / bound⌋₊ + 1) := by
    rw [offset, lt_div_iff₀ countPositive, mul_comm bound, ← div_lt_iff₀ positive]
    push_cast
    exact Nat.lt_floor_add_one _
  refine ⟨_, ⟨?_, start, before.le⟩, before⟩
  by_contra beyond
  have ended := (offset_strictMono positive some_).monotone (not_lt.1 beyond)
  rw [offset_last bound some_] at ended
  exact absurd (ended.trans start) (not_le.2 high)

/-- Every offset of a window is on a segment. -/
theorem exists_onSegment (positive : 0 < bound) (some_ : 0 < count) (low : 0 ≤ u)
    (high : u ≤ bound) :
    ∃ index, OnSegment bound count index u := by
  rcases lt_or_eq_of_le high with before | rfl
  · obtain ⟨index, on, _⟩ := exists_segment positive some_ low before
    exact ⟨index, on⟩
  · have last : count - 1 + 1 = count := Nat.sub_add_cancel some_
    have ended := offset_last u some_
    refine ⟨count - 1, ⟨Nat.sub_lt some_ Nat.one_pos, ?_, ?_⟩⟩
    · calc offset u count (count - 1) ≤ offset u count count :=
          (offset_strictMono positive some_).monotone (Nat.sub_le count 1)
        _ = u := ended
    · rw [last, ended]

/-! ## Readings of a window -/

/-- A window that has an end, of an epoch that defines a curve and has a premium. -/
structure Bounded (epoch : Epoch ℚ) (window : Window ℚ) (premium bound : ℚ) : Prop where
  defines : epoch.definesCurve = true
  known : epoch.premiumRate = some premium
  found : window.bound epoch = .ok (some bound)

variable {epoch : Epoch ℚ} {window : Window ℚ}

namespace Bounded

theorem decay (bounded : Bounded epoch window premium bound) : 0 < epoch.k :=
  (definesCurve_iff.1 bounded.defines).1

theorem premium_pos (bounded : Bounded epoch window premium bound) : 0 < premium :=
  (definesCurve_iff.1 bounded.defines).2 premium bounded.known

theorem bound_pos (bounded : Bounded epoch window premium bound) : 0 < bound :=
  isUsable_iff.1 (isUsable_of_bound bounded.found)

theorem halfLife (bounded : Bounded epoch window premium bound) :
    epoch.halfLife = some (epoch.k / max premium epsilon) :=
  halfLife_of_some bounded.known bounded.premium_pos

theorem askAfter (bounded : Bounded epoch window premium bound) (nonneg : 0 ≤ u) :
    epoch.askAfter (u * (epoch.k / max premium epsilon)) =
      .ok (hyperbola epoch.floor (max premium epsilon) u) := by
  rw [askAfter_eq bounded.decay, price_halfLives bounded.decay bounded.known nonneg]
  rfl

theorem samples (bounded : Bounded epoch window premium bound) (some_ : 0 < count) :
    epoch.samples window count = .ok (drawn epoch bound count) :=
  samples_eq bounded.defines (requested_of_bound bounded.known bounded.found) bounded.found
    (Int.ofNat_lt.2 some_)

theorem pointAt_price (bounded : Bounded epoch window premium bound) (nonneg : 0 ≤ u) :
    (epoch.pointAt u).price = hyperbola epoch.floor (max premium epsilon) u := by
  show epoch.price (u * epoch.unitSeconds) = _
  rw [unitSeconds_of_some bounded.known bounded.premium_pos,
    price_halfLives bounded.decay bounded.known nonneg]
  rfl

/-- On each segment the price is read off the chord between the samples at its ends. -/
theorem readPrice_eq (bounded : Bounded epoch window premium bound)
    (on : OnSegment bound count index u) :
    epoch.readPrice window count u =
      .ok (some (reading epoch.floor (max premium epsilon) (offset bound count index)
        (offset bound count (index + 1)) u)) := by
  have positive := bounded.bound_pos
  have some_ : 0 < count := Nat.zero_lt_of_lt on.within
  obtain ⟨point, read, _, _, price⟩ := Lookup.atU?_eq (drawn_ascending epoch positive some_)
    (getElem?_drawn epoch bound on.within.le) (getElem?_drawn epoch bound on.within) on.low on.high
  unfold Epoch.readPrice
  rw [bounded.samples some_, ok_do, read, Option.map_some, price,
    bounded.pointAt_price (offset_nonneg positive count index),
    bounded.pointAt_price (offset_nonneg positive count (index + 1))]
  rfl

theorem readPrice_eq_add_excess (bounded : Bounded epoch window premium bound)
    (on : OnSegment bound count index u) :
    epoch.readPrice window count u =
      .ok (some (hyperbola epoch.floor (max premium epsilon) u +
        excess (max premium epsilon) (offset bound count index)
          (offset bound count (index + 1)) u)) := by
  have around := on.around bounded.bound_pos
  have less := offset_strictMono bounded.bound_pos (Nat.zero_lt_of_lt on.within)
    (Nat.lt_succ_self index)
  rw [bounded.readPrice_eq on, reading_eq _ _ around.nonneg less (around.nonneg.trans around.low)]

/-- More samples in between never put a reading farther from the ask. -/
theorem readPrice_refines (bounded : Bounded epoch window premium bound) (some_ : 0 < count)
    {factor : Nat} (scaled : 0 < factor) (low : 0 ≤ u) (high : u ≤ bound) :
    ∃ error finerError,
      epoch.readPrice window count u =
        .ok (some (hyperbola epoch.floor (max premium epsilon) u + error)) ∧
      epoch.readPrice window (factor * count : Nat) u =
        .ok (some (hyperbola epoch.floor (max premium epsilon) u + finerError)) ∧
      finerError ≤ error := by
  have positive := bounded.bound_pos
  obtain ⟨fine, onFine⟩ := exists_onSegment positive (Nat.mul_pos scaled some_) low high
  obtain ⟨index, on, before, after⟩ := onFine.exists_coarser positive
  exact ⟨_, _, bounded.readPrice_eq_add_excess on, bounded.readPrice_eq_add_excess onFine,
    excess_mono (divisor_pos premium) (onFine.around positive) (offset_nonneg positive count index)
      before after⟩

/-- At a sample the ask itself is read. -/
theorem readPrice_offset (bounded : Bounded epoch window premium bound) (some_ : 0 < count)
    (within : index ≤ count) :
    epoch.readPrice window count (offset bound count index) =
      .ok (some (hyperbola epoch.floor (max premium epsilon) (offset bound count index))) := by
  have grows := (offset_strictMono bounded.bound_pos some_).monotone
  rcases lt_or_eq_of_le within with before | rfl
  · have on : OnSegment bound count index (offset bound count index) :=
      ⟨before, le_refl _, grows (Nat.le_succ index)⟩
    rw [bounded.readPrice_eq_add_excess on, excess_left, add_zero]
  · have last : index - 1 + 1 = index := Nat.sub_add_cancel some_
    have on : OnSegment bound index (index - 1) (offset bound index index) :=
      ⟨Nat.sub_lt some_ Nat.one_pos, grows (Nat.sub_le index 1), by rw [last]⟩
    rw [bounded.readPrice_eq_add_excess on, last, excess_right, add_zero]

/-- Readings fall along each chord, and every chord starts no higher than one before it ends. -/
theorem readPrice_strictAnti (bounded : Bounded epoch window premium bound) (some_ : 0 < count)
    {later : ℚ} (low : 0 ≤ u) (less : u < later) (high : later ≤ bound) :
    ∃ price lower, epoch.readPrice window count u = .ok (some price) ∧
      epoch.readPrice window count later = .ok (some lower) ∧ lower < price := by
  have positive := bounded.bound_pos
  have grows := offset_strictMono positive some_
  have nonneg := offset_nonneg positive count
  have premiumPositive := divisor_pos premium
  have falls (index : Nat) : StrictAnti (reading epoch.floor (max premium epsilon)
      (offset bound count index) (offset bound count (index + 1))) :=
    reading_strictAnti epoch.floor premiumPositive (nonneg index) (grows (Nat.lt_succ_self index))
  obtain ⟨index, on, before⟩ := exists_segment positive some_ low (less.trans_le high)
  rcases le_or_gt later (offset bound count (index + 1)) with same | passed
  · have onLater : OnSegment bound count index later := ⟨on.within, on.low.trans less.le, same⟩
    exact ⟨_, _, bounded.readPrice_eq on, bounded.readPrice_eq onLater, falls index less⟩
  · obtain ⟨next, onLater⟩ := exists_onSegment positive some_ (low.trans less.le) high
    have ordered : index + 1 ≤ next :=
      Nat.lt_succ_iff.1 (grows.lt_iff_lt.1 (passed.trans_le onLater.high))
    refine ⟨_, _, bounded.readPrice_eq on, bounded.readPrice_eq onLater, ?_⟩
    calc reading epoch.floor (max premium epsilon) (offset bound count next)
          (offset bound count (next + 1)) later
        ≤ hyperbola epoch.floor (max premium epsilon) (offset bound count next) := by
          rw [← reading_left _ _ _ (offset bound count (next + 1))]
          exact (falls next).antitone onLater.low
      _ ≤ hyperbola epoch.floor (max premium epsilon) (offset bound count (index + 1)) :=
          hyperbola_le epoch.floor premiumPositive (nonneg (index + 1))
            (grows.monotone ordered)
      _ < reading epoch.floor (max premium epsilon) (offset bound count index)
          (offset bound count (index + 1)) u := by
          rw [← reading_right _ _ (grows (Nat.lt_succ_self index))]
          exact falls index before

end Bounded

end Exact

variable {epoch : Epoch ℚ} {window : Window ℚ} {premium bound : ℚ} {steps : Nat}

/-- Readings of a window of an epoch with a premium lie above the ask, by no more than a quarter of the
premium by the square of the length of a segment, and fall strictly along the window. At the samples
they are the ask, and with some segments for each segment none of them gets worse. -/
theorem readPrice_exceeds_ask (defines : epoch.definesCurve = true)
    (known : epoch.premiumRate = some premium) (found : window.bound epoch = .ok (some bound))
    (many : 1 ≤ steps) :
    ∃ halfLife, epoch.halfLife = some halfLife ∧
      (∀ u, 0 ≤ u → u ≤ bound → ∃ read price,
        epoch.readPrice window steps u = .ok (some read) ∧
        epoch.askAfter (u * halfLife) = .ok price ∧
        0 ≤ read - price ∧
        read - price ≤ max premium epsilon * (bound / steps) ^ 2 / 4 ∧
        ∀ factor, 1 ≤ factor → ∃ finer,
          epoch.readPrice window (factor * steps : Nat) u = .ok (some finer) ∧
          finer - price ≤ read - price) ∧
      (∃ points, epoch.samples window steps = .ok points ∧ points.length = steps + 1 ∧
        ∀ sample ∈ points, ∃ price,
          epoch.readPrice window steps sample.u = .ok (some price) ∧
          epoch.askAfter (sample.u * halfLife) = .ok price) ∧
      ∀ u later, 0 ≤ u → u < later → later ≤ bound → ∃ price lower,
        epoch.readPrice window steps u = .ok (some price) ∧
        epoch.readPrice window steps later = .ok (some lower) ∧ lower < price := by
  have bounded : Bounded epoch window premium bound := ⟨defines, known, found⟩
  have positive := bounded.bound_pos
  refine ⟨_, bounded.halfLife, ?_, ?_, ?_⟩
  · intro u low high
    obtain ⟨index, on⟩ := exists_onSegment positive many low high
    have around := on.around positive
    have read := bounded.readPrice_eq_add_excess on
    refine ⟨_, _, read, bounded.askAfter low, ?_, ?_, ?_⟩
    · rw [add_sub_cancel_left]
      exact excess_nonneg (divisor_pos premium) around
    · rw [add_sub_cancel_left, ← offset_succ_sub bound steps index]
      exact excess_le (divisor_pos premium) around
    · intro factor scaled
      obtain ⟨error, finerError, coarse, finer, smaller⟩ :=
        bounded.readPrice_refines many scaled low high
      rw [read, Except.ok.injEq, Option.some.injEq] at coarse
      refine ⟨_, finer, ?_⟩
      rw [coarse, add_sub_cancel_left, add_sub_cancel_left]
      exact smaller
  · refine ⟨_, bounded.samples many, ?_, ?_⟩
    · rw [drawn, List.length_map, List.length_range]
    · intro sample mem
      obtain ⟨index, within, rfl⟩ := List.mem_map.1 mem
      have inside := Nat.lt_succ_iff.1 (List.mem_range.1 within)
      exact ⟨_, bounded.readPrice_offset many inside,
        bounded.askAfter (offset_nonneg positive steps index)⟩
  · intro u later low less high
    exact bounded.readPrice_strictAnti many low less high

/-- An epoch whose premium halves in half a second. -/
def steepEpoch : Epoch ℚ where
  index := 2
  floor := 1
  k := 2
  premiumRate := some 4
  startTime := 10
  nowTime := 10

/-- A window of two half-lives. -/
def twoHalfLives : Window ℚ where
  requested := some 2
  leastHalfLives := 10
  fallbackSeconds := 600

theorem readPrice_exceeds_ask_steep :
    steepEpoch.definesCurve = true ∧ twoHalfLives.bound steepEpoch = .ok (some 2) ∧
      steepEpoch.readPrice twoHalfLives 1 1 = .ok (some (11 / 3)) ∧
      steepEpoch.askAfter (1 / 2) = .ok 3 ∧ (11 / 3 - 3 : ℚ) ≤ 4 * (2 / 1) ^ 2 / 4 ∧
      ∃ finer, steepEpoch.readPrice twoHalfLives 2 1 = .ok (some finer) ∧
        finer - 3 ≤ (11 / 3 - 3 : ℚ) := by
  have defines : steepEpoch.definesCurve = true := by decide +kernel
  have found : twoHalfLives.bound steepEpoch = .ok (some 2) := by decide +kernel
  have half : steepEpoch.halfLife = some (1 / 2) := by decide +kernel
  have halfway : steepEpoch.readPrice twoHalfLives 1 1 = .ok (some (11 / 3)) := by decide +kernel
  have asked : steepEpoch.askAfter (1 / 2) = .ok 3 := by decide +kernel
  obtain ⟨halfLife, foundHalf, bounds, -, -⟩ :=
    @readPrice_exceeds_ask steepEpoch twoHalfLives 4 2 1 defines rfl found (le_refl 1)
  obtain ⟨read, price, isRead, isAsk, -, close, refines⟩ := bounds 1 zero_le_one one_le_two
  rw [half, Option.some.injEq] at foundHalf
  subst foundHalf
  cases halfway.symm.trans isRead
  rw [one_mul, asked] at isAsk
  cases isAsk
  obtain ⟨finer, isFiner, better⟩ := refines 2 one_le_two
  refine ⟨defines, found, halfway, asked, ?_, finer, isFiner, better⟩
  have premium : max (4 : ℚ) epsilon = 4 := by decide +kernel
  rwa [premium] at close

end HyperbolicAuction
