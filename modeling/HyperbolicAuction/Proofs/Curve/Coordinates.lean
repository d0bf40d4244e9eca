import HyperbolicAuction.Proofs.Curve.Accuracy

/-!
# Two coordinates of one curve

A curve is read by offsets or by seconds. The two searches go through different columns, but the
columns of drawn samples are in step: every time is its offset in another unit. So both searches end at
one segment, weigh its ends alike, and hold a coordinate beyond the ends at the same sample. What is
read by one coordinate is read again by the other, and a fraction of the window is read at that
fraction of its end.

`Epoch.InStep` is what the samples have to keep to, `inStep_drawn` that drawn ones do.

Main statements: `InStep.atTau?_mul`, `coordinates_agree`.
-/

namespace HyperbolicAuction

open Scalar Exact

/-- Samples of an epoch at ascending offsets, each at the time that its offset stands for. -/
structure Epoch.InStep (epoch : Epoch ℚ) (points : List (Point ℚ)) : Prop where
  unit_pos : 0 < epoch.unitSeconds
  ascending : points.Pairwise fun earlier later => earlier.u < later.u
  index : ∀ point ∈ points, point.epochIndex = epoch.index
  time : ∀ point ∈ points, point.tau = point.u * epoch.unitSeconds

/-- Whatever a curve is read by, the same points of it are read: every query is answered, and a point
that is read by one coordinate is read by the other. A fraction is one of the window, and held at its
ends. -/
structure Lookup.CoordinatesAgree (lookup : Lookup ℚ) (unit bound : ℚ) (first last : Point ℚ) :
    Prop where
  byOffset : ∀ u, ∃ point, lookup.atU? u = some point ∧ point.tau = unit * point.u ∧
    lookup.atTau? point.tau = some point
  byTime : ∀ tau, ∃ point, lookup.atTau? tau = some point ∧ lookup.atU? point.u = some point
  byFraction : ∀ fraction, lookup.atFraction? fraction = lookup.atU? (fraction * bound)
  before : ∀ fraction ≤ 0, lookup.atFraction? fraction = some first
  behind : ∀ fraction, 1 ≤ fraction → lookup.atFraction? fraction = some last

namespace Epoch.InStep

open Lookup

variable {epoch : Epoch ℚ} {points others : List (Point ℚ)} {start last point : Point ℚ}
  {u tau held : ℚ}

theorem ascendingTimes (inStep : epoch.InStep points) :
    points.Pairwise fun earlier later => earlier.tau < later.tau := by
  refine inStep.ascending.imp_of_mem fun {earlier later} inPoints laterInPoints less => ?_
  rw [inStep.time earlier inPoints, inStep.time later laterInPoints]
  exact mul_lt_mul_of_pos_right less inStep.unit_pos

theorem start_le_last (inStep : epoch.InStep (start :: others)) :
    start.u ≤ (others.getLastD start).u := by
  rcases List.mem_cons.1 List.getLastD_mem_cons with isStart | behind
  · rw [isStart]
  · exact ((List.pairwise_cons.1 inStep.ascending).1 _ behind).le

/-! ## Columns -/

/-- In seconds the same value is read as in offsets. -/
theorem column_mul (inStep : epoch.InStep (start :: others)) (value : Point ℚ → ℚ)
    (low : start.u ≤ held) (high : held ≤ (others.getLastD start).u) :
    column Point.tau value start others (held * epoch.unitSeconds) =
      column Point.u value start others held := by
  have positive := inStep.unit_pos
  cases others with
  | nil => rfl
  | cons second rest =>
    obtain ⟨place, sample, next, found, foundNext, fromSample, toNext⟩ :=
      exists_around Point.u (List.cons_ne_nil second rest) low high
    have time := inStep.time sample (List.mem_of_getElem? found)
    have timeNext := inStep.time next (List.mem_of_getElem? foundNext)
    rw [column_eq_chord Point.u value inStep.ascending found foundNext fromSample toNext,
      column_eq_chord Point.tau value inStep.ascendingTimes found foundNext, time, timeNext]
    · exact chord_mul (sample.u, value sample) (next.u, value next) held positive
    · rw [time]
      exact mul_le_mul_of_nonneg_right fromSample positive.le
    · rw [timeNext]
      exact mul_le_mul_of_nonneg_right toNext positive.le

/-- A value that is an offset in some unit is read as the offset in that unit. -/
theorem column_of_proportional (inStep : epoch.InStep (start :: others)) (value : Point ℚ → ℚ)
    (unit : ℚ) (proportional : ∀ point ∈ start :: others, value point = point.u * unit)
    (low : start.u ≤ held) (high : held ≤ (others.getLastD start).u) :
    column Point.u value start others held = held * unit := by
  cases others with
  | nil =>
    rw [le_antisymm high low]
    exact proportional start List.mem_cons_self
  | cons second rest =>
    obtain ⟨place, sample, next, found, foundNext, fromSample, toNext⟩ :=
      exists_around Point.u (List.cons_ne_nil second rest) low high
    have less := (adjacent_of_points Point.u value inStep.ascending found foundNext).less
    rw [column_eq_chord Point.u value inStep.ascending found foundNext fromSample toNext,
      proportional sample (List.mem_of_getElem? found),
      proportional next (List.mem_of_getElem? foundNext)]
    exact chord_of_proportional less held unit

/-! ## Queries -/

/-- The point that is read by an offset. -/
theorem atU?_cons (inStep : epoch.InStep (start :: others)) (u : ℚ) :
    let held := clamp u start.u (others.getLastD start).u
    atU? ⟨start :: others⟩ u = some {
      epochIndex := start.epochIndex
      tau := held * epoch.unitSeconds
      u := held
      price := column Point.u Point.price start others held } := by
  intro held
  obtain ⟨low, high⟩ := within_clamp u inStep.start_le_last
  have time := inStep.column_of_proportional Point.tau epoch.unitSeconds inStep.time low high
  rw [← time]
  rfl

/-- By seconds the same point is read as by the offset that stands for them. -/
theorem atTau?_mul (inStep : epoch.InStep points) (u : ℚ) :
    atTau? ⟨points⟩ (u * epoch.unitSeconds) = atU? ⟨points⟩ u := by
  cases points with
  | nil => rfl
  | cons start others =>
    obtain ⟨low, high⟩ := within_clamp u inStep.start_le_last
    have offset := inStep.column_of_proportional Point.u 1
      (fun point _ => (mul_one point.u).symm) low high
    rw [mul_one] at offset
    rw [inStep.atU?_cons]
    simp only [atTau?, inStep.time start List.mem_cons_self,
      inStep.time _ List.getLastD_mem_cons, clamp_mul u _ _ inStep.unit_pos,
      inStep.column_mul _ low high, offset]

/-- What is read by an offset lies at the time of the offset that is read, and is read there again. -/
theorem of_atU? (inStep : epoch.InStep points) (read : atU? ⟨points⟩ u = some point) :
    point.tau = point.u * epoch.unitSeconds ∧ atU? ⟨points⟩ point.u = some point := by
  cases points with
  | nil => cases read
  | cons start others =>
    obtain ⟨low, high⟩ := within_clamp u inStep.start_le_last
    rw [inStep.atU?_cons, Option.some.injEq] at read
    subst read
    refine ⟨rfl, ?_⟩
    rw [inStep.atU?_cons]
    simp only [clamp_of_within low high]

theorem atTau?_of_atU? (inStep : epoch.InStep points) (read : atU? ⟨points⟩ u = some point) :
    atTau? ⟨points⟩ point.tau = some point := by
  obtain ⟨time, again⟩ := inStep.of_atU? read
  rw [time, inStep.atTau?_mul, again]

theorem atU?_of_atTau? (inStep : epoch.InStep points) (read : atTau? ⟨points⟩ tau = some point) :
    atU? ⟨points⟩ point.u = some point := by
  rw [← div_mul_cancel₀ tau inStep.unit_pos.ne', inStep.atTau?_mul] at read
  exact (inStep.of_atU? read).2

/-! ## Ends -/

theorem atU?_before (inStep : epoch.InStep (start :: others)) (before : u ≤ start.u) :
    atU? ⟨start :: others⟩ u = some start := by
  have held : clamp u start.u (others.getLastD start).u = start.u := by
    rw [clamp_eq_min_max, max_eq_right before, min_eq_left inStep.start_le_last]
  have found : (start :: others)[0]? = some start := rfl
  have price := column_of_sample Point.u Point.price inStep.ascending found
  rw [inStep.atU?_cons, held, price, ← inStep.time start List.mem_cons_self]

theorem atU?_behind (inStep : epoch.InStep (start :: others))
    (behind : (others.getLastD start).u ≤ u) :
    atU? ⟨start :: others⟩ u = some (others.getLastD start) := by
  have passed := inStep.start_le_last.trans behind
  have held : clamp u start.u (others.getLastD start).u = (others.getLastD start).u := by
    rw [clamp_eq_min_max, max_eq_left passed, min_eq_right behind]
  have price := column_of_sample Point.u Point.price inStep.ascending (getElem?_last start others)
  have index := (inStep.index start List.mem_cons_self).trans
    (inStep.index _ List.getLastD_mem_cons).symm
  rw [inStep.atU?_cons, held, price, index, ← inStep.time _ List.getLastD_mem_cons]

/-- The coordinates of samples in step agree, if the first one is at the start. -/
theorem coordinatesAgree (inStep : epoch.InStep points) (first : points.head? = some start)
    (final : points.getLast? = some last) (begins : start.u = 0) :
    Lookup.CoordinatesAgree ⟨points⟩ epoch.unitSeconds last.u start last := by
  obtain ⟨others, rfl, rfl⟩ := exists_cons_of_ends first final
  have byFraction (fraction : ℚ) : atFraction? ⟨start :: others⟩ fraction =
      atU? ⟨start :: others⟩ (fraction * (others.getLastD start).u) := by
    unfold atFraction? range?
    dsimp only
    rw [begins, zero_add, sub_zero, mul_comm]
  have endNonneg : 0 ≤ (others.getLastD start).u := begins.symm.trans_le inStep.start_le_last
  refine ⟨?_, ?_, byFraction, ?_, ?_⟩
  · intro u
    have read := inStep.atU?_cons u
    refine ⟨_, read, ?_, inStep.atTau?_of_atU? read⟩
    rw [(inStep.of_atU? read).1, mul_comm]
  · intro tau
    obtain ⟨point, read⟩ : ∃ point, atTau? ⟨start :: others⟩ tau = some point := ⟨_, rfl⟩
    exact ⟨point, read, inStep.atU?_of_atTau? read⟩
  · intro fraction few
    rw [byFraction]
    exact inStep.atU?_before (begins ▸ mul_nonpos_of_nonpos_of_nonneg few endNonneg)
  · intro fraction many
    rw [byFraction]
    exact inStep.atU?_behind (le_mul_of_one_le_left endNonneg many)

end Epoch.InStep

namespace Exact

theorem inStep_drawn {epoch : Epoch ℚ} {bound : ℚ} {count : Nat}
    (defines : epoch.definesCurve = true) (positive : 0 < bound) (some_ : 0 < count) :
    epoch.InStep (drawn epoch bound count) := by
  refine ⟨unitSeconds_pos defines, drawn_ascending epoch positive some_, ?_, ?_⟩
  · intro point mem
    obtain ⟨index, _, rfl⟩ := List.mem_map.1 mem
    rfl
  · intro point mem
    obtain ⟨index, _, rfl⟩ := List.mem_map.1 mem
    rfl

end Exact

/-- An epoch that defines a curve is sampled in every window. Where the window is lacking no query is
answered; where it has an end both coordinates agree, up to that end. -/
theorem coordinates_agree {epoch : Epoch ℚ} (defines : epoch.definesCurve = true)
    (window : Window ℚ) (steps : Int) :
    ∃ points unit, epoch.samples window steps = .ok points ∧ 0 < unit ∧
      (epoch.premiumRate = none ∧ unit = 1 ∨ epoch.halfLife = some unit) ∧
      (points = [] ∧
          (steps < 1 ∨ window.requested.all isUsable = false ∨ window.bound epoch = .ok none) ∧
          (∀ query, Lookup.atU? ⟨points⟩ query = none ∧ Lookup.atTau? ⟨points⟩ query = none ∧
            Lookup.atFraction? ⟨points⟩ query = none) ∨
        ∃ bound first last, window.bound epoch = .ok (some bound) ∧ points.length = steps + 1 ∧
          points.head? = some first ∧ points.getLast? = some last ∧
          Lookup.CoordinatesAgree ⟨points⟩ unit bound first last) := by
  have positive := unitSeconds_pos defines
  have unit := Epoch.unitSeconds_cases defines
  rcases samples_cases defines window steps with lacks | ⟨bound, many, found, sampled⟩
  · exact ⟨[], _, samples_of_lacks lacks, positive, unit,
      .inl ⟨rfl, lacks, fun query => ⟨rfl, rfl, rfl⟩⟩⟩
  · have some_ : 0 < steps.toNat := by omega
    have inStep := inStep_drawn defines (isUsable_iff.1 (isUsable_of_bound found)) some_
    have first := head?_drawn epoch bound steps.toNat
    have last := getLast?_drawn epoch bound some_
    have begins : (epoch.pointAt 0).u = 0 := rfl
    refine ⟨_, _, sampled, positive, unit, .inr ⟨bound, _, _, found, ?_, first, last,
      inStep.coordinatesAgree first last begins⟩⟩
    rw [drawn, List.length_map, List.length_range]
    omega

theorem coordinates_agree_steep :
    steepEpoch.definesCurve = true ∧ steepEpoch.halfLife = some (1 / 2) ∧
      ∃ points first last, steepEpoch.samples twoHalfLives 2 = .ok points ∧
        Lookup.CoordinatesAgree ⟨points⟩ (1 / 2) 2 first last := by
  have defines : steepEpoch.definesCurve = true := by decide +kernel
  have half : steepEpoch.halfLife = some (1 / 2) := by decide +kernel
  have ended : twoHalfLives.bound steepEpoch = .ok (some 2) := by decide +kernel
  have three : (steepEpoch.samples twoHalfLives 2).map List.length = .ok 3 := by decide +kernel
  obtain ⟨points, unit, sampled, -, isUnit, ⟨rfl, -⟩ | covers⟩ :=
    coordinates_agree defines twoHalfLives 2
  · rw [sampled] at three
    cases three
  · obtain ⟨bound, first, last, found, -, -, -, agree⟩ := covers
    obtain ⟨unknown, -⟩ | foundUnit := isUnit
    · cases unknown
    · cases half.symm.trans foundUnit
      cases ended.symm.trans found
      exact ⟨defines, half, points, first, last, sampled, agree⟩

end HyperbolicAuction
