import HyperbolicAuction.Curve.Lookup
import HyperbolicAuction.Proofs.Binary64.Distance
import HyperbolicAuction.Proofs.Curve.Table
import Mathlib.Data.List.Induction
import Mathlib.Tactic.ByContra

/-!
# The nearest sample

The sample that is answered with is the first of those whose *rounded* distance from the query is
least. Rounding may make a nearer and a farther sample equally far, and from an infinity all of them
are. The sample is then the nearest one exactly if no sample below the nearest ones is as far as they
are, once rounded.

So a query at or below the first sample, or at a sample, is always answered by it; a query far beyond
the last one need not be.

Main statements: `isFirstLeast_nearest`, `isNearest_iff`, `nearest?_isNearest_iff`, and two queries
that are answered by a sample farther away in `nearest?_fails_beyond`.
-/

namespace HyperbolicAuction.Lookup

open Binary64 Scalar

variable {lookup : Lookup Binary64} {u : Binary64} {point : Point Binary64}

/-- Samples at finite offsets in ascending order, and at least one of them. -/
structure IsScale (lookup : Lookup Binary64) : Prop where
  nonempty : lookup.points ≠ []
  finite_ : ∀ sample ∈ lookup.points, sample.u.isFinite = true
  ascending : lookup.points.Pairwise fun earlier later => earlier.u ≤ later.u

/-- A sample than which no other is nearer, in exact arithmetic, to where the curve is read for a
query. -/
structure IsNearest (lookup : Lookup Binary64) (u : Binary64) (point : Point Binary64) : Prop where
  mem : point ∈ lookup.points
  least : ∃ read, lookup.atU? u = some read ∧
    ∀ other ∈ lookup.points, unitsApart point.u read.u ≤ unitsApart other.u read.u

/-- Rounded as well, the nearest samples are nearer than every sample below them that is not one of
them. -/
def KeepsApart (lookup : Lookup Binary64) (u : Binary64) : Prop :=
  ∀ below ∈ lookup.points, ∀ best, lookup.IsNearest u best → ¬ lookup.IsNearest u below →
    below.u < best.u → distance best.u u < distance below.u u

/-! ## The scan -/

/-- The first of some samples that cost least. -/
def IsFirstLeast (cost : Point Binary64 → Int) (points : List (Point Binary64))
    (point : Point Binary64) : Prop :=
  ∃ before after, points = before ++ point :: after ∧
    (∀ earlier ∈ before, cost point < cost earlier) ∧ ∀ later ∈ after, cost point ≤ cost later

namespace IsFirstLeast

variable {cost : Point Binary64 → Int} {points : List (Point Binary64)} {next : Point Binary64}

theorem mem (first : IsFirstLeast cost points point) : point ∈ points := by
  obtain ⟨before, after, rfl, _, _⟩ := first
  exact List.mem_append_right before List.mem_cons_self

theorem le (first : IsFirstLeast cost points point) (inPoints : next ∈ points) :
    cost point ≤ cost next := by
  obtain ⟨before, after, rfl, above, upTo⟩ := first
  rcases List.mem_append.1 inPoints with isEarlier | rest
  · exact Int.le_of_lt (above next isEarlier)
  · rcases List.mem_cons.1 rest with rfl | isLater
    · exact Int.le_refl _
    · exact upTo next isLater

/-- One more sample takes the place only if it costs less. -/
theorem concat (first : IsFirstLeast cost points point) (next : Point Binary64) :
    IsFirstLeast cost (points ++ [next]) (if cost next < cost point then next else point) := by
  split
  · next less =>
    refine ⟨points, [], rfl, ?_, List.forall_mem_nil _⟩
    intro earlier isEarlier
    exact Int.lt_of_lt_of_le less (first.le isEarlier)
  · next notLess =>
    obtain ⟨before, after, rfl, above, upTo⟩ := first
    refine ⟨before, after ++ [next], by rw [List.append_assoc, List.cons_append], above, ?_⟩
    intro later isLater
    rcases List.mem_append.1 isLater with inAfter | isNext
    · exact upTo later inAfter
    · rw [List.mem_singleton.1 isNext]
      exact Int.not_lt.1 notLess

theorem exists_of_ne_nil (cost : Point Binary64 → Int) (nonempty : points ≠ []) :
    ∃ point, IsFirstLeast cost points point := by
  induction points using List.reverseRecOn with
  | nil => exact absurd rfl nonempty
  | append_singleton before last ih =>
    by_cases alone : before = []
    · rw [alone]
      exact ⟨last, [], [], rfl, List.forall_mem_nil _, List.forall_mem_nil _⟩
    · obtain ⟨point, first⟩ := ih alone
      exact ⟨_, first.concat last⟩

/-- What costs no more comes no earlier. -/
theorem position_le (first : IsFirstLeast cost points point)
    (ascending : points.Pairwise fun earlier later => earlier.u ≤ later.u)
    (inPoints : next ∈ points) (cheap : cost next ≤ cost point) :
    point.u.position ≤ next.u.position := by
  obtain ⟨before, after, rfl, above, _⟩ := first
  rcases List.mem_append.1 inPoints with isEarlier | rest
  · exact absurd cheap (Int.not_le.2 (above next isEarlier))
  · rcases List.mem_cons.1 rest with rfl | isLater
    · exact Int.le_refl _
    · have fromPoint := (List.pairwise_append.1 ascending).2.1
      exact (le_iff.1 ((List.pairwise_cons.1 fromPoint).1 next isLater)).2.2

end IsFirstLeast

/-- The place of the rounded distance of a sample. -/
def roundedGap (u : Binary64) (sample : Point Binary64) : Int := (distance sample.u u).position

theorem nearer_eq {best next : Point Binary64} (bestFinite : best.u.isFinite = true)
    (nextFinite : next.u.isFinite = true) (number : u ≠ nan) :
    nearer u best next = if roundedGap u next < roundedGap u best then next else best := by
  have bestNumber := distance_ne_nan bestFinite number
  have nextNumber := distance_ne_nan nextFinite number
  simp only [nearer, isNumber_of_ne_nan bestNumber, isNumber_of_ne_nan nextNumber,
    lt_iff_position nextNumber bestNumber, Bool.not_true, Bool.true_and, Bool.false_or,
    decide_eq_true_eq]
  rfl

/-- The scan keeps the first sample that is rounded to be least far. -/
theorem isFirstLeast_foldl {seen rest : List (Point Binary64)} {best : Point Binary64}
    (number : u ≠ nan) (finite_ : ∀ sample ∈ seen ++ rest, sample.u.isFinite = true)
    (first : IsFirstLeast (roundedGap u) seen best) :
    IsFirstLeast (roundedGap u) (seen ++ rest) (rest.foldl (nearer u) best) := by
  induction rest generalizing seen best with
  | nil => rwa [List.append_nil]
  | cons next rest ih =>
    have bestFinite := finite_ best (List.mem_append_left _ first.mem)
    have nextFinite := finite_ next (List.mem_append_right _ List.mem_cons_self)
    rw [List.append_cons] at finite_ ⊢
    rw [List.foldl_cons, nearer_eq bestFinite nextFinite number]
    exact ih finite_ (first.concat next)

theorem isFirstLeast_nearest (scale : lookup.IsScale) (number : u ≠ nan) :
    ∃ point, lookup.nearest? u = some point ∧
      IsFirstLeast (roundedGap u) lookup.points point := by
  obtain ⟨points⟩ := lookup
  obtain ⟨nonempty, finite_, _⟩ := scale
  cases points with
  | nil => exact absurd rfl nonempty
  | cons first rest =>
    have alone : IsFirstLeast (roundedGap u) [first] first :=
      ⟨[], [], rfl, List.forall_mem_nil _, List.forall_mem_nil _⟩
    exact ⟨_, rfl, isFirstLeast_foldl number finite_ alone⟩

/-! ## The nearest samples -/

/-- Where the curve is read for a query, between the ends of the samples. -/
structure Reads (lookup : Lookup Binary64) (u low high read : Binary64) : Prop where
  range : lookup.range? Point.u = some (low, high)
  held : read.position = max low.position (min u.position high.position)
  first : ∃ sample ∈ lookup.points, sample.u = low
  last : ∃ sample ∈ lookup.points, sample.u = high
  within : ∀ sample ∈ lookup.points,
    low.position ≤ sample.u.position ∧ sample.u.position ≤ high.position

/-- Between bounds in order, a number is held where it is unless it is beyond one of them. -/
theorem clamp_eq {low high : Binary64} (number : u ≠ nan) (ordered : low ≤ high) :
    clamp u low high = if u < low then low else if high < u then high else u := by
  obtain ⟨lowNumber, highNumber, _⟩ := le_iff.1 ordered
  unfold clamp
  simp only [isNumber_of_ne_nan number, isNumber_of_ne_nan lowNumber, isNumber_of_ne_nan highNumber,
    Bool.not_true, Bool.false_eq_true, if_false]
  split
  · rw [if_neg (not_lt_of_le ordered)]
  · rfl

theorem position_clamp {low high : Binary64} (number : u ≠ nan) (ordered : low ≤ high) :
    (clamp u low high).position = max low.position (min u.position high.position) := by
  obtain ⟨lowNumber, highNumber, positions⟩ := le_iff.1 ordered
  rw [clamp_eq number ordered]
  simp only [lt_iff_position number lowNumber, lt_iff_position highNumber number]
  split
  · omega
  · split
    · omega
    · omega

/-- The ends of ascending samples are below and above all of them. -/
theorem between_ends {key : Point Binary64 → Binary64} {first sample : Point Binary64}
    {rest : List (Point Binary64)} (numbers : ∀ sample ∈ first :: rest, key sample ≠ nan)
    (ascending : (first :: rest).Pairwise fun earlier later => key earlier ≤ key later)
    (mem : sample ∈ first :: rest) :
    key first ≤ key sample ∧ key sample ≤ key (rest.getLastD first) := by
  have isLast : (first :: rest).getLast? = some (rest.getLastD first) := by
    rw [List.getLast?_cons, List.getLastD_eq_getLast?]
  obtain ⟨before, ends⟩ := List.getLast?_eq_some_iff.1 isLast
  constructor
  · rcases List.mem_cons.1 mem with rfl | inRest
    · exact le_refl (numbers sample mem)
    · exact (List.pairwise_cons.1 ascending).1 sample inRest
  · have own := numbers sample mem
    rw [ends] at mem ascending
    rcases List.mem_append.1 mem with inBefore | isEnd
    · exact (List.pairwise_append.1 ascending).2.2 sample inBefore _ List.mem_cons_self
    · rw [List.mem_singleton.1 isEnd] at own ⊢
      exact le_refl own

theorem exists_reads (scale : lookup.IsScale) (number : u ≠ nan) :
    ∃ point low high, lookup.atU? u = some point ∧ lookup.Reads u low high point.u := by
  obtain ⟨points⟩ := lookup
  obtain ⟨nonempty, finite_, ascending⟩ := scale
  cases points with
  | nil => exact absurd rfl nonempty
  | cons first rest =>
    have numbers (sample : Point Binary64) (mem : sample ∈ first :: rest) : sample.u ≠ nan :=
      (isFinite_iff.1 (finite_ sample mem)).1
    have lastMem : rest.getLastD first ∈ first :: rest := List.getLastD_mem_cons
    have ordered := (between_ends numbers ascending lastMem).1
    refine ⟨_, first.u, (rest.getLastD first).u, rfl, rfl, position_clamp number ordered,
      ⟨first, List.mem_cons_self, rfl⟩, ⟨_, lastMem, rfl⟩, fun sample mem => ?_⟩
    obtain ⟨fromFirst, toLast⟩ := between_ends numbers ascending mem
    exact ⟨(le_iff.1 fromFirst).2.2, (le_iff.1 toLast).2.2⟩

/-- A query is as far from a sample as from where the curve is read for it, and from there on. -/
theorem Reads.unitsApart_eq_add {low high read : Binary64} {sample : Point Binary64}
    (reads : lookup.Reads u low high read) (mem : sample ∈ lookup.points) :
    unitsApart sample.u u = unitsApart sample.u read + unitsApart read u := by
  have held := reads.held
  have within := reads.within sample mem
  unfold unitsApart
  omega

/-- The nearest samples to a query are those nearest to where the curve is read for it. -/
theorem isNearest_iff (scale : lookup.IsScale) (number : u ≠ nan) :
    lookup.IsNearest u point ↔
      point ∈ lookup.points ∧
        ∀ other ∈ lookup.points, unitsApart point.u u ≤ unitsApart other.u u := by
  obtain ⟨read, low, high, found, reads⟩ := exists_reads scale number
  constructor
  · rintro ⟨mem, _, alsoFound, least⟩
    cases found.symm.trans alsoFound
    refine ⟨mem, fun other otherMem => ?_⟩
    rw [reads.unitsApart_eq_add mem, reads.unitsApart_eq_add otherMem]
    exact Nat.add_le_add_right (least other otherMem) _
  · rintro ⟨mem, least⟩
    refine ⟨mem, read, found, fun other otherMem => ?_⟩
    have farther := least other otherMem
    rw [reads.unitsApart_eq_add mem, reads.unitsApart_eq_add otherMem] at farther
    exact Nat.le_of_add_le_add_right farther

/-- Where a sample stands at the place that the curve is read at, so do the nearest ones. -/
theorem IsNearest.position_eq (nearest : lookup.IsNearest u point) {read sample : Point Binary64}
    (found : lookup.atU? u = some read) (mem : sample ∈ lookup.points)
    (there : sample.u.position = read.u.position) : point.u.position = read.u.position := by
  obtain ⟨_, _, alsoFound, least⟩ := nearest
  cases found.symm.trans alsoFound
  have upTo := least sample mem
  unfold unitsApart at upTo
  omega

theorem exists_isNearest (scale : lookup.IsScale) (number : u ≠ nan) :
    ∃ best, lookup.IsNearest u best := by
  obtain ⟨best, first⟩ := IsFirstLeast.exists_of_ne_nil
    (fun sample => unitsApart sample.u u) scale.nonempty
  refine ⟨best, (isNearest_iff scale number).2 ⟨first.mem, fun other mem => ?_⟩⟩
  exact Int.ofNat_le.1 (first.le mem)

/-! ## What is rounded to be nearest -/

theorem roundedGap_mono (scale : lookup.IsScale) (number : u ≠ nan) {sample : Point Binary64}
    (pointMem : point ∈ lookup.points) (mem : sample ∈ lookup.points)
    (nearer : unitsApart point.u u ≤ unitsApart sample.u u) :
    roundedGap u point ≤ roundedGap u sample :=
  (le_iff.1 (distance_mono (scale.finite_ point pointMem) (scale.finite_ sample mem) number
    nearer)).2.2

/-- The first sample that is rounded to be least far is nearest exactly if rounding keeps those below
the nearest samples apart from them. -/
theorem isNearest_iff_keepsApart (scale : lookup.IsScale) (number : u ≠ nan)
    (first : IsFirstLeast (roundedGap u) lookup.points point) :
    lookup.IsNearest u point ↔ lookup.KeepsApart u := by
  have gapLess (left right : Point Binary64) (leftMem : left ∈ lookup.points)
      (rightMem : right ∈ lookup.points) :
      distance left.u u < distance right.u u ↔ roundedGap u left < roundedGap u right :=
    lt_iff_position (distance_ne_nan (scale.finite_ left leftMem) number)
      (distance_ne_nan (scale.finite_ right rightMem) number)
  constructor
  · intro nearest below belowMem best isBest notNearest less
    obtain ⟨bestMem, bestLeast⟩ := (isNearest_iff scale number).1 isBest
    obtain ⟨_, least⟩ := (isNearest_iff scale number).1 nearest
    refine (gapLess best below bestMem belowMem).2 (Int.not_le.1 fun level => notNearest ?_)
    have asFar := roundedGap_mono scale number bestMem first.mem (bestLeast point first.mem)
    have afterPoint := first.position_le scale.ascending belowMem (Int.le_trans level asFar)
    have beforeBest := (lt_iff.1 less).2.2
    refine (isNearest_iff scale number).2 ⟨belowMem, fun other otherMem => ?_⟩
    have fromPoint := least other otherMem
    have fromBest := bestLeast other otherMem
    unfold unitsApart at fromPoint fromBest ⊢
    omega
  · intro apart
    obtain ⟨best, isBest⟩ := exists_isNearest scale number
    obtain ⟨bestMem, bestLeast⟩ := (isNearest_iff scale number).1 isBest
    by_contra notNearest
    have farther : unitsApart best.u u < unitsApart point.u u := by
      refine Nat.lt_of_not_le fun asNear => notNearest ?_
      exact (isNearest_iff scale number).2 ⟨first.mem, fun other otherMem =>
        Nat.le_trans asNear (bestLeast other otherMem)⟩
    have closer := roundedGap_mono scale number bestMem first.mem (Nat.le_of_lt farther)
    have ordered := first.position_le scale.ascending bestMem closer
    have less : point.u < best.u := by
      rw [lt_iff_position (isFinite_iff.1 (scale.finite_ point first.mem)).1
        (isFinite_iff.1 (scale.finite_ best bestMem)).1]
      unfold unitsApart at farther
      omega
    have strictly := (gapLess best point bestMem first.mem).1
      (apart point first.mem best isBest notNearest less)
    exact absurd (first.le bestMem) (Int.not_le.2 strictly)

/-- Below the first sample nothing has to be kept apart. -/
theorem keepsApart_of_le {low high : Binary64} (scale : lookup.IsScale) (number : u ≠ nan)
    (range : lookup.range? Point.u = some (low, high)) (early : u ≤ low) : lookup.KeepsApart u := by
  intro below belowMem best isBest _ less
  obtain ⟨read, alsoLow, alsoHigh, found, reads⟩ := exists_reads scale number
  obtain ⟨first, firstMem, atLow⟩ := reads.first
  cases range.symm.trans reads.range
  have held := reads.held
  have upToLow := (le_iff.1 early).2.2
  have fromLow := (reads.within below belowMem).1
  have beforeBest := (lt_iff.1 less).2.2
  have bestThere := isBest.position_eq found firstMem (by rw [atLow]; omega)
  omega

/-- A scale of samples is asked for the one nearest to a number. What is answered is least far, once
rounded, so where its distance is finite no sample is nearer by more than is rounded off. It is the
nearest one exactly if rounding keeps the samples below the nearest ones apart from them. A sample at
the query itself, or the first one for an earlier query, is always found; the last one, for a later
query, where it is kept apart. -/
theorem nearest?_isNearest_iff (scale : lookup.IsScale) (number : u ≠ nan) :
    ∃ point, lookup.nearest? u = some point ∧ point ∈ lookup.points ∧
      (∀ other ∈ lookup.points, distance point.u u ≤ distance other.u u) ∧
      ((distance point.u u).isFinite = true → ∀ other ∈ lookup.points,
        (2 ^ 53 - 1) * unitsApart point.u u ≤ (2 ^ 53 + 1) * unitsApart other.u u) ∧
      (lookup.IsNearest u point ↔ lookup.KeepsApart u) ∧
      (∀ sample ∈ lookup.points, sample.u.SameNumber u → point.u.SameNumber u) ∧
      ∀ low high, lookup.range? Point.u = some (low, high) →
        (u ≤ low → point.u.SameNumber low) ∧
        (high ≤ u → lookup.KeepsApart u → point.u.SameNumber high) := by
  obtain ⟨point, found, first⟩ := isFirstLeast_nearest scale number
  have nearest := isNearest_iff_keepsApart scale number first
  have pointFinite := scale.finite_ point first.mem
  have least (other : Point Binary64) (mem : other ∈ lookup.points) :
      distance point.u u ≤ distance other.u u :=
    le_iff.2 ⟨distance_ne_nan pointFinite number,
      distance_ne_nan (scale.finite_ other mem) number, first.le mem⟩
  refine ⟨point, found, first.mem, least, ?_, nearest, ?_, ?_⟩
  · intro finite_ other mem
    exact unitsApart_le_of_distance_le pointFinite (scale.finite_ other mem) finite_
      (least other mem)
  · intro sample mem there
    have finite_ : u.isFinite = true := by rw [← there.isFinite_eq, scale.finite_ sample mem]
    have nothing := (distance_nonpos_iff (scale.finite_ sample mem) finite_).2 there
    exact (distance_nonpos_iff pointFinite finite_).1 (le_trans (least sample mem) nothing)
  · intro low high range
    obtain ⟨read, alsoLow, alsoHigh, readFound, reads⟩ := exists_reads scale number
    obtain ⟨lowest, lowestMem, atLow⟩ := reads.first
    obtain ⟨highest, highestMem, atHigh⟩ := reads.last
    cases range.symm.trans reads.range
    have pointNumber := (isFinite_iff.1 pointFinite).1
    have held := reads.held
    have ordered := reads.within lowest lowestMem
    rw [atLow] at ordered
    constructor
    · intro early
      have upToLow := (le_iff.1 early).2.2
      have there := (nearest.2 (keepsApart_of_le scale number range early)).position_eq readFound
        lowestMem (by rw [atLow]; omega)
      rw [sameNumber_iff pointNumber (le_iff.1 early).2.1]
      omega
    · intro late apart
      have fromHigh := (le_iff.1 late).2.2
      have there := (nearest.2 apart).position_eq readFound highestMem (by rw [atHigh]; omega)
      rw [sameNumber_iff pointNumber (le_iff.1 late).1]
      omega

/-- Two samples of a curve that is level. -/
def twoSamples (first second : Binary64) : Lookup Binary64 where
  points := [⟨2, first, first, 1⟩, ⟨2, second, second, 1⟩]

theorem nearest?_isNearest_iff_between :
    (twoSamples 0 1).IsScale ∧ ofQuotient false 3 4 ≠ nan ∧
      (twoSamples 0 1).nearest? (ofQuotient false 3 4) = some ⟨2, 1, 1, 1⟩ ∧
      (twoSamples 0 1).IsNearest (ofQuotient false 3 4) ⟨2, 1, 1, 1⟩ ∧
      (twoSamples 0 1).KeepsApart (ofQuotient false 3 4) := by
  have scale : (twoSamples 0 1).IsScale := ⟨by decide, by decide +kernel, by decide +kernel⟩
  have number : ofQuotient false 3 4 ≠ nan := by decide +kernel
  have second : (twoSamples 0 1).nearest? (ofQuotient false 3 4) = some ⟨2, 1, 1, 1⟩ := by
    decide +kernel
  have isNearest : (twoSamples 0 1).IsNearest (ofQuotient false 3 4) ⟨2, 1, 1, 1⟩ := by
    rw [isNearest_iff scale number]
    decide +kernel
  obtain ⟨point, found, _, _, _, nearest, _⟩ := nearest?_isNearest_iff scale number
  cases second.symm.trans found
  exact ⟨scale, number, second, isNearest, nearest.1 isNearest⟩

/-- From an infinity both of two samples are infinitely far. A quarter less one part in `2 ^ 53` is as
far from one as three quarters more are, once rounded. Either time the first sample is answered with,
and the other one is nearer. -/
theorem nearest?_fails_beyond :
    ((twoSamples 0 1).IsScale ∧
      (twoSamples 0 1).nearest? (infinity false) = some ⟨2, 0, 0, 1⟩ ∧
      ¬ (twoSamples 0 1).IsNearest (infinity false) ⟨2, 0, 0, 1⟩) ∧
    ∃ early late, (twoSamples early late).IsScale ∧ early < 1 ∧ 1 < late ∧
      (twoSamples early late).nearest? 1 = some ⟨2, early, early, 1⟩ ∧
      ¬ (twoSamples early late).IsNearest 1 ⟨2, early, early, 1⟩ := by
  constructor
  · have scale : (twoSamples 0 1).IsScale := ⟨by decide, by decide +kernel, by decide +kernel⟩
    refine ⟨scale, by decide +kernel, ?_⟩
    rw [isNearest_iff scale Binary64.noConfusion]
    decide +kernel
  · have scale :
        (twoSamples (ofQuotient false (2 ^ 53 - 1) (2 ^ 55)) (ofQuotient false 7 4)).IsScale :=
      ⟨by decide, by decide +kernel, by decide +kernel⟩
    have number : (1 : Binary64) ≠ nan := by decide +kernel
    refine ⟨_, _, scale, by decide +kernel, by decide +kernel, by decide +kernel, ?_⟩
    rw [isNearest_iff scale number]
    decide +kernel

end HyperbolicAuction.Lookup
