import HyperbolicAuction.Proofs.Curve.Failure

/-!
# The points of a drawn curve

Every point that is drawn lies on the curve of its epoch, at the time that its offset stands for. The
last one is at the end of the window, which is not computed again but taken as it is.

Main statements: `draws_of_samplesUpTo`, `draws_of_samples`.
-/

namespace HyperbolicAuction

open Binary64 Scalar Outcome

/-- A point has the price of the curve at its time. The time is its offset in half-lives, or the
offset itself where the epoch has no premium. -/
structure Point.LiesOn (point : Point Binary64) (epoch : Epoch Binary64) : Prop where
  index : point.epochIndex = epoch.index
  time : epoch.premiumRate = none ∧ point.tau = point.u ∨
    ∃ halfLife, epoch.halfLife = some halfLife ∧ point.tau = point.u * halfLife
  price : ask epoch.floor epoch.k epoch.premiumRate point.tau = .ok point.price

/-- Points are the ends of some segments of a curve, up to the end of a window. -/
structure Epoch.Draws (epoch : Epoch Binary64) (bound : Binary64) (count : Nat)
    (points : List (Point Binary64)) : Prop where
  length : points.length = count + 1
  liesOn : ∀ point ∈ points, point.LiesOn epoch
  last : points.getLast?.map (·.u) = some bound

variable {epoch : Epoch Binary64} {window : Window Binary64} {steps : Int} {bound u : Binary64}
  {count : Nat} {point : Point Binary64} {points : List (Point Binary64)}

/-- A sample stands at its offset, and for the time of that offset. -/
theorem parts_of_sampleAt (sampled : epoch.sampleAt u = .ok point) :
    point.epochIndex = epoch.index ∧ point.u = u ∧ point.tau = u * epoch.unitSeconds ∧
      epoch.askAfter point.tau = .ok point.price := by
  unfold Epoch.sampleAt at sampled
  obtain ⟨price, asks, returned⟩ := bind_eq_ok_iff.1 sampled
  cases returned
  exact ⟨rfl, rfl, rfl, asks⟩

theorem liesOn_of_sampleAt (defines : epoch.definesCurve = true)
    (sampled : epoch.sampleAt u = .ok point) : point.u = u ∧ point.LiesOn epoch := by
  obtain ⟨index, offset, time, asks⟩ := parts_of_sampleAt sampled
  refine ⟨offset, index, ?_, asks⟩
  rcases Epoch.unitSeconds_cases defines with ⟨unknown, unit⟩ | half
  · exact .inl ⟨unknown, by rw [time, offset, unit, mul_one_eq]⟩
  · exact .inr ⟨_, half, by rw [time, offset]⟩

theorem draws_of_samplesUpTo (defines : epoch.definesCurve = true)
    (sampled : epoch.samplesUpTo bound count = .ok points) : epoch.Draws bound count points := by
  unfold Epoch.samplesUpTo at sampled
  split at sampled
  · constructor
    · rw [length_of_mapM_ok sampled, List.length_range]
    · intro point drawn
      obtain ⟨index, _, stepped⟩ := exists_of_mapM_ok sampled point drawn
      exact (liesOn_of_sampleAt defines stepped).2
    · -- the last index is split off: its offset is the end of the window
      rw [List.range_succ] at sampled
      obtain ⟨before, last, rfl, stepped⟩ := mapM_concat_ok sampled
      rw [Epoch.sampleOffset, if_pos rfl] at stepped
      rw [List.getLast?_concat]
      exact congrArg some (liesOn_of_sampleAt defines stepped).1
  · cases sampled

/-- The points stand in the order of the offsets that they were sampled at. -/
theorem sampleAt_of_samplesUpTo (sampled : epoch.samplesUpTo bound count = .ok points) {index : Nat}
    (drawn : index < points.length) :
    index ≤ count ∧ epoch.sampleAt (Epoch.sampleOffset bound count index) = .ok points[index] := by
  unfold Epoch.samplesUpTo at sampled
  split at sampled
  · have length := length_of_mapM_ok sampled
    rw [List.length_range] at length
    have place : (List.range (count + 1))[index]? = some index := by
      rw [List.getElem?_range (by omega)]
    obtain ⟨point, found, stepped⟩ := getElem?_of_mapM_ok sampled place
    rw [List.getElem?_eq_getElem drawn] at found
    cases found
    exact ⟨by omega, stepped⟩
  · cases sampled

/-- Where there are samples, they were taken of a curve, up to the end of the window. -/
theorem samplesUpTo_of_samples (sampled : epoch.samples window steps = .ok points)
    (nonempty : points ≠ []) :
    1 ≤ steps ∧ epoch.definesCurve = true ∧ ∃ bound, window.bound epoch = .ok (some bound) ∧
      epoch.samplesUpTo bound steps.toNat = .ok points := by
  obtain ⟨bound, found⟩ := exists_bound_of_samples_ne_nil sampled nonempty
  cases drawn : epoch.isDrawn window steps with
  | false =>
    rw [samples_of_not_isDrawn drawn] at sampled
    exact absurd (Except.ok.inj sampled).symm nonempty
  | true =>
    obtain ⟨many, defines, _⟩ := Epoch.definesCurve_of_isDrawn drawn
    rw [samples_of_bound_some drawn found] at sampled
    exact ⟨many, defines, bound, found, sampled⟩

/-- Where there are samples, they are those of the window. -/
theorem draws_of_samples (sampled : epoch.samples window steps = .ok points)
    (nonempty : points ≠ []) :
    1 ≤ steps ∧ ∃ bound, window.bound epoch = .ok (some bound) ∧
      epoch.Draws bound steps.toNat points := by
  obtain ⟨many, defines, bound, found, sampledUpTo⟩ := samplesUpTo_of_samples sampled nonempty
  exact ⟨many, bound, found, draws_of_samplesUpTo defines sampledUpTo⟩

/-- There are no samples of a curve exactly if no segment, no usable window or no end is asked for. -/
theorem samples_eq_nil_iff (defines : epoch.definesCurve = true)
    (sampled : epoch.samples window steps = .ok points) :
    points = [] ↔
      steps < 1 ∨ window.requested.all isUsable = false ∨ window.bound epoch = .ok none := by
  constructor
  · rintro rfl
    cases drawn : epoch.isDrawn window steps with
    | false =>
      simp only [Epoch.isDrawn, defines, Bool.and_true, Bool.and_eq_false_iff,
        decide_eq_false_iff_not, Int.not_le] at drawn
      exact drawn.imp_right .inl
    | true =>
      cases found : window.bound epoch with
      | error error =>
        rw [samples_of_bound_error drawn found] at sampled
        cases sampled
      | ok bound? =>
        cases bound? with
        | none => exact .inr (.inr rfl)
        | some bound =>
          rw [samples_of_bound_some drawn found] at sampled
          exact absurd (draws_of_samplesUpTo defines sampled).length (by simp)
  · intro lacks
    rw [samples_of_lacks lacks] at sampled
    exact (Except.ok.inj sampled).symm

end HyperbolicAuction
