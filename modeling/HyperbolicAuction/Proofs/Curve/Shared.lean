import HyperbolicAuction.Proofs.Binary64.SignedZero
import HyperbolicAuction.Proofs.Snapshot.Evaluation

/-!
# Epochs that share a curve

When an epoch starts and when it is seen are no part of its curve: they only say how much time has
passed. Epochs of the same number, floor, decay and premium are drawn and priced alike as long as the
same time has passed, and a window that is asked for in half-lives does not even depend on that. Nor
does the sign of a floor of zero matter, because what is added to it is never a negative zero.

`SharesCurve` is the relation; the lemmas below carry it through every computation of the curve, up
to `shown_eq`, what an evaluation shows.
-/

namespace HyperbolicAuction

open Binary64 Scalar

/-- Floors that differ in the sign of a zero lead to the same ask. -/
theorem ask_eq_of_sameNumber {floor otherFloor k : Binary64} {premiumRate : Option Binary64}
    (floors : floor.SameNumber otherFloor) (decay : isUsable k = true)
    (positive : ∀ premium, premiumRate = some premium → 0 < premium.position) (tau : Binary64) :
    ask floor k premiumRate tau = ask otherFloor k premiumRate tau := by
  have decayPositive := pos_of_isUsable decay
  cases premiumRate with
  | none =>
    have divides : larger tau epsilon = nan ∨ 0 < (larger tau epsilon).position := by
      by_cases number : tau = nan
      · rw [number, larger_nan_left]
        exact .inl rfl
      · rw [position_larger number within_epsilon.ne_nan]
        have least := within_epsilon.pos
        exact .inr (by omega)
    simp only [ask, floors.add_eq (div_ne_negative_zero decayPositive divides)]
  | some premium =>
    cases zero : isZero (larger tau 0 + k / larger premium epsilon) with
    | true => rw [ask_some_of_isZero zero, ask_some_of_isZero zero]
    | false =>
      rw [ask_some_of_not_isZero zero, ask_some_of_not_isZero zero]
      have divides : larger tau 0 + k / larger premium epsilon = nan ∨
          0 < (larger tau 0 + k / larger premium epsilon).position := by
        by_cases number : tau = nan
        · rw [number, larger_nan_left]
          exact .inl rfl
        · have sum := nonneg_add (le_larger_right number zero_ne_nan)
            (halfLife_nonneg decay (positive premium rfl))
          exact .inr (pos_of_nonneg_of_not_isZero sum zero)
      rw [floors.add_eq (div_ne_negative_zero decayPositive divides)]

/-- Epochs of one curve, whenever they start and are seen. -/
structure Epoch.SharesCurve (left right : Epoch Binary64) : Prop where
  index : left.index = right.index
  floor : left.floor.SameNumber right.floor
  k : left.k = right.k
  premiumRate : left.premiumRate = right.premiumRate

namespace Epoch.SharesCurve

variable {left right : Epoch Binary64} {window : Window Binary64} {steps : Int}

theorem definesCurve_eq (shares : left.SharesCurve right) :
    left.definesCurve = right.definesCurve := by
  simp only [Epoch.definesCurve, Binary64.isFinite_eq, shares.floor.isFinite_eq, shares.k,
    shares.premiumRate]

theorem fault?_eq (shares : left.SharesCurve right) : left.fault? = right.fault? := by
  simp only [Epoch.fault?, Binary64.isFinite_eq, shares.floor.isFinite_eq, shares.k,
    shares.premiumRate]

theorem halfLife_eq (shares : left.SharesCurve right) : left.halfLife = right.halfLife := by
  simp only [Epoch.halfLife, shares.k, shares.premiumRate]

theorem bound_eq (shares : left.SharesCurve right) (elapsed : left.elapsed = right.elapsed) :
    window.bound left = window.bound right := by
  simp only [Window.bound, Window.endHalfLives, shares.premiumRate, shares.halfLife_eq, elapsed]

/-- An end that is asked for in half-lives is the same however much time has passed. -/
theorem bound_eq_of_requested (shares : left.SharesCurve right)
    (premium : left.premiumRate.isSome = true) (requested : window.requested.isSome = true) :
    window.bound left = window.bound right := by
  obtain ⟨premium, known⟩ := Option.isSome_iff_exists.1 premium
  obtain ⟨bound, asked⟩ := Option.isSome_iff_exists.1 requested
  have knownToo : right.premiumRate = some premium := by rw [← shares.premiumRate, known]
  simp only [Window.bound, Window.endHalfLives, known, knownToo, asked]

theorem askAfter_eq (shares : left.SharesCurve right) (defines : left.definesCurve = true)
    (tau : Binary64) : left.askAfter tau = right.askAfter tau := by
  obtain ⟨_, decay, usable⟩ := left.usable_of_definesCurve defines
  unfold Epoch.askAfter
  rw [← shares.k, ← shares.premiumRate]
  exact ask_eq_of_sameNumber shares.floor decay
    (fun premium known => pos_of_isUsable (usable premium known)) tau

theorem askNow_eq (shares : left.SharesCurve right) (defines : left.definesCurve = true)
    (elapsed : left.elapsed = right.elapsed) : left.askNow = right.askNow := by
  unfold Epoch.askNow
  rw [elapsed]
  exact shares.askAfter_eq defines _

theorem sampleAt_eq (shares : left.SharesCurve right) (defines : left.definesCurve = true)
    (u : Binary64) : left.sampleAt u = right.sampleAt u := by
  simp only [Epoch.sampleAt, Epoch.unitSeconds, shares.halfLife_eq, shares.premiumRate,
    shares.index, shares.askAfter_eq defines]

/-- Samples follow from the curve and the end of the window. -/
theorem samples_eq_of_bound (shares : left.SharesCurve right)
    (bound : window.bound left = window.bound right) :
    left.samples window steps = right.samples window steps := by
  unfold Epoch.samples
  rw [← shares.definesCurve_eq, bound]
  cases defines : left.definesCurve with
  | false => simp
  | true => simp only [Epoch.samplesUpTo, shares.sampleAt_eq defines]

theorem samples_eq (shares : left.SharesCurve right) (elapsed : left.elapsed = right.elapsed) :
    left.samples window steps = right.samples window steps :=
  shares.samples_eq_of_bound (shares.bound_eq elapsed)

end Epoch.SharesCurve

/-- What of an evaluation a buyer looks at: status, ask, half-life and samples. -/
def Snapshot.shown (snapshot : Snapshot Binary64) :
    CurveStatus × Option Binary64 × Option Binary64 × List (Point Binary64) :=
  (snapshot.status, snapshot.ask, snapshot.halfLife, snapshot.points)

/-- Epochs that share a curve show the same when the same time has passed, or fail alike. -/
theorem Epoch.SharesCurve.shown_eq {left right : Epoch Binary64} (shares : left.SharesCurve right)
    (elapsed : left.elapsed = right.elapsed) (settings : Settings Binary64)
    (requested : Option Binary64) (asked : Option Int) :
    (Snapshot.ofEpoch settings left requested asked).map Snapshot.shown =
      (Snapshot.ofEpoch settings right requested asked).map Snapshot.shown := by
  cases fault : left.fault? with
  | some fault_ =>
    unfold Snapshot.ofEpoch
    rw [← shares.fault?_eq, fault]
    rfl
  | none =>
    have defines := fault?_eq_none_iff.1 fault
    have faultless : right.fault? = none := by rw [← shares.fault?_eq, fault]
    rw [Snapshot.ofEpoch_of_faultless fault, Snapshot.ofEpoch_of_faultless faultless,
      shares.samples_eq elapsed, shares.askNow_eq defines elapsed, shares.halfLife_eq,
      shares.bound_eq elapsed]
    cases right.samples (settings.window requested) (asked.getD settings.curveSteps) with
    | error error => rfl
    | ok points =>
      cases right.askNow with
      | error error => rfl
      | ok price =>
        cases points with
        | nil => rfl
        | cons first rest =>
          cases (settings.window requested).bound right with
          | error error => rfl
          | ok bound => rfl

end HyperbolicAuction
