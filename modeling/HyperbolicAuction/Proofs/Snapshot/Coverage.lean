import HyperbolicAuction.Proofs.Curve.Accuracy
import HyperbolicAuction.Proofs.Snapshot.Evaluation

/-!
# A window that nobody cut covers the present

The window of an evaluation ends in half-lives, or in seconds without a premium, and the ask of the
moment is computed apart from the samples. In exact arithmetic they meet: unless another end is asked
for, the last sample is no earlier than the present. So the ask lies between the prices of the samples
at the ends, and the curve at the present is read off the samples without being held at an end.

Without a premium the window ends at the present as soon as any time has passed, whatever end is asked
for, and the ask is the price of the last sample.

Main statements: `elapsed_le_proposedEnd`, `evaluation_covers_now`.
-/

namespace HyperbolicAuction

open Scalar Exact Outcome

/-- The end of a window is left to the epoch: none is asked for, or the one asked for gives way to the
time that has passed. -/
def Window.IsUncut (window : Window ℚ) (epoch : Epoch ℚ) : Prop :=
  window.requested = none ∨
    epoch.premiumRate = none ∧ 0 < epoch.elapsed ∧ ∀ end_, window.requested = some end_ → 0 < end_

/-- Samples reach from the start of an epoch to the present or farther, and the ask of the moment
stands among their prices as the present does among their times. -/
structure Snapshot.CoversNow (snapshot : Snapshot ℚ) (epoch : Epoch ℚ) : Prop where
  success : snapshot.status = .success
  covers : ∃ first last price, snapshot.points.head? = some first ∧
    snapshot.points.getLast? = some last ∧ snapshot.ask = some price ∧
    first.tau = 0 ∧ epoch.elapsed ≤ last.tau ∧
    price ≤ first.price ∧ last.price ≤ price ∧
    (epoch.elapsed = 0 → price = first.price) ∧
    (epoch.premiumRate = none → 0 < epoch.elapsed → last.tau = epoch.elapsed ∧ price = last.price)
  /-- The present is not held at an end of the window. -/
  unheld : ∃ point, snapshot.lookup.atTau? epoch.elapsed = some point ∧ point.tau = epoch.elapsed

namespace Exact

variable {epoch : Epoch ℚ} {window : Window ℚ} {premium : ℚ}

theorem zero_le_elapsed (epoch : Epoch ℚ) : 0 ≤ epoch.elapsed := by
  rw [elapsed_eq]
  exact le_max_left 0 _

/-- An epoch that defines a curve has no fault. -/
theorem fault?_eq_none (defines : epoch.definesCurve = true) : epoch.fault? = none := by
  obtain ⟨decay, positive⟩ := definesCurve_iff.1 defines
  unfold Epoch.fault?
  simp only [isFinite, not_le.2 decay, Bool.not_true, Bool.false_eq_true, if_false]
  cases known : epoch.premiumRate with
  | none => rfl
  | some premium => simp only [not_le.2 (positive premium known), if_false]

/-! ## The end of the window -/

theorem proposedEnd_of_some (known : epoch.premiumRate = some premium)
    (unasked : window.requested = none) :
    window.proposedEnd epoch = max (epoch.elapsed / epoch.unitSeconds) window.leastHalfLives := by
  unfold Window.proposedEnd
  rw [known, unasked]
  rfl

/-- Without a premium the window ends at the present, whatever is asked for. -/
theorem proposedEnd_of_elapsed (unknown : epoch.premiumRate = none) (passed : 0 < epoch.elapsed) :
    window.proposedEnd epoch = epoch.elapsed := by
  have notZero : isZero epoch.elapsed = false :=
    Bool.eq_false_iff.2 fun zero => passed.ne' (isZero_iff.1 zero)
  unfold Window.proposedEnd Window.endSeconds
  rw [unknown, notZero]
  rfl

theorem proposedEnd_of_start (unknown : epoch.premiumRate = none) (start : epoch.elapsed = 0)
    (unasked : window.requested = none) :
    window.proposedEnd epoch = window.fallbackSeconds := by
  unfold Window.proposedEnd Window.endSeconds
  rw [unknown, isZero_iff.2 start, unasked]
  rfl

/-- A window that is not cut ends after the start, and no earlier than the present. -/
theorem elapsed_le_proposedEnd (defines : epoch.definesCurve = true)
    (least : 0 < window.leastHalfLives) (fallback : 0 < window.fallbackSeconds)
    (uncut : window.IsUncut epoch) :
    0 < window.proposedEnd epoch ∧
      epoch.elapsed ≤ window.proposedEnd epoch * epoch.unitSeconds := by
  cases known : epoch.premiumRate with
  | none =>
    rw [unitSeconds_of_none known, mul_one]
    rcases (zero_le_elapsed epoch).lt_or_eq with passed | start
    · rw [proposedEnd_of_elapsed known passed]
      exact ⟨passed, le_refl _⟩
    · have unasked : window.requested = none := by
        rcases uncut with unasked | ⟨_, passed, _⟩
        · exact unasked
        · exact absurd start passed.ne
      rw [proposedEnd_of_start known start.symm unasked, ← start]
      exact ⟨fallback, fallback.le⟩
  | some premium =>
    have unasked : window.requested = none := by
      rcases uncut with unasked | ⟨unknown, _⟩
      · exact unasked
      · rw [known] at unknown
        cases unknown
    rw [proposedEnd_of_some known unasked]
    refine ⟨lt_max_of_lt_right least, ?_⟩
    calc epoch.elapsed = epoch.elapsed / epoch.unitSeconds * epoch.unitSeconds :=
          (div_mul_cancel₀ _ (unitSeconds_pos defines).ne').symm
      _ ≤ max (epoch.elapsed / epoch.unitSeconds) window.leastHalfLives * epoch.unitSeconds :=
          mul_le_mul_of_nonneg_right (le_max_left _ _) (unitSeconds_pos defines).le

theorem bound_of_isUncut (defines : epoch.definesCurve = true)
    (least : 0 < window.leastHalfLives) (fallback : 0 < window.fallbackSeconds)
    (uncut : window.IsUncut epoch) :
    window.bound epoch = .ok (some (window.proposedEnd epoch)) := by
  have positive := (elapsed_le_proposedEnd defines least fallback uncut).1
  rw [bound_eq defines, Option.filter_eq_some_iff.2 ⟨rfl, isUsable_iff.2 positive⟩]

theorem requested_of_isUncut (uncut : window.IsUncut epoch) :
    window.requested.all isUsable = true := by
  rcases uncut with unasked | ⟨_, _, positive⟩
  · rw [unasked]
    rfl
  · cases asked : window.requested with
    | none => rfl
    | some end_ => exact isUsable_iff.2 (positive end_ asked)

end Exact

variable {settings : Settings ℚ} {epoch : Epoch ℚ} {requested : Option ℚ} {asked : Option Int}
  {bound : ℚ}

/-- Where the window has an end, an evaluation shows its samples and the ask of the moment. -/
theorem ofEpoch_eq_drawn (defines : epoch.definesCurve = true)
    (requests : (settings.window requested).requested.all isUsable = true)
    (ended : (settings.window requested).bound epoch = .ok (some bound))
    (many : 1 ≤ asked.getD settings.curveSteps) :
    Snapshot.ofEpoch settings epoch requested asked = .ok {
      status := .success
      epoch := some epoch
      ask := some (epoch.price epoch.elapsed)
      halfLife := epoch.halfLife
      anchor := some epoch.anchor
      windowEnd := some bound
      points := drawn epoch bound (asked.getD settings.curveSteps).toNat } := by
  have sampled := samples_eq defines requests ended many
  have asks : epoch.askNow = .ok (epoch.price epoch.elapsed) :=
    askAfter_eq (definesCurve_iff.1 defines).1 epoch.elapsed
  have nonempty : (drawn epoch bound (asked.getD settings.curveSteps).toNat).isEmpty = false := by
    rw [drawn, List.range_succ_eq_map]
    rfl
  rw [Snapshot.ofEpoch_of_faultless (fault?_eq_none defines), sampled, ok_bind, asks, ok_bind,
    nonempty, if_neg Bool.false_ne_true, ended, ok_bind]

/-- Whatever segments, least width and fallback are given, an epoch that defines a curve is evaluated in
an uncut window to samples that cover the present. -/
theorem evaluation_covers_now (defines : epoch.definesCurve = true)
    (least : 0 < settings.leastHalfLives) (fallback : 0 < settings.fallbackSeconds)
    (many : 1 ≤ asked.getD settings.curveSteps)
    (uncut : (settings.window requested).IsUncut epoch) :
    ∃ snapshot, Snapshot.ofEpoch settings epoch requested asked = .ok snapshot ∧
      snapshot.CoversNow epoch := by
  have ended := bound_of_isUncut defines least fallback uncut
  have reached := (elapsed_le_proposedEnd defines least fallback uncut).2
  have some_ : 0 < (asked.getD settings.curveSteps).toNat := by omega
  have first := head?_drawn epoch ((settings.window requested).proposedEnd epoch)
    (asked.getD settings.curveSteps).toNat
  have last := getLast?_drawn epoch ((settings.window requested).proposedEnd epoch) some_
  have falls := price_antitone (definesCurve_iff.1 defines).1
  have begins : (epoch.pointAt 0).tau = 0 := zero_mul epoch.unitSeconds
  have begun : (epoch.pointAt 0).tau ≤ epoch.elapsed := begins.trans_le (zero_le_elapsed epoch)
  refine ⟨_, ofEpoch_eq_drawn defines (requested_of_isUncut uncut) ended many, rfl,
    ⟨_, _, _, first, last, rfl, begins, reached, falls begun, falls reached, ?_, ?_⟩,
    Lookup.atTau?_of_within first last begun reached⟩
  · intro start
    rw [price_pointAt, begins, start]
  · intro unknown passed
    have endsNow : (epoch.pointAt ((settings.window requested).proposedEnd epoch)).tau =
        epoch.elapsed := by
      rw [proposedEnd_of_elapsed unknown passed, Epoch.pointAt, unitSeconds_of_none unknown, mul_one]
    exact ⟨endsNow, by rw [price_pointAt, endsNow]⟩

/-- An epoch without a premium, ten minutes after its start. -/
def unseededEpoch : Epoch ℚ where
  index := 2
  floor := 4
  k := 3
  premiumRate := none
  startTime := 10
  nowTime := 610

theorem evaluation_covers_now_late :
    (∃ snapshot, Snapshot.ofEpoch .standard (steepEpoch.withNow 40) none none = .ok snapshot ∧
      snapshot.CoversNow (steepEpoch.withNow 40)) ∧
    ∃ snapshot, Snapshot.ofEpoch .standard unseededEpoch (some 300) (some 10) = .ok snapshot ∧
      snapshot.CoversNow unseededEpoch := by
  have least : 0 < (Settings.standard : Settings ℚ).leastHalfLives := by decide +kernel
  have fallback : 0 < (Settings.standard : Settings ℚ).fallbackSeconds := by decide +kernel
  have cutAsked : (Settings.standard.window (some 300)).IsUncut unseededEpoch :=
    .inr ⟨rfl, by decide +kernel, fun end_ asked => by cases asked; norm_num⟩
  exact ⟨evaluation_covers_now (by decide +kernel) least fallback (by decide +kernel) (.inl rfl),
    evaluation_covers_now (by decide +kernel) least fallback (by decide +kernel) cutAsked⟩

end HyperbolicAuction
