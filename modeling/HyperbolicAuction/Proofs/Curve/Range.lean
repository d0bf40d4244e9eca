import HyperbolicAuction.Proofs.Snapshot.StandardWindow

/-!
# Epochs in range

Where floor, times, decay and premium are zero or of ordinary size, the half-life is neither zero nor
beyond the finite values, and so is no number that a window or an ask is computed from: such an epoch
is evaluated without failure, and drawn if it is seen at a moment of ordinary size.

Main statements: `exists_snapshot_of_inRange`, `success_of_inRange`.
-/

namespace HyperbolicAuction

open Binary64 Scalar

attribute [local irreducible] overflowLimit unitsPerOne

/-- An epoch whose floor, start, decay and premium are zero or of ordinary size. -/
structure Epoch.InRange (epoch : Epoch Binary64) : Prop where
  floor : UpTo 1330 epoch.floor
  startTime : UpTo 1330 epoch.startTime
  decay : isZero epoch.k = true ∨ Within 954 1330 epoch.k
  premium : ∀ premium, epoch.premiumRate = some premium → UpTo 1586 premium

variable {epoch : Epoch Binary64} {premium : Binary64} {settings : Settings Binary64}

theorem Epoch.InRange.decay_within (inRange : epoch.InRange) (defines : epoch.definesCurve = true) :
    Within 954 1330 epoch.k := by
  obtain ⟨_, decay, _⟩ := epoch.usable_of_definesCurve defines
  rcases inRange.decay with zero | within
  · have positive := pos_of_isUsable decay
    rw [(isZero_iff.1 zero).2] at positive
    exact absurd positive (Int.lt_irrefl 0)
  · exact within

/-- One is `2 ^ 1074` units, so quotients lie within 954 + 1074 - 1586 and 1330 + 1074 - 1044. -/
theorem within_halfLife (inRange : epoch.InRange) (defines : epoch.definesCurve = true)
    (known : epoch.premiumRate = some premium) :
    Within 442 1360 (epoch.k / larger premium epsilon) := by
  have divisor : Within 1044 1586 (larger premium epsilon) :=
    Within.larger (inRange.premium premium known) (within_epsilon.mono (by decide) (by decide))
  exact (inRange.decay_within defines).div divisor (by decide) (by decide) (by decide) (by decide)
    (by decide) (by decide)

theorem lasting_of_inRange (inRange : epoch.InRange) (defines : epoch.definesCurve = true) :
    epoch.halfLifeVanishes = false := by
  cases known : epoch.premiumRate with
  | none => exact Epoch.halfLifeVanishes_of_none known
  | some premium =>
    have usable := (epoch.usable_of_definesCurve defines).2.2 premium known
    have positive := (within_halfLife inRange defines known).pos
    rw [Epoch.halfLifeVanishes_of_some known usable, ← Bool.not_eq_true, isZero_iff]
    intro zero
    omega

/-- The number of segments of bounded settings is finite. -/
theorem isFinite_curveSteps (bounded : settings.IsBounded) :
    (Nat.cast settings.curveSteps : Binary64).isFinite = true := by
  have steps := bounded.curveSteps
  have within : Within 1074 1088 (ofQuotient false settings.curveSteps 1) := by
    have lower : 2 ^ 0 ≤ settings.curveSteps := steps.1
    have upper : settings.curveSteps ≤ 2 ^ 14 := Nat.le_trans steps.2 (by decide)
    exact @within_ofQuotient 1074 1088 settings.curveSteps 1 0 14 0 0 lower upper (by decide)
      (by decide) (by decide) (by decide) (by decide) (by decide)
  rw [natCast_eq]
  exact within.isFinite (by decide)

theorem not_overcounts (bounded : settings.IsBounded) (window : Window Binary64) :
    ¬ epoch.overcounts window settings.curveSteps := by
  rintro ⟨_, infinite⟩
  rw [Int.toNat_natCast, isFinite_curveSteps bounded] at infinite
  cases infinite

/-- An epoch in range is evaluated at every moment. -/
theorem exists_snapshot_of_inRange (bounded : settings.IsBounded) (inRange : epoch.InRange) :
    ∃ snapshot, Snapshot.ofEpoch settings epoch none none = .ok snapshot := by
  cases defines : epoch.definesCurve with
  | false =>
    obtain ⟨fault, _, returned⟩ :=
      @Snapshot.ofEpoch_of_not_definesCurve epoch settings none none defines
    exact ⟨_, returned⟩
  | true =>
    have lasting := lasting_of_inRange inRange defines
    rw [Snapshot.exists_ofEpoch_iff defines, exists_samples_iff]
    unfold Epoch.askNow
    rw [exists_ask_iff defines, lasting]
    refine ⟨?_, fun vanishes => nomatch vanishes.1⟩
    rintro ⟨_, vanishes | overcounts⟩
    · cases vanishes
    · exact not_overcounts bounded _ overcounts

/-! ## Moments of ordinary size -/

/-- What has passed of an epoch is no more than the moment it is seen at. -/
theorem elapsed_upTo {high : Nat} (limited : high ≤ 2098)
    (startFinite : epoch.startTime.isFinite = true) (startNonneg : 0 ≤ epoch.startTime)
    (near : epoch.nowTime.isFinite = true → epoch.nowTime.position ≤ ((2 ^ high : Nat) : Int)) :
    UpTo high epoch.elapsed := by
  refine ⟨elapsed_nonneg epoch, ?_⟩
  have atLeast : (0 : Int) ≤ ((2 ^ high : Nat) : Int) := Int.natCast_nonneg _
  unfold Epoch.elapsed
  simp only [isFinite_eq, startFinite, Bool.and_true]
  split
  · next nowFinite =>
    obtain ⟨number, difference⟩ :=
      sub_upper nowFinite (near nowFinite) startFinite startNonneg limited
    rw [position_larger zero_ne_nan number, position_zero]
    omega
  · exact atLeast

/-- The number of half-lives that have passed is finite. -/
theorem isFinite_passed {elapsed halfLife : Binary64} (elapsedUpTo : UpTo 1330 elapsed)
    (within : Within 442 1360 halfLife) : (elapsed / halfLife).isFinite = true := by
  rcases elapsedUpTo.isZero_or_within with zero | elapsedWithin
  · exact isFinite_of_isZero (isZero_div zero within.pos (within.isFinite (by decide)))
  · have nonneg : 0 ≤ elapsed / halfLife :=
      div_nonneg (elapsedWithin.isFinite (by decide)) (Int.le_of_lt elapsedWithin.pos) within.pos
    obtain ⟨high, high_eq⟩ : ∃ high, high = 1963 := ⟨_, rfl⟩
    have upper := @Within.div_upper high _ _ _ _ _ _ elapsedWithin within (by decide) (by decide)
      (by omega) (by omega)
    exact UpTo.isFinite ⟨nonneg, upper⟩ (by omega)

/-- What passes of an epoch in range does not run beyond the finite values. -/
theorem not_outgrowsWindow_of_inRange (leastFinite : settings.leastHalfLives.isFinite = true)
    (fallbackFinite : settings.fallbackSeconds.isFinite = true) (inRange : epoch.InRange)
    (defines : epoch.definesCurve = true) (elapsed : UpTo 1330 epoch.elapsed) :
    ¬ epoch.OutgrowsWindow settings := by
  unfold Epoch.OutgrowsWindow
  cases known : epoch.premiumRate with
  | none => simp [elapsed.isFinite (by decide), fallbackFinite]
  | some premium =>
    have usable := (epoch.usable_of_definesCurve defines).2.2 premium known
    have passed := isFinite_passed elapsed (within_halfLife inRange defines known)
    simp [leastFinite, Epoch.halfLife_of_some known usable, passed]

/-- An epoch in range that defines a curve is drawn, if little enough time has passed. -/
theorem success_of_inRange {snapshot : Snapshot Binary64} (bounded : settings.IsBounded)
    (leastFinite : settings.leastHalfLives.isFinite = true)
    (fallbackFinite : settings.fallbackSeconds.isFinite = true) (inRange : epoch.InRange)
    (defines : epoch.definesCurve = true) (elapsed : UpTo 1330 epoch.elapsed)
    (returned : Snapshot.ofEpoch settings epoch none none = .ok snapshot) :
    snapshot.status = .success := by
  obtain ⟨_, ⟨_, lacks⟩ | ⟨_, shows_⟩⟩ := Snapshot.lacksWindow_or_shows defines returned
  · have outgrown := (lacksWindow_iff_outgrowsWindow bounded defines
      (lasting_of_inRange inRange defines)).1 lacks
    exact absurd outgrown
      (not_outgrowsWindow_of_inRange leastFinite fallbackFinite inRange defines elapsed)
  · exact shows_.success

end HyperbolicAuction
