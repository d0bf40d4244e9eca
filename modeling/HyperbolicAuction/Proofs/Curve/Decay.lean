import HyperbolicAuction.Proofs.Binary64.Monotone
import HyperbolicAuction.Proofs.Curve.Failure

/-!
# The ask falls with time

The later it is, the more the ask divides by and the less is added to the floor. Each of the rounded
steps keeps that order, overflow included: where an ask is returned, every later one is returned as
well, and is no higher.

Main statements: `ask_decays`, with `ask_antitone` for epochs, and `elapsed_mono` for the time that
has passed of one.
-/

namespace HyperbolicAuction

open Binary64 Scalar

variable {floor k premium earlier later price : Binary64} {premiumRate : Option Binary64}
  {epoch : Epoch Binary64}

/-- A floor and a quotient of the decay by a time above zero: the more time, the less in all. -/
theorem add_div_antitone {divisor greater : Binary64} (floorFinite : floor.isFinite = true)
    (decay : isUsable k = true) (positive : 0 < divisor.position) (ordered : divisor ≤ greater) :
    floor + k / greater ≤ floor + k / divisor := by
  have decayParts := isUsable_iff.1 decay
  have decayFinite : k.isFinite = true := isFinite_iff.2 ⟨decayParts.1, by omega⟩
  have greaterPositive : 0 < greater.position :=
    Int.lt_of_lt_of_le positive (le_iff.1 ordered).2.2
  have quotients : k / greater ≤ k / divisor :=
    div_le_div_left decayFinite (Int.le_of_lt decayParts.2.1) positive ordered
  exact add_le_add (le_refl (isFinite_iff.1 floorFinite).1) quotients
    (ne_infinity_of_isFinite floorFinite true)
    (ne_infinity_of_nonneg (nonneg_div decay greaterPositive))

/-- What an ask with a premium divides by grows with time. -/
theorem askDivisor_mono (decay : isUsable k = true) (positive : 0 < premium.position)
    (ordered : earlier ≤ later) :
    larger earlier 0 + k / larger premium epsilon ≤
      larger later 0 + k / larger premium epsilon := by
  have halfLife := halfLife_nonneg decay positive
  have clamped : 0 ≤ larger earlier 0 := le_larger_right (ne_nan_of_le ordered).1 zero_ne_nan
  exact add_le_add (larger_le_larger_left ordered zero_ne_nan) (le_refl (ne_nan_of_le halfLife).2)
    (ne_infinity_of_nonneg clamped) (ne_infinity_of_nonneg halfLife)

/-- Where there is an ask at one time, there is one at every later time, and it is no higher. -/
theorem ask_antitone (floorFinite : floor.isFinite = true) (decay : isUsable k = true)
    (positive : ∀ premium, premiumRate = some premium → 0 < premium.position)
    (ordered : earlier ≤ later) (returned : ask floor k premiumRate earlier = .ok price) :
    ∃ lower, ask floor k premiumRate later = .ok lower ∧ lower ≤ price := by
  obtain ⟨earlierNumber, laterNumber⟩ := ne_nan_of_le ordered
  cases premiumRate with
  | none =>
    have divisor : 0 < (larger earlier epsilon).position := by
      have least := within_epsilon.pos
      rw [position_larger earlierNumber within_epsilon.ne_nan]
      omega
    cases returned
    exact ⟨_, rfl, add_div_antitone floorFinite decay divisor
      (larger_le_larger_left ordered within_epsilon.ne_nan)⟩
  | some premium =>
    have clamped : 0 ≤ larger earlier 0 := le_larger_right earlierNumber zero_ne_nan
    have sum := nonneg_add clamped (halfLife_nonneg decay (positive premium rfl))
    have grows := askDivisor_mono decay (positive premium rfl) ordered
    cases zero : isZero (larger earlier 0 + k / larger premium epsilon) with
    | true =>
      rw [ask_some_of_isZero zero] at returned
      cases returned
    | false =>
      rw [ask_some_of_not_isZero zero] at returned
      cases returned
      have divisor := pos_of_nonneg_of_not_isZero sum zero
      have laterNotZero : isZero (larger later 0 + k / larger premium epsilon) = false := by
        rw [← Bool.not_eq_true, isZero_iff]
        have positions := (le_iff.1 grows).2.2
        omega
      exact ⟨_, ask_some_of_not_isZero laterNotZero,
        add_div_antitone floorFinite decay divisor grows⟩

/-- The one failure of an ask: a half-life that was rounded to zero, at the start or before. -/
theorem ask_eq_error_iff (decay : isUsable k = true)
    (positive : ∀ premium, premiumRate = some premium → 0 < premium.position) :
    ask floor k premiumRate earlier = .error .divisionByZero ↔
      earlier ≤ 0 ∧ ∃ premium, premiumRate = some premium ∧
        isZero (k / larger premium epsilon) = true := by
  cases premiumRate with
  | none => simp [ask]
  | some premium =>
    have zero_iff := @isZero_askDivisor_iff earlier _ (halfLife_nonneg decay (positive premium rfl))
    cases zero : isZero (larger earlier 0 + k / larger premium epsilon) with
    | true =>
      obtain ⟨vanishes, early⟩ := zero_iff.1 zero
      exact iff_of_true (ask_some_of_isZero zero) ⟨early, premium, rfl, vanishes⟩
    | false =>
      rw [ask_some_of_not_isZero zero]
      refine iff_of_false ?_ ?_
      · intro failed
        cases failed
      · rintro ⟨early, _, ⟨⟩, vanishes⟩
        rw [zero_iff.2 ⟨vanishes, early⟩] at zero
        cases zero

theorem exists_ask_of_ne_error (asked : ask floor k premiumRate earlier ≠ .error .divisionByZero) :
    ∃ price, ask floor k premiumRate earlier = .ok price := by
  cases premiumRate with
  | none => exact ⟨_, rfl⟩
  | some premium =>
    cases zero : isZero (larger earlier 0 + k / larger premium epsilon) with
    | true => exact absurd (ask_some_of_isZero zero) asked
    | false => exact ⟨_, ask_some_of_not_isZero zero⟩

/-- The ask divides by zero only at the start or before, where the half-life was rounded to zero. It
is returned otherwise and at every later time, falls with time, and is never below the floor. -/
theorem ask_decays (floorFinite : floor.isFinite = true) (decay : isUsable k = true)
    (usable : ∀ premium, premiumRate = some premium → isUsable premium = true)
    (ordered : earlier ≤ later) :
    (ask floor k premiumRate earlier = .error .divisionByZero ↔
      earlier ≤ 0 ∧ ∃ premium, premiumRate = some premium ∧
        isZero (k / larger premium epsilon) = true) ∧
    (ask floor k premiumRate earlier ≠ .error .divisionByZero →
      ∃ price lower, ask floor k premiumRate earlier = .ok price ∧
        ask floor k premiumRate later = .ok lower ∧
        price ≠ nan ∧ lower ≠ nan ∧ floor ≤ lower ∧ lower ≤ price) := by
  have positive (premium) (known : premiumRate = some premium) : 0 < premium.position :=
    pos_of_isUsable (usable premium known)
  refine ⟨ask_eq_error_iff decay positive, ?_⟩
  intro returns
  obtain ⟨price, returned⟩ := exists_ask_of_ne_error returns
  obtain ⟨lower, returnedLater, falls⟩ := ask_antitone floorFinite decay positive ordered returned
  have above := floor_le_ask (isFinite_iff.1 floorFinite).1
    (ne_infinity_of_isFinite floorFinite true) decay positive (ne_nan_of_le ordered).2 returnedLater
  obtain ⟨lowerNumber, priceNumber⟩ := ne_nan_of_le falls
  exact ⟨price, lower, returned, returnedLater, priceNumber, lowerNumber, above, falls⟩

/-- The ask over a floor of four with a decay of one and a premium of two, before the start and ever
after. -/
theorem ask_decays_unit :
    ((ofNat 4).isFinite = true ∧ isUsable (1 : Binary64) = true ∧ isUsable (ofNat 2) = true ∧
        -(1 : Binary64) ≤ infinity false) ∧
      ∃ price lower, ask (ofNat 4) 1 (some (ofNat 2)) (-1) = .ok price ∧
        ask (ofNat 4) 1 (some (ofNat 2)) (infinity false) = .ok lower ∧
        price ≠ nan ∧ lower ≠ nan ∧ ofNat 4 ≤ lower ∧ lower ≤ price := by
  have decay : isUsable (1 : Binary64) = true := by decide +kernel
  have usable : isUsable (ofNat 2) = true := by decide +kernel
  have ordered : -(1 : Binary64) ≤ infinity false := by decide +kernel
  have floorFinite : (ofNat 4).isFinite = true := by decide +kernel
  obtain ⟨failure_iff, returns⟩ := @ask_decays (ofNat 4) 1 (-1) (infinity false)
    (some (ofNat 2)) floorFinite decay (fun premium known => Option.some.inj known ▸ usable) ordered
  refine ⟨⟨floorFinite, decay, usable, ordered⟩, returns fun failed => ?_⟩
  obtain ⟨_, premium, known, vanishes⟩ := failure_iff.1 failed
  have lasting : isZero (1 / larger (ofNat 2) epsilon) = false := by decide +kernel
  rw [← Option.some.inj known, lasting] at vanishes
  cases vanishes

/-- The ask of an epoch that defines a curve falls with time. -/
theorem askAfter_antitone {lower : Binary64} (defines : epoch.definesCurve = true)
    (ordered : earlier ≤ later) (returned : epoch.askAfter earlier = .ok price)
    (returnedLater : epoch.askAfter later = .ok lower) : lower ≤ price := by
  obtain ⟨floorFinite, decay, usable⟩ := epoch.usable_of_definesCurve defines
  obtain ⟨found, foundLater, falls⟩ := ask_antitone floorFinite decay
    (fun premium known => pos_of_isUsable (usable premium known)) ordered returned
  have same : lower = found := Except.ok.inj (returnedLater.symm.trans foundLater)
  rw [same]
  exact falls

/-- The later an epoch is seen, the more time has passed. -/
theorem elapsed_mono (epoch : Epoch Binary64) (earlierFinite : earlier.isFinite = true)
    (laterFinite : later.isFinite = true) (ordered : earlier ≤ later) :
    (epoch.withNow earlier).elapsed ≤ (epoch.withNow later).elapsed := by
  unfold Epoch.elapsed Epoch.withNow
  simp only [isFinite_eq, earlierFinite, laterFinite, Bool.true_and]
  split
  · next startFinite =>
    exact larger_le_larger_right (sub_le_sub_right ordered
      (ne_infinity_of_isFinite earlierFinite true) startFinite) zero_ne_nan
  · exact le_refl zero_ne_nan

end HyperbolicAuction
