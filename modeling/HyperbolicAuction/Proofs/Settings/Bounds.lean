import HyperbolicAuction.Proofs.Binary64.Order
import HyperbolicAuction.Proofs.Outcome
import HyperbolicAuction.Settings.Sources

/-!
# The bounds of accepted settings

Whatever the sources hold, settings that are accepted keep to the bounds of their fields; the
standard settings do too.

Main statement: `isBounded_of_settings`.
-/

namespace HyperbolicAuction

open Outcome

/-- Settings within the bounds of their fields. -/
structure Settings.IsBounded (settings : Settings Binary64) : Prop where
  tokenDecimals : settings.tokenDecimals ≤ 36
  curveSteps : 1 ≤ settings.curveSteps ∧ settings.curveSteps ≤ 10000
  leastHalfLives : 0 < settings.leastHalfLives
  fallbackSeconds : 0 < settings.fallbackSeconds

theorem isBounded_standard : Settings.IsBounded .standard where
  tokenDecimals := by decide
  curveSteps := by decide
  leastHalfLives := by decide +kernel
  fallbackSeconds := by decide +kernel

namespace SettingsField

theorem bounds_of_readBounded {least greatest count : Nat} {value : Raw}
    (returned : readBounded least greatest value = .ok count) :
    least ≤ count ∧ count ≤ greatest := by
  unfold readBounded at returned
  obtain ⟨number, _, checked⟩ := bind_eq_ok_iff.1 returned
  dsimp only at checked
  split at checked
  · cases checked
  · next atLeast =>
    split at checked
    · cases checked
    · next atMost =>
      cases checked
      omega

theorem pos_of_readPositive {value : Raw} {number : Binary64}
    (returned : readPositive value = .ok number) : 0 < number := by
  unfold readPositive at returned
  obtain ⟨read, _, checked⟩ := bind_eq_ok_iff.1 returned
  split at checked
  · next positive =>
    cases checked
    exact positive
  · cases checked

end SettingsField

namespace SettingsSources

variable {sources : SettingsSources} {field : SettingsField}

/-- What is true of the standard value and of everything that is read is true of a setting. -/
theorem read_induction {α : Type} {reader : Raw → Except FieldError α} {standard result : α}
    {motive : α → Prop} (atStandard : motive standard)
    (atRead : ∀ value result, reader value = .ok result → motive result)
    (returned : sources.read field reader standard = .ok result) : motive result := by
  unfold read at returned
  split at returned
  · cases returned
    exact atStandard
  · exact atRead _ _ returned

theorem isBounded_of_settings {settings : Settings Binary64}
    (accepted : sources.settings = .ok settings) : settings.IsBounded := by
  unfold SettingsSources.settings at accepted
  dsimp only at accepted
  split at accepted
  · next tokenDecimals curveSteps leastHalfLives fallbackSeconds decimals steps least fallback =>
    cases accepted
    have standard := isBounded_standard
    constructor
    · refine read_induction (motive := (· ≤ 36)) standard.tokenDecimals ?_ decimals
      exact fun _ _ returned => (SettingsField.bounds_of_readBounded returned).2
    · refine read_induction (motive := fun count => 1 ≤ count ∧ count ≤ 10000) standard.curveSteps
        ?_ steps
      exact fun _ _ returned => SettingsField.bounds_of_readBounded returned
    · refine read_induction (motive := (0 < ·)) standard.leastHalfLives ?_ least
      exact fun _ _ returned => SettingsField.pos_of_readPositive returned
    · refine read_induction (motive := (0 < ·)) standard.fallbackSeconds ?_ fallback
      exact fun _ _ returned => SettingsField.pos_of_readPositive returned
  · cases accepted

end SettingsSources

end HyperbolicAuction
