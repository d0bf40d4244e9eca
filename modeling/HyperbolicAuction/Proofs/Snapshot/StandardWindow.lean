import HyperbolicAuction.Proofs.Binary64.Monotone
import HyperbolicAuction.Proofs.Settings.Bounds
import HyperbolicAuction.Proofs.Snapshot.Coherence

/-!
# The window under accepted settings

Accepted settings ask for segments and keep the widths of a window above zero, but they do not keep
them finite. So an epoch without a fault is drawn under them unless a value runs beyond the finite
ones: a width of the settings, where that is the end of the window, or the time that has passed, in
half-lives where these are counted.

Main statement: `standardEvaluation_status_iff`. That the window may be lacking, and for either of
the reasons, is shown in `standardEvaluation_noCurve`.
-/

namespace HyperbolicAuction

open Binary64 Scalar

/-- The end of a window that was not asked for runs beyond the finite values. -/
def Epoch.OutgrowsWindow (epoch : Epoch Binary64) (settings : Settings Binary64) : Prop :=
  match epoch.premiumRate with
  | none => epoch.elapsed.isFinite = false ∨
      isZero epoch.elapsed = true ∧ settings.fallbackSeconds.isFinite = false
  | some _ => settings.leastHalfLives.isFinite = false ∨
      ∃ halfLife, epoch.halfLife = some halfLife ∧ (epoch.elapsed / halfLife).isFinite = false

/-! ## The end of the window -/

variable {epoch : Epoch Binary64} {settings : Settings Binary64}

theorem bound_eq_none_of_none (positive : 0 < settings.fallbackSeconds)
    (unknown : epoch.premiumRate = none) :
    (settings.window none).bound epoch = .ok none ↔ epoch.OutgrowsWindow settings := by
  have ends : (settings.window none).bound epoch = .ok none ↔
      isUsable ((settings.window none).endSeconds epoch.elapsed) = false := by
    rw [Window.bound_of_none unknown, Except.ok.injEq, Option.filter_eq_none_iff]
    simp
  rw [ends]
  unfold Epoch.OutgrowsWindow Window.endSeconds Settings.window
  rw [unknown]
  cases zero : isZero epoch.elapsed with
  | true => simp [isFinite_of_isZero zero, isUsable_eq_isFinite positive]
  | false =>
    have passed := pos_of_nonneg_of_not_isZero (elapsed_nonneg epoch) zero
    have elapsedPositive : 0 < epoch.elapsed :=
      lt_iff.2 ⟨zero_ne_nan, ne_nan_of_pos passed, passed⟩
    simp [isUsable_eq_isFinite elapsedPositive]

theorem bound_eq_none_of_some (positive : 0 < settings.leastHalfLives)
    (defines : epoch.definesCurve = true) (lasting : epoch.halfLifeVanishes = false)
    {premium : Binary64} (known : epoch.premiumRate = some premium) :
    (settings.window none).bound epoch = .ok none ↔ epoch.OutgrowsWindow settings := by
  obtain ⟨_, decay, usable⟩ := Epoch.usable_of_definesCurve defines
  have half := Epoch.halfLife_of_some known (usable premium known)
  obtain ⟨halfLife, named⟩ : ∃ halfLife, halfLife = epoch.k / larger premium epsilon := ⟨_, rfl⟩
  have nonneg : 0 ≤ halfLife := by
    rw [named]
    exact halfLife_nonneg decay (pos_of_isUsable (usable premium known))
  rw [← named] at half
  have notZero : isZero halfLife = false := by
    simpa [Epoch.halfLifeVanishes, half] using lasting
  have passed := div_nan_or_nonneg (elapsed_nonneg epoch) (pos_of_nonneg_of_not_isZero nonneg notZero)
  have ends : (settings.window none).bound epoch = .ok none ↔
      isUsable (larger (epoch.elapsed / halfLife) settings.leastHalfLives) = false := by
    rw [Window.bound_of_some known, Window.endHalfLives, half]
    simp [Settings.window, quotient, notZero, bind, Except.bind, pure, Except.pure, Except.map,
      Option.filter_eq_none_iff]
  rw [ends, isUsable_larger_eq passed positive, Bool.and_eq_false_iff]
  simp [Epoch.OutgrowsWindow, known, half, or_comm]

/-- Under accepted settings, a window that was not asked for is lacking exactly if it is outgrown. -/
theorem lacksWindow_iff_outgrowsWindow (bounded : settings.IsBounded)
    (defines : epoch.definesCurve = true) (lasting : epoch.halfLifeVanishes = false) :
    epoch.LacksWindow (settings.window none) settings.curveSteps ↔
      epoch.OutgrowsWindow settings := by
  have many : ¬ (settings.curveSteps : Int) < 1 := by
    have least := bounded.curveSteps.1
    omega
  have ends : (settings.window none).bound epoch = .ok none ↔ epoch.OutgrowsWindow settings := by
    cases known : epoch.premiumRate with
    | none => exact bound_eq_none_of_none bounded.fallbackSeconds known
    | some premium => exact bound_eq_none_of_some bounded.leastHalfLives defines lasting known
  rw [Epoch.lacksWindow_iff, ends]
  simp [many, Settings.window]

/-- An evaluation with segments, and without a request, only returns where the half-life lasts. -/
theorem lasting_of_returned {snapshot : Snapshot Binary64} (bounded : settings.IsBounded)
    (defines : epoch.definesCurve = true)
    (returned : Snapshot.ofEpoch settings epoch none none = .ok snapshot) :
    epoch.halfLifeVanishes = false := by
  obtain ⟨sampled, _⟩ := (Snapshot.exists_ofEpoch_iff defines).1 ⟨snapshot, returned⟩
  have drawn : epoch.isDrawn (settings.window none) settings.curveSteps = true := by
    have least := bounded.curveSteps.1
    simp only [Epoch.isDrawn, defines, Settings.window, Option.all_none, Bool.and_true,
      decide_eq_true_eq]
    omega
  exact Bool.eq_false_iff.2 fun vanishes => exists_samples_iff.1 sampled ⟨drawn, .inl vanishes⟩

/-- Under accepted settings, an evaluation that asks for nothing shows the curve of an epoch without
a fault, unless the window is outgrown. -/
theorem standardEvaluation_status_iff {sources : SettingsSources} {snapshot : Snapshot Binary64}
    (accepted : sources.settings = .ok settings) (faultless : epoch.fault? = none)
    (returned : Snapshot.ofEpoch settings epoch none none = .ok snapshot) :
    (snapshot.status = .noCurve ↔ epoch.OutgrowsWindow settings) ∧
      (¬ epoch.OutgrowsWindow settings → snapshot.Shows epoch settings.curveSteps) := by
  have bounded := SettingsSources.isBounded_of_settings accepted
  have defines := fault?_eq_none_iff.1 faultless
  have lasting := lasting_of_returned bounded defines returned
  rw [← lacksWindow_iff_outgrowsWindow bounded defines lasting]
  obtain ⟨_, ⟨status, lacks⟩ | ⟨covers, shows_⟩⟩ := Snapshot.lacksWindow_or_shows defines returned
  · exact ⟨iff_of_true status lacks, fun covers => absurd lacks covers⟩
  · refine ⟨iff_of_false ?_ covers, fun _ => shows_⟩
    rw [shows_.success]
    exact CurveStatus.noConfusion

/-- An environment that asks for two segments. -/
def coarseSources : SettingsSources where
  environment := [("CURVE_STEPS", "2")]

/-- The standard settings with two segments. -/
def coarseSettings : Settings Binary64 := { Settings.standard with curveSteps := 2 }

theorem standardEvaluation_status_coarse : ∃ snapshot,
    coarseSources.settings = .ok coarseSettings ∧ unitEpoch.fault? = none ∧
      Snapshot.ofEpoch coarseSettings unitEpoch none none = .ok snapshot ∧
      snapshot.Shows unitEpoch coarseSettings.curveSteps := by
  have accepted : coarseSources.settings = .ok coarseSettings := by decide +kernel
  have faultless : unitEpoch.fault? = none := by decide +kernel
  obtain ⟨snapshot, returned, success⟩ : ∃ snapshot,
      Snapshot.ofEpoch coarseSettings unitEpoch none none = .ok snapshot ∧
        snapshot.status = .success :=
    Outcome.exists_of_map (by decide +kernel)
  obtain ⟨outgrown_iff, shows_⟩ := standardEvaluation_status_iff accepted faultless returned
  refine ⟨snapshot, accepted, faultless, returned, shows_ fun outgrown => ?_⟩
  rw [outgrown_iff.2 outgrown] at success
  cases success

/-- An environment that sets the least width of a window to infinity. -/
def infiniteSources : SettingsSources where
  environment := [("CURVE_U_MAX_DEFAULT", "inf")]

/-- An epoch of which more half-lives pass in a second than there is a finite number for. -/
def rushingEpoch : Epoch Binary64 where
  index := 2
  floor := 0
  k := ofQuotient false 1 (2 ^ 1000)
  premiumRate := some (ofNat (2 ^ 60))
  startTime := 0
  nowTime := 1

theorem standardEvaluation_noCurve :
    (infiniteSources.settings =
        .ok { Settings.standard with leastHalfLives := infinity false } ∧
      unitEpoch.fault? = none ∧
      (Snapshot.ofEpoch { Settings.standard with leastHalfLives := infinity false } unitEpoch none
        none).map (·.status) = .ok .noCurve) ∧
    (({} : SettingsSources).settings = .ok .standard ∧
      rushingEpoch.fault? = none ∧
      (Snapshot.ofEpoch .standard rushingEpoch none none).map (·.status) = .ok .noCurve) := by
  refine ⟨⟨?_, ?_, ?_⟩, rfl, ?_, ?_⟩ <;> decide +kernel

end HyperbolicAuction
