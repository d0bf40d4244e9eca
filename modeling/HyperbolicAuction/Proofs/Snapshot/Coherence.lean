import HyperbolicAuction.Proofs.Curve.Sampling
import HyperbolicAuction.Proofs.Snapshot.Evaluation

/-!
# Coherent snapshots

An epoch is checked twice, once for its faults and once before it is sampled, and the end of its
window is computed twice, once for the samples and once for the snapshot. Whatever values the epoch
and the window hold, the two checks agree and the two ends are one: a snapshot is of an epoch with a
fault, or of one whose window is lacking, or it shows the curve up to the end that it names.

Main statement: `ofEpoch_coherent`.
-/

namespace HyperbolicAuction

open Binary64 Scalar

/-- No curve is to be drawn: no segment or no usable end is asked for, or the window has no end. -/
def Epoch.LacksWindow (epoch : Epoch Binary64) (window : Window Binary64) (steps : Int) : Prop :=
  steps < 1 ∨
    (∃ requested, window.requested = some requested ∧
      (requested.isFinite = false ∨ requested ≤ 0)) ∨
    window.bound epoch = .ok none

/-- A snapshot shows the curve of an epoch in some segments, up to the end that it names. -/
structure Snapshot.Shows (snapshot : Snapshot Binary64) (epoch : Epoch Binary64) (steps : Int) :
    Prop where
  success : snapshot.status = .success
  isValid : snapshot.isValid = true
  draws : ∃ bound count, snapshot.windowEnd = some bound ∧ bound.isFinite = true ∧ 0 < bound ∧
    steps = (count : Nat) ∧ epoch.Draws bound count snapshot.points

variable {epoch : Epoch Binary64} {window : Window Binary64} {steps : Int}

theorem Epoch.lacksWindow_iff : epoch.LacksWindow window steps ↔
    steps < 1 ∨ window.requested.all isUsable = false ∨ window.bound epoch = .ok none := by
  unfold Epoch.LacksWindow
  refine or_congr_right (or_congr_left ?_)
  cases window.requested with
  | none => simp
  | some requested => simp [isUsable_eq_false_iff]

/-- An epoch that defines no curve has no samples in any window. -/
theorem samples_of_not_definesCurve (undefined : epoch.definesCurve = false) (window steps) :
    epoch.samples window steps = .ok [] := by
  refine samples_of_not_isDrawn ?_
  rw [Epoch.isDrawn, undefined, Bool.and_false, Bool.false_and]

namespace Snapshot

variable {settings : Settings Binary64} {requested : Option Binary64} {asked : Option Int}
  {snapshot : Snapshot Binary64}

/-- An evaluation of an epoch without a fault lacks the window, or shows the curve in it. -/
theorem lacksWindow_or_shows (defines : epoch.definesCurve = true)
    (returned : ofEpoch settings epoch requested asked = .ok snapshot) :
    (∃ price, snapshot.ask = some price) ∧
      (snapshot.status = .noCurve ∧
          epoch.LacksWindow (settings.window requested) (asked.getD settings.curveSteps) ∨
        ¬ epoch.LacksWindow (settings.window requested) (asked.getD settings.curveSteps) ∧
          snapshot.Shows epoch (asked.getD settings.curveSteps)) := by
  obtain ⟨points, price, sampled, _, ⟨empty, rfl⟩ | ⟨nonempty, bound, found, rfl⟩⟩ :=
    ofEpoch_priced defines returned
  · refine ⟨⟨price, rfl⟩, .inl ⟨rfl, ?_⟩⟩
    exact Epoch.lacksWindow_iff.2 ((samples_eq_nil_iff defines sampled).1 empty)
  · refine ⟨⟨price, rfl⟩, .inr ⟨?_, rfl, ?_, ?_⟩⟩
    · intro lacks
      exact nonempty ((samples_eq_nil_iff defines sampled).2 (Epoch.lacksWindow_iff.1 lacks))
    · simp [isValid, nonempty]
    · obtain ⟨many, end_, endFound, draws⟩ := draws_of_samples sampled nonempty
      rw [found] at endFound
      cases endFound
      have usable := isUsable_eq_true_iff.1 (isUsable_of_bound found)
      exact ⟨bound, _, rfl, usable.1, usable.2, (Int.toNat_of_nonneg (by omega)).symm, draws⟩

end Snapshot

/-- The status of a snapshot says which of the three it is, and all of it is coherent with that. -/
theorem ofEpoch_coherent {settings : Settings Binary64} {requested : Option Binary64}
    {asked : Option Int} {snapshot : Snapshot Binary64}
    (returned : Snapshot.ofEpoch settings epoch requested asked = .ok snapshot) :
    (snapshot.status = .invalidConfig ↔ epoch.fault? ≠ none) ∧
    (snapshot.status = .invalidConfig → ∀ window steps, epoch.samples window steps = .ok []) ∧
    (snapshot.status = .noCurve ↔ epoch.fault? = none ∧
      epoch.LacksWindow (settings.window requested) (asked.getD settings.curveSteps)) ∧
    (snapshot.status ≠ .invalidConfig → snapshot.status ≠ .noCurve →
      snapshot.Shows epoch (asked.getD settings.curveSteps)) ∧
    (snapshot.ask = none ↔ snapshot.status = .invalidConfig) := by
  rw [Ne, fault?_eq_none_iff]
  cases defines : epoch.definesCurve with
  | false =>
    obtain ⟨fault, _, evaluated⟩ :=
      @Snapshot.ofEpoch_of_not_definesCurve epoch settings requested asked defines
    rw [evaluated] at returned
    cases returned
    simpa using samples_of_not_definesCurve defines
  | true =>
    obtain ⟨⟨price, priced⟩, ⟨status, lacks⟩ | ⟨covers, shows_⟩⟩ :=
      Snapshot.lacksWindow_or_shows defines returned
    · simp [status, lacks, priced]
    · simp [shows_.success, covers, priced, shows_]

/-- An epoch over a floor of zero whose decay and premium are one, seen at its start. -/
def unitEpoch : Epoch Binary64 where
  index := 2
  floor := 0
  k := 1
  premiumRate := some 1
  startTime := 0
  nowTime := 0

theorem ofEpoch_coherent_unit : ∃ snapshot,
    Snapshot.ofEpoch .standard unitEpoch (some (ofNat 3)) (some 2) = .ok snapshot ∧
      snapshot.status = .success ∧ snapshot.Shows unitEpoch 2 := by
  obtain ⟨snapshot, returned, success⟩ : ∃ snapshot,
      Snapshot.ofEpoch .standard unitEpoch (some (ofNat 3)) (some 2) = .ok snapshot ∧
        snapshot.status = .success :=
    Outcome.exists_of_map (by decide +kernel)
  exact ⟨snapshot, returned, success,
    (ofEpoch_coherent returned).2.2.2.1 (by simp [success]) (by simp [success])⟩

end HyperbolicAuction
