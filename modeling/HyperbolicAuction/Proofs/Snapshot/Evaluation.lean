import HyperbolicAuction.Proofs.Curve.Failure
import Mathlib.Control.Monad.Basic

/-!
# Evaluations

An epoch without a fault is one that defines a curve. An evaluation of it fails where its samples do
or its ask of the moment does, and what it returns otherwise is settled by the samples.

Main statements: `evaluation_returns_iff`, the exact condition under which samples and evaluations
return, with an input where neither does in `evaluation_fails_at_vanishing`; and `ofEpoch_cases`,
what an evaluation returns.
-/

namespace HyperbolicAuction

open Binary64 Scalar

variable {epoch : Epoch Binary64}

/-- The faults of an epoch are all that keeps it from defining a curve. -/
theorem fault?_eq_none_iff : epoch.fault? = none ↔ epoch.definesCurve = true := by
  unfold Epoch.fault? Epoch.definesCurve
  simp only [isFinite_eq]
  cases decayFinite : epoch.k.isFinite with
  | false => simp [isUsable_of_not_isFinite decayFinite]
  | true =>
    rw [isUsable_eq_not_le decayFinite]
    cases floorFinite : epoch.floor.isFinite with
    | false => by_cases low : epoch.k ≤ 0 <;> simp [low]
    | true =>
      cases known : epoch.premiumRate with
      | none => simp
      | some premium =>
        cases premiumFinite : premium.isFinite with
        | false =>
          by_cases low : epoch.k ≤ 0 <;>
            simp [low, premiumFinite, isUsable_of_not_isFinite premiumFinite]
        | true =>
          by_cases low : epoch.k ≤ 0 <;> by_cases premiumLow : premium ≤ 0 <;>
            simp [low, premiumLow, premiumFinite, isUsable_eq_not_le premiumFinite]

namespace Snapshot

variable {settings : Settings Binary64} {requested : Option Binary64} {asked : Option Int}

theorem ofEpoch_of_not_definesCurve (undefined : epoch.definesCurve = false) :
    ∃ fault, epoch.fault? = some fault ∧
      ofEpoch settings epoch requested asked =
        .ok { status := .invalidConfig, epoch := some epoch, reason := some fault.reason } := by
  cases found : epoch.fault? with
  | none =>
    rw [fault?_eq_none_iff.1 found] at undefined
    cases undefined
  | some fault =>
    refine ⟨fault, rfl, ?_⟩
    unfold ofEpoch
    rw [found]
    rfl

/-- An epoch without a fault is evaluated to its samples and its ask, for every type of scalars. -/
theorem ofEpoch_of_faultless {α : Type} [Scalar α] {settings : Settings α} {epoch : Epoch α}
    {requested : Option α} {asked : Option Int} (faultless : epoch.fault? = none) :
    ofEpoch settings epoch requested asked =
      (epoch.samples (settings.window requested) (asked.getD settings.curveSteps)).bind fun points =>
        epoch.askNow.bind fun price =>
          if points.isEmpty then
            .ok {
              status := .noCurve, epoch := some epoch, ask := some price
              halfLife := epoch.halfLife, reason := some "no curve points" }
          else
            ((settings.window requested).bound epoch).bind fun bound =>
              .ok {
                status := .success, epoch := some epoch, ask := some price
                halfLife := epoch.halfLife, anchor := some epoch.anchor, windowEnd := bound
                points } := by
  unfold ofEpoch
  rw [faultless]
  rfl

theorem exists_ofEpoch_iff (defines : epoch.definesCurve = true) :
    (∃ snapshot, ofEpoch settings epoch requested asked = .ok snapshot) ↔
      (∃ points, epoch.samples (settings.window requested) (asked.getD settings.curveSteps) =
        .ok points) ∧ ∃ price, epoch.askNow = .ok price := by
  rw [ofEpoch_of_faultless (fault?_eq_none_iff.2 defines)]
  cases sampled : epoch.samples (settings.window requested) (asked.getD settings.curveSteps) with
  | error error => simp [Except.bind]
  | ok points =>
    cases priced : epoch.askNow with
    | error error => simp [Except.bind]
    | ok price =>
      cases points with
      | nil => simp [Except.bind]
      | cons first rest =>
        obtain ⟨bound, found⟩ := exists_bound_of_samples_ne_nil sampled (List.cons_ne_nil _ _)
        simp [Except.bind, found]

/-- An evaluation of an epoch that defines a curve returns the ask of the moment, and besides
everything there is to know of the curve, if it has samples. -/
theorem ofEpoch_priced {snapshot : Snapshot Binary64} (defines : epoch.definesCurve = true)
    (returned : ofEpoch settings epoch requested asked = .ok snapshot) :
    ∃ points price,
      epoch.samples (settings.window requested) (asked.getD settings.curveSteps) = .ok points ∧
      epoch.askNow = .ok price ∧
      (points = [] ∧ snapshot = {
          status := .noCurve, epoch := some epoch, ask := some price
          halfLife := epoch.halfLife, reason := some "no curve points" } ∨
        points ≠ [] ∧ ∃ bound, (settings.window requested).bound epoch = .ok (some bound) ∧
          snapshot = {
            status := .success, epoch := some epoch, ask := some price
            halfLife := epoch.halfLife, anchor := some epoch.anchor, windowEnd := some bound
            points }) := by
  rw [ofEpoch_of_faultless (fault?_eq_none_iff.2 defines)] at returned
  cases sampled : epoch.samples (settings.window requested) (asked.getD settings.curveSteps) with
  | error error =>
    rw [sampled, Outcome.error_bind] at returned
    cases returned
  | ok points =>
    cases priced : epoch.askNow with
    | error error =>
      rw [sampled, priced, Outcome.ok_bind, Outcome.error_bind] at returned
      cases returned
    | ok price =>
      rw [sampled, priced, Outcome.ok_bind, Outcome.ok_bind] at returned
      refine ⟨points, price, rfl, rfl, ?_⟩
      cases points with
      | nil =>
        cases returned
        exact .inl ⟨rfl, rfl⟩
      | cons first rest =>
        obtain ⟨bound, found⟩ := exists_bound_of_samples_ne_nil sampled (List.cons_ne_nil _ _)
        rw [found] at returned
        cases returned
        exact .inr ⟨List.cons_ne_nil _ _, bound, found, rfl⟩

/-- The parts of an evaluation of an epoch that defines a curve. -/
theorem ofEpoch_parts {snapshot : Snapshot Binary64} (defines : epoch.definesCurve = true)
    (returned : ofEpoch settings epoch requested asked = .ok snapshot) :
    snapshot.halfLife = epoch.halfLife ∧
      epoch.samples (settings.window requested) (asked.getD settings.curveSteps) =
        .ok snapshot.points ∧
      (∃ price, snapshot.ask = some price ∧ epoch.askNow = .ok price) ∧
      (snapshot.status = .success → snapshot.anchor = some epoch.anchor) := by
  obtain ⟨points, price, sampled, asks, ⟨rfl, rfl⟩ | ⟨_, bound, _, rfl⟩⟩ :=
    ofEpoch_priced defines returned
  · refine ⟨rfl, sampled, ⟨price, rfl, asks⟩, ?_⟩
    intro drawn
    cases drawn
  · exact ⟨rfl, sampled, ⟨price, rfl, asks⟩, fun _ => rfl⟩

/-- What an evaluation returns: an epoch with a fault has no ask, and every other has the ask of the
moment and its samples, which decide the status. -/
theorem ofEpoch_cases {snapshot : Snapshot Binary64}
    (returned : ofEpoch settings epoch requested asked = .ok snapshot) :
    snapshot.epoch = some epoch ∧
      (epoch.definesCurve = false ∧ snapshot.status = .invalidConfig ∧ snapshot.ask = none ∨
        epoch.definesCurve = true ∧
          epoch.samples (settings.window requested) (asked.getD settings.curveSteps) =
            .ok snapshot.points ∧
          snapshot.status = (if snapshot.points.isEmpty then .noCurve else .success) ∧
          ∃ price, snapshot.ask = some price ∧ epoch.askNow = .ok price) := by
  cases defines : epoch.definesCurve with
  | false =>
    obtain ⟨fault, _, evaluated⟩ :=
      @ofEpoch_of_not_definesCurve epoch settings requested asked defines
    rw [evaluated] at returned
    cases returned
    exact ⟨rfl, .inl ⟨rfl, rfl, rfl⟩⟩
  | true =>
    obtain ⟨points, price, sampled, priced, ⟨rfl, rfl⟩ | ⟨nonempty, bound, _, rfl⟩⟩ :=
      ofEpoch_priced defines returned
    · exact ⟨rfl, .inr ⟨rfl, sampled, rfl, price, rfl, priced⟩⟩
    · refine ⟨rfl, .inr ⟨rfl, sampled, ?_, price, rfl, priced⟩⟩
      rw [List.isEmpty_eq_false_iff.2 nonempty]
      rfl

end Snapshot

/-- Samples return unless the half-life vanishes or the segments are too many, and an evaluation
returns unless its samples fail or it divides by a vanished half-life at the start. -/
theorem evaluation_returns_iff (settings : Settings Binary64) (epoch : Epoch Binary64)
    (window : Window Binary64) (steps : Int) (requested : Option Binary64) (asked : Option Int) :
    ((∃ points, epoch.samples window steps = .ok points) ↔
      ¬ (epoch.isDrawn window steps = true ∧
        (epoch.halfLifeVanishes = true ∨ epoch.overcounts window steps))) ∧
    ((∃ snapshot, Snapshot.ofEpoch settings epoch requested asked = .ok snapshot) ↔
      ¬ (epoch.definesCurve = true ∧
        (epoch.halfLifeVanishes = true ∧ epoch.elapsed ≤ 0 ∨
          epoch.isDrawn (settings.window requested) (asked.getD settings.curveSteps) = true ∧
            (epoch.halfLifeVanishes = true ∨
              epoch.overcounts (settings.window requested)
                (asked.getD settings.curveSteps))))) := by
  refine ⟨exists_samples_iff, ?_⟩
  cases defines : epoch.definesCurve with
  | false =>
    obtain ⟨fault, _, returned⟩ :=
      @Snapshot.ofEpoch_of_not_definesCurve epoch settings requested asked defines
    simp [returned]
  | true =>
    rw [Snapshot.exists_ofEpoch_iff defines, exists_samples_iff]
    unfold Epoch.askNow
    rw [exists_ask_iff defines]
    constructor
    · rintro ⟨sampled, priced⟩ ⟨_, atStart | unsampled⟩
      · exact priced atStart
      · exact sampled unsampled
    · intro returns
      exact ⟨fun unsampled => returns ⟨rfl, .inr unsampled⟩,
        fun atStart => returns ⟨rfl, .inl atStart⟩⟩

/-- A premium of four over the least decay there is. -/
def vanishingEpoch : Epoch Binary64 where
  index := 2
  floor := 0
  k := ofQuotient false 1 (2 ^ 1074)
  premiumRate := some (ofNat 4)
  startTime := 0
  nowTime := 0

theorem evaluation_fails_at_vanishing :
    vanishingEpoch.samples .standard 120 = .error .divisionByZero ∧
      Snapshot.ofEpoch .standard vanishingEpoch none none = .error .divisionByZero := by
  decide +kernel

end HyperbolicAuction
