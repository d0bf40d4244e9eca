import HyperbolicAuction.Curve.Sampling
import HyperbolicAuction.Proofs.Outcome

/-!
# The end of a window

The end of a window is counted in seconds or in half-lives, depending on the epoch, and is usable
wherever there is one; so are the offsets up to it. Nothing here depends on the type of scalars.

Main statements: `Window.bound_of_none`, `Window.bound_of_some`, `isUsable_of_bound`,
`Epoch.unitSeconds_cases`, `samples_of_lacks`.
-/

namespace HyperbolicAuction

open Scalar Outcome

variable {α : Type} [Scalar α] {epoch : Epoch α} {window : Window α} {bound premium : α}
  {steps : Int}

theorem Window.bound_of_none (unknown : epoch.premiumRate = none) :
    window.bound epoch = .ok ((some (window.endSeconds epoch.elapsed)).filter isUsable) := by
  simp only [Window.bound, unknown]
  rfl

theorem Window.bound_of_some (known : epoch.premiumRate = some premium) :
    window.bound epoch = (window.endHalfLives epoch).map (·.filter isUsable) := by
  simp only [Window.bound, known]
  cases window.endHalfLives epoch <;> rfl

/-- A window that has an end has a usable one. -/
theorem isUsable_of_bound (found : window.bound epoch = .ok (some bound)) :
    isUsable bound = true := by
  cases known : epoch.premiumRate with
  | none =>
    rw [Window.bound_of_none known] at found
    exact (Option.filter_eq_some_iff.1 (Except.ok.inj found)).2
  | some premium =>
    rw [Window.bound_of_some known] at found
    obtain ⟨proposed, _, filtered⟩ := exists_of_map found
    exact (Option.filter_eq_some_iff.1 filtered).2

/-- Where half-lives are counted and there is an end, what was asked for is that end. -/
theorem requested_of_bound (known : epoch.premiumRate = some premium)
    (found : window.bound epoch = .ok (some bound)) : window.requested.all isUsable = true := by
  cases asked : window.requested with
  | none => rfl
  | some requested =>
    have usable := isUsable_of_bound found
    rw [Window.bound_of_some known, Window.endHalfLives, asked] at found
    obtain ⟨ends, _⟩ := Option.filter_eq_some_iff.1 (Except.ok.inj found)
    rwa [Option.all_some, Option.some.inj ends]

/-! ## The unit of an offset -/

namespace Epoch

theorem halfLife_of_none (unknown : epoch.premiumRate = none) : epoch.halfLife = none := by
  simp only [Epoch.halfLife, unknown, HyperbolicAuction.halfLife]

theorem halfLife_of_some (known : epoch.premiumRate = some premium)
    (usable : isUsable premium = true) :
    epoch.halfLife = some (epoch.k / larger premium epsilon) := by
  simp only [Epoch.halfLife, known, HyperbolicAuction.halfLife, usable, if_true]

theorem isUsable_of_definesCurve (defines : epoch.definesCurve = true)
    (known : epoch.premiumRate = some premium) : isUsable premium = true := by
  simp only [Epoch.definesCurve, Bool.and_eq_true, known] at defines
  exact defines.2

/-- An offset counts half-lives, or seconds without a premium. -/
theorem unitSeconds_cases (defines : epoch.definesCurve = true) :
    epoch.premiumRate = none ∧ epoch.unitSeconds = 1 ∨
      epoch.halfLife = some epoch.unitSeconds := by
  unfold Epoch.unitSeconds
  cases known : epoch.premiumRate with
  | none => exact .inl ⟨rfl, rfl⟩
  | some premium =>
    rw [halfLife_of_some known (isUsable_of_definesCurve defines known)]
    exact .inr rfl

end Epoch

/-! ## Lacking windows -/

/-- There are no samples where no segment, no usable window or no end is asked for. -/
theorem samples_of_lacks
    (lacks : steps < 1 ∨ window.requested.all isUsable = false ∨ window.bound epoch = .ok none) :
    epoch.samples window steps = .ok [] := by
  unfold Epoch.samples
  split
  · rfl
  · next covered =>
    simp only [Bool.or_eq_true, decide_eq_true_eq, Bool.not_eq_true', not_or] at covered
    obtain ⟨⟨many, _⟩, requests⟩ := covered
    rcases lacks with few | refused | found
    · exact absurd few many
    · exact absurd refused requests
    · rw [found]
      rfl

end HyperbolicAuction
