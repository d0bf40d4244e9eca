import HyperbolicAuction.Curve.Sampling
import HyperbolicAuction.Proofs.Curve.Window
import Mathlib.Algebra.Order.Field.Rat
import Mathlib.Tactic.FieldSimp
import Mathlib.Tactic.Linarith
import Mathlib.Tactic.Positivity
import Mathlib.Tactic.Ring

/-!
# The curve in exact arithmetic

Over the rationals nothing is rounded, overflows or vanishes. Every computation of a curve that an
epoch defines returns, and what it returns is the formula that it is named after: the ask some
seconds after the start is `Epoch.price`, a sample at an offset is `Epoch.pointAt`, a window ends at
`Window.proposedEnd` if it has an end, and its samples stand at the even parts of it.

Main statements: `askAfter_eq`, `bound_eq`, `samples_eq`, `samples_cases`.
-/

namespace HyperbolicAuction.Exact

open Scalar Outcome

/-! ## Rational scalars -/

theorem larger_eq_max (first second : ℚ) : larger first second = max first second := by
  unfold larger
  split
  · next less => exact (max_eq_right (le_of_lt less)).symm
  · next notLess => exact (max_eq_left (not_lt.1 notLess)).symm

theorem isZero_iff {value : ℚ} : isZero value = true ↔ value = 0 := by
  simp only [isZero, Bool.and_eq_true, decide_eq_true_eq]
  exact le_antisymm_iff.symm

theorem isUsable_iff {value : ℚ} : isUsable value = true ↔ 0 < value := by
  unfold isUsable
  rw [Bool.and_eq_true, decide_eq_true_eq]
  exact and_iff_right rfl

theorem isNumber_eq_true (value : ℚ) : isNumber value = true := decide_eq_true (le_refl value)

theorem quotient_of_ne_zero (dividend : ℚ) {divisor : ℚ} (divides : divisor ≠ 0) :
    quotient dividend divisor = .ok (dividend / divisor) := by
  unfold quotient
  rw [if_neg]
  exact fun zero => divides (isZero_iff.1 zero)

theorem epsilon_pos : (0 : ℚ) < epsilon := by
  show (0 : ℚ) < 1 / 1000000000
  norm_num

/-- What a premium is divided into. -/
theorem divisor_pos (premium : ℚ) : 0 < max premium epsilon :=
  lt_max_of_lt_right epsilon_pos

end HyperbolicAuction.Exact

namespace HyperbolicAuction

open Scalar Outcome Exact

/-- The ask of an epoch some seconds after its start. -/
def Epoch.price (epoch : Epoch ℚ) (tau : ℚ) : ℚ :=
  match epoch.premiumRate with
  | none => epoch.floor + epoch.k / max tau epsilon
  | some premium => epoch.floor + epoch.k / (max tau 0 + epoch.k / max premium epsilon)

/-- Where a window is to end, counted as the offsets of an epoch are. -/
def Window.proposedEnd (window : Window ℚ) (epoch : Epoch ℚ) : ℚ :=
  match epoch.premiumRate with
  | none => window.endSeconds epoch.elapsed
  | some _ =>
    window.requested.getD (max (epoch.elapsed / epoch.unitSeconds) window.leastHalfLives)

/-- The sample of an epoch at an offset. -/
def Epoch.pointAt (epoch : Epoch ℚ) (u : ℚ) : Point ℚ where
  epochIndex := epoch.index
  tau := u * epoch.unitSeconds
  u := u
  price := epoch.price (u * epoch.unitSeconds)

namespace Exact

variable {epoch : Epoch ℚ} {window : Window ℚ} {steps : Int} {bound premium : ℚ}

/-! ## Epochs that define a curve -/

theorem definesCurve_iff :
    epoch.definesCurve = true ↔
      0 < epoch.k ∧ ∀ premium, epoch.premiumRate = some premium → 0 < premium := by
  unfold Epoch.definesCurve
  rw [Bool.and_eq_true, Bool.and_eq_true, isUsable_iff]
  refine and_congr (and_iff_right rfl) ?_
  cases epoch.premiumRate with
  | none => simp
  | some premium => simp [isUsable_iff]

theorem halfLife_of_some (known : epoch.premiumRate = some premium) (positive : 0 < premium) :
    epoch.halfLife = some (epoch.k / max premium epsilon) := by
  rw [Epoch.halfLife_of_some known (isUsable_iff.2 positive), larger_eq_max]

theorem unitSeconds_of_some (known : epoch.premiumRate = some premium) (positive : 0 < premium) :
    epoch.unitSeconds = epoch.k / max premium epsilon := by
  unfold Epoch.unitSeconds
  rw [known, halfLife_of_some known positive, Option.getD_some]

theorem unitSeconds_of_none (unknown : epoch.premiumRate = none) : epoch.unitSeconds = 1 := by
  unfold Epoch.unitSeconds
  rw [unknown]

theorem unitSeconds_pos (defines : epoch.definesCurve = true) : 0 < epoch.unitSeconds := by
  obtain ⟨decay, positive⟩ := definesCurve_iff.1 defines
  cases known : epoch.premiumRate with
  | none =>
    rw [unitSeconds_of_none known]
    exact one_pos
  | some premium =>
    rw [unitSeconds_of_some known (positive premium known)]
    exact div_pos decay (divisor_pos premium)

theorem price_of_some (known : epoch.premiumRate = some premium) (tau : ℚ) :
    epoch.price tau = epoch.floor + epoch.k / (max tau 0 + epoch.k / max premium epsilon) := by
  unfold Epoch.price
  rw [known]

theorem price_of_none (unknown : epoch.premiumRate = none) (tau : ℚ) :
    epoch.price tau = epoch.floor + epoch.k / max tau epsilon := by
  unfold Epoch.price
  rw [unknown]

/-- A sample has the price of its time. -/
theorem price_pointAt (epoch : Epoch ℚ) (u : ℚ) :
    (epoch.pointAt u).price = epoch.price (epoch.pointAt u).tau := rfl

/-- The half-life keeps the ask from dividing by zero at the start. -/
theorem askDivisor_pos (decay : 0 < epoch.k) (premium tau : ℚ) :
    0 < max tau 0 + epoch.k / max premium epsilon :=
  add_pos_of_nonneg_of_pos (le_max_right tau 0) (div_pos decay (divisor_pos premium))

/-- An ask is always returned. -/
theorem askAfter_eq (decay : 0 < epoch.k) (tau : ℚ) :
    epoch.askAfter tau = .ok (epoch.price tau) := by
  unfold Epoch.askAfter
  cases known : epoch.premiumRate with
  | none =>
    rw [price_of_none known, ← larger_eq_max]
    rfl
  | some premium =>
    have divides := (askDivisor_pos decay premium tau).ne'
    rw [price_of_some known]
    simp only [ask, larger_eq_max]
    rw [quotient_of_ne_zero _ divides]
    rfl

theorem elapsed_eq (epoch : Epoch ℚ) : epoch.elapsed = max 0 (epoch.nowTime - epoch.startTime) :=
  larger_eq_max 0 (epoch.nowTime - epoch.startTime)

/-- The ask never rises. -/
theorem price_antitone (decay : 0 < epoch.k) : Antitone epoch.price := by
  intro tau later ordered
  cases known : epoch.premiumRate with
  | none =>
    rw [price_of_none known, price_of_none known]
    exact add_le_add_right
      (div_le_div_of_nonneg_left decay.le (divisor_pos tau) (max_le_max_right epsilon ordered)) _
  | some premium =>
    rw [price_of_some known, price_of_some known]
    exact add_le_add_right (div_le_div_of_nonneg_left decay.le (askDivisor_pos decay premium tau)
      (add_le_add_left (max_le_max_right 0 ordered) _)) _

/-! ## Windows -/

/-- A window has the proposed end, if that is above zero, and none otherwise. -/
theorem bound_eq (defines : epoch.definesCurve = true) (window : Window ℚ) :
    window.bound epoch = .ok ((some (window.proposedEnd epoch)).filter isUsable) := by
  unfold Window.proposedEnd
  cases known : epoch.premiumRate with
  | none => exact Window.bound_of_none known
  | some premium =>
    have divides : epoch.unitSeconds ≠ 0 := (unitSeconds_pos defines).ne'
    obtain ⟨unknown, -⟩ | half := Epoch.unitSeconds_cases defines
    · rw [known] at unknown
      cases unknown
    rw [Window.bound_of_some known, Window.endHalfLives, half]
    cases window.requested with
    | some requested => rfl
    | none =>
      dsimp only
      rw [quotient_of_ne_zero _ divides, ok_do, larger_eq_max]
      rfl

/-! ## Samples -/

theorem sampleAt_eq (decay : 0 < epoch.k) (u : ℚ) : epoch.sampleAt u = .ok (epoch.pointAt u) := by
  unfold Epoch.sampleAt
  dsimp only
  rw [askAfter_eq decay]
  rfl

/-- The offset at which some of the even segments of a window end. -/
def offset (bound : ℚ) (count index : Nat) : ℚ := bound * index / count

/-- The end of the window is the end of its last segment. -/
theorem sampleOffset_eq {count index : Nat} (some_ : 0 < count) :
    Epoch.sampleOffset bound count index = offset bound count index := by
  unfold Epoch.sampleOffset
  split
  · next last =>
    have divides : (count : ℚ) ≠ 0 := Nat.cast_ne_zero.2 some_.ne'
    rw [last, offset, mul_div_cancel_right₀ bound divides]
  · rfl

/-- The samples at the ends of some even segments of a window. -/
def drawn (epoch : Epoch ℚ) (bound : ℚ) (count : Nat) : List (Point ℚ) :=
  (List.range (count + 1)).map fun index => epoch.pointAt (offset bound count index)

theorem samplesUpTo_eq (decay : 0 < epoch.k) {count : Nat} (some_ : 0 < count) :
    epoch.samplesUpTo bound count = .ok (drawn epoch bound count) := by
  have countFinite : isFinite (Nat.cast count : ℚ) = true := rfl
  unfold Epoch.samplesUpTo
  rw [if_pos countFinite]
  refine mapM_eq_ok_map fun index _ => ?_
  rw [sampleOffset_eq some_, sampleAt_eq decay]

/-- Where a window has an end, its samples are drawn. -/
theorem samples_eq (defines : epoch.definesCurve = true) (requests : window.requested.all isUsable)
    (found : window.bound epoch = .ok (some bound)) (many : 1 ≤ steps) :
    epoch.samples window steps = .ok (drawn epoch bound steps.toNat) := by
  have few : (steps < 1 : Bool) = false := decide_eq_false (not_lt.2 many)
  unfold Epoch.samples
  rw [few, defines, requests, found]
  exact samplesUpTo_eq (definesCurve_iff.1 defines).1 (by omega)

/-- A window is lacking, or its samples are drawn up to its end. -/
theorem samples_cases (defines : epoch.definesCurve = true) (window : Window ℚ) (steps : Int) :
    (steps < 1 ∨ window.requested.all isUsable = false ∨ window.bound epoch = .ok none) ∨
      ∃ bound, 1 ≤ steps ∧ window.bound epoch = .ok (some bound) ∧
        epoch.samples window steps = .ok (drawn epoch bound steps.toNat) := by
  rcases Int.lt_or_le steps 1 with few | many
  · exact .inl (.inl few)
  · cases requests : window.requested.all isUsable with
    | false => exact .inl (.inr (.inl rfl))
    | true =>
      have found := bound_eq defines window
      cases ended : (some (window.proposedEnd epoch)).filter isUsable with
      | none =>
        rw [ended] at found
        exact .inl (.inr (.inr found))
      | some bound =>
        rw [ended] at found
        exact .inr ⟨bound, many, found, samples_eq defines requests found many⟩

end Exact

end HyperbolicAuction
