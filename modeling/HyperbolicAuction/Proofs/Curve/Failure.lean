import HyperbolicAuction.Proofs.Binary64.Range
import HyperbolicAuction.Proofs.Curve.Window
import HyperbolicAuction.Snapshot.Basic

/-!
# When a curve cannot be evaluated

The divisors of a curve are held away from zero one by one, but not the half-life they are divided
into: a small decay over a great premium is rounded to zero. The ask at the start then divides by
zero, and so does a window that is measured in half-lives. Besides, a number of segments has to be a
finite binary64 number to be divided by.

Main statements: `exists_ask_iff`, `exists_bound_iff` and `exists_samples_iff` say exactly when each
computation of the curve returns, and `halfLifeVanishes_iff` when a half-life is rounded to zero.
-/

namespace HyperbolicAuction

open Binary64 Scalar Outcome

attribute [local irreducible] overflowLimit unitsPerOne

/-- Whether there is a half-life, and it was rounded to zero. -/
def Epoch.halfLifeVanishes (epoch : Epoch Binary64) : Bool := epoch.halfLife.any isZero

/-- Whether samples of a curve are asked for and defined. -/
def Epoch.isDrawn (epoch : Epoch Binary64) (window : Window Binary64) (steps : Int) : Bool :=
  decide (1 ≤ steps) && epoch.definesCurve && window.requested.all isUsable

/-! ## The half-life -/

variable {floor k premium tau : Binary64}

theorem divisor_pos (positive : 0 < premium.position) :
    0 < (larger premium epsilon).position := by
  rw [position_larger (ne_nan_of_pos positive) within_epsilon.ne_nan]
  omega

/-- A decay divided by a time above zero is not negative. -/
theorem nonneg_div {divisor : Binary64} (decay : isUsable k = true)
    (positive : 0 < divisor.position) : 0 ≤ k / divisor := by
  rw [isUsable_iff] at decay
  exact div_nonneg (isFinite_iff.2 ⟨decay.1, by omega⟩) (Int.le_of_lt decay.2.1) positive

theorem pos_of_isUsable (usable : isUsable premium = true) : 0 < premium.position :=
  (isUsable_iff.1 usable).2.1

/-- A half-life is a number, and not a negative one. -/
theorem halfLife_nonneg (decay : isUsable k = true) (positive : 0 < premium.position) :
    0 ≤ k / larger premium epsilon :=
  nonneg_div decay (divisor_pos positive)

/-! ## The ask -/

/-- What the ask divides by, which is zero only at the start of a curve whose half-life vanishes. -/
theorem isZero_askDivisor_iff {time : Binary64} (nonneg : 0 ≤ time) :
    isZero (larger tau 0 + time) = true ↔ isZero time = true ∧ tau ≤ 0 := by
  by_cases number : tau = nan
  · subst number
    have sum : larger nan 0 + time = nan := by
      rw [larger_nan_left]
      rfl
    rw [sum]
    simp [isZero_iff, le_iff]
  · have clamped := le_larger_right number zero_ne_nan
    rw [isZero_add_iff clamped nonneg, isZero_iff, position_larger number zero_ne_nan, le_iff,
      position_zero]
    constructor
    · rintro ⟨⟨_, low⟩, zero⟩
      exact ⟨zero, number, zero_ne_nan, by omega⟩
    · rintro ⟨zero, _, _, low⟩
      exact ⟨⟨larger_ne_nan number 0, by omega⟩, zero⟩

theorem ask_some_of_isZero (zero : isZero (larger tau 0 + k / larger premium epsilon) = true) :
    ask floor k (some premium) tau = .error .divisionByZero := by
  simp only [ask, quotient, zero, if_true]
  rfl

theorem ask_some_of_not_isZero
    (notZero : isZero (larger tau 0 + k / larger premium epsilon) = false) :
    ask floor k (some premium) tau =
      .ok (floor + k / (larger tau 0 + k / larger premium epsilon)) := by
  simp only [ask, quotient, notZero, Bool.false_eq_true, if_false]
  rfl

/-! ## Epochs that define a curve -/

variable {epoch : Epoch Binary64} {window : Window Binary64} {steps : Int}

theorem Epoch.usable_of_definesCurve (defines : epoch.definesCurve = true) :
    epoch.floor.isFinite = true ∧ isUsable epoch.k = true ∧
      ∀ premium, epoch.premiumRate = some premium → isUsable premium = true := by
  simp only [Epoch.definesCurve, Bool.and_eq_true] at defines
  refine ⟨defines.1.1, defines.1.2, fun premium known => ?_⟩
  simpa [known] using defines.2

theorem Epoch.halfLifeVanishes_of_none (unknown : epoch.premiumRate = none) :
    epoch.halfLifeVanishes = false := by
  rw [Epoch.halfLifeVanishes, Epoch.halfLife_of_none unknown]
  rfl

theorem Epoch.halfLifeVanishes_of_some (known : epoch.premiumRate = some premium)
    (usable : isUsable premium = true) :
    epoch.halfLifeVanishes = isZero (epoch.k / larger premium epsilon) := by
  rw [Epoch.halfLifeVanishes, Epoch.halfLife_of_some known usable]
  rfl

theorem isFinite_divisor (usable : isUsable premium = true) :
    (larger premium epsilon).isFinite = true := by
  rw [isUsable_iff] at usable
  have epsilonFinite := isFinite_iff.1 (within_epsilon.isFinite (by decide))
  have position := position_larger usable.1 within_epsilon.ne_nan
  exact isFinite_iff.2 ⟨larger_ne_nan usable.1 _, by omega⟩

/-- The half-life vanishes exactly if the premium is at least `2 ^ 1075` times the decay. -/
theorem halfLifeVanishes_iff (defines : epoch.definesCurve = true)
    (known : epoch.premiumRate = some premium) :
    epoch.halfLifeVanishes = true ↔ 2 * (epoch.k.position * unitsPerOne) ≤ premium.position := by
  obtain ⟨_, decay, usable⟩ := epoch.usable_of_definesCurve defines
  have positive := divisor_pos (pos_of_isUsable (usable premium known))
  have parts := isUsable_iff.1 (usable premium known)
  have position := position_larger parts.1 within_epsilon.ne_nan
  rw [isUsable_iff] at decay
  rw [Epoch.halfLifeVanishes_of_some known (usable premium known),
    isZero_div_iff (isFinite_iff.2 ⟨decay.1, by omega⟩) positive
      (isFinite_divisor (usable premium known)), ← Int.ofNat_le, Int.natCast_mul, Int.natCast_mul,
    Int.natAbs_of_nonneg (Int.le_of_lt decay.2.1), Int.natAbs_of_nonneg (Int.le_of_lt positive),
    position]
  have least : (epsilon : Binary64).position ≤ (unitsPerOne : Int) := by
    rw [unitsPerOne_eq_two_pow rfl]
    exact within_epsilon.upper
  have one : (0 : Int) < unitsPerOne := Int.natCast_pos.2 unitsPerOne_pos
  have product : 1 * (unitsPerOne : Int) ≤ epoch.k.position * unitsPerOne :=
    Int.mul_le_mul_of_nonneg_right decay.2.1 (Int.le_of_lt one)
  omega

/-- The ask of an epoch that defines a curve returns, except at the start where the half-life
vanishes. -/
theorem exists_ask_iff (defines : epoch.definesCurve = true) (tau : Binary64) :
    (∃ price, epoch.askAfter tau = .ok price) ↔ ¬ (epoch.halfLifeVanishes = true ∧ tau ≤ 0) := by
  obtain ⟨_, decay, usable⟩ := epoch.usable_of_definesCurve defines
  cases known : epoch.premiumRate with
  | none =>
    have returned : epoch.askAfter tau = .ok (epoch.floor + epoch.k / larger tau epsilon) := by
      simp only [Epoch.askAfter, ask, known]
    simp [returned, Epoch.halfLifeVanishes_of_none known]
  | some premium =>
    have nonneg := halfLife_nonneg decay (pos_of_isUsable (usable premium known))
    rw [Epoch.halfLifeVanishes_of_some known (usable premium known), ← isZero_askDivisor_iff nonneg,
      Epoch.askAfter, known]
    cases zero : isZero (larger tau 0 + epoch.k / larger premium epsilon) with
    | true => simp [ask_some_of_isZero zero]
    | false => simp [ask_some_of_not_isZero zero]

/-! ## The window -/

/-- The window returns, unless half-lives are to be counted and there are infinitely many. -/
theorem exists_bound_iff :
    (∃ bound, window.bound epoch = .ok bound) ↔
      ¬ (epoch.halfLifeVanishes = true ∧ window.requested = none) := by
  cases known : epoch.premiumRate with
  | none =>
    simp [Window.bound_of_none known, Epoch.halfLifeVanishes_of_none known]
  | some premium =>
    have split := @Window.bound_of_some _ _ epoch window _ known
    cases asked : window.requested with
    | some requested => simp [split, Window.endHalfLives, asked, Except.map]
    | none =>
      cases half : epoch.halfLife with
      | none => simp [split, Window.endHalfLives, asked, half, Epoch.halfLifeVanishes, Except.map]
      | some halfLife =>
        cases zero : isZero halfLife with
        | true =>
          simp [split, Window.endHalfLives, asked, half, Epoch.halfLifeVanishes, zero, quotient,
            Except.map, bind, Except.bind]
        | false =>
          simp [split, Window.endHalfLives, asked, half, Epoch.halfLifeVanishes, zero, quotient,
            Except.map, bind, Except.bind, pure, Except.pure]

/-- An end that was asked for is the end, where half-lives are counted. -/
theorem bound_of_requested {requested : Binary64} (known : epoch.premiumRate = some premium)
    (asked : window.requested = some requested) (usable : isUsable requested = true) :
    window.bound epoch = .ok (some requested) := by
  rw [Window.bound_of_some known, Window.endHalfLives, asked]
  exact congrArg Except.ok (Option.filter_eq_some_iff.2 ⟨rfl, usable⟩)

/-! ## Samples -/

theorem exists_sampleAt_iff {u : Binary64} :
    (∃ point, epoch.sampleAt u = .ok point) ↔
      ∃ price, epoch.askAfter (u * epoch.unitSeconds) = .ok price := by
  rw [Epoch.sampleAt]
  cases epoch.askAfter (u * epoch.unitSeconds) <;> simp [bind, Except.bind, pure, Except.pure]

/-- The first sample stands at the start. -/
theorem isZero_sampleOffset_zero {bound : Binary64} {count : Nat} (usable : isUsable bound = true)
    (positive : 0 < count) (countFinite : (Nat.cast count : Binary64).isFinite = true) :
    isZero (Epoch.sampleOffset bound count 0) = true := by
  have boundFinite : bound.isFinite = true := by
    have parts := isUsable_iff.1 usable
    exact isFinite_iff.2 ⟨parts.1, by omega⟩
  have countPositive : 0 < (Nat.cast count : Binary64).position :=
    Int.lt_of_lt_of_le (Int.natCast_pos.2 unitsPerOne_pos) (unitsPerOne_le_position_natCast positive)
  rw [Epoch.sampleOffset, if_neg (Nat.ne_of_lt positive)]
  exact isZero_div
    (isZero_mul boundFinite (isFinite_of_isZero isZero_natCast_zero) (.inr isZero_natCast_zero))
    countPositive countFinite

/-- Where the half-life vanishes, an offset is worth no time. -/
theorem isZero_unitSeconds (vanishes : epoch.halfLifeVanishes = true) :
    isZero epoch.unitSeconds = true := by
  cases half : epoch.halfLife with
  | none => simp [Epoch.halfLifeVanishes, half] at vanishes
  | some halfLife =>
    have known : ∃ premium, epoch.premiumRate = some premium := by
      cases unknown : epoch.premiumRate with
      | none => rw [Epoch.halfLife_of_none unknown] at half; cases half
      | some premium => exact ⟨premium, rfl⟩
    obtain ⟨premium, known⟩ := known
    simpa [Epoch.halfLifeVanishes, Epoch.unitSeconds, known, half] using vanishes

theorem samplesUpTo_of_not_vanishes (defines : epoch.definesCurve = true)
    (lasting : epoch.halfLifeVanishes = false) (bound : Binary64) {count : Nat}
    (countFinite : (Nat.cast count : Binary64).isFinite = true) :
    ∃ points, epoch.samplesUpTo bound count = .ok points := by
  rw [Epoch.samplesUpTo, isFinite_eq, countFinite, if_pos rfl]
  refine exists_mapM_ok fun index _ => ?_
  rw [exists_sampleAt_iff, exists_ask_iff defines]
  simp [lasting]

/-- The first sample is at the start, where the ask divides by the half-life alone. -/
theorem samplesUpTo_of_vanishes (defines : epoch.definesCurve = true)
    (vanishes : epoch.halfLifeVanishes = true) {bound : Binary64} (usable : isUsable bound = true)
    {count : Nat} (positive : 0 < count) :
    ∃ error, epoch.samplesUpTo bound count = .error error := by
  cases countFinite : (Nat.cast count : Binary64).isFinite with
  | false =>
    rw [Epoch.samplesUpTo, isFinite_eq, countFinite]
    exact ⟨.countTooGreat, rfl⟩
  | true =>
    have start : isZero (Epoch.sampleOffset bound count 0 * epoch.unitSeconds) = true := by
      have offset := isZero_sampleOffset_zero usable positive countFinite
      have unit := isZero_unitSeconds vanishes
      exact isZero_mul (isFinite_of_isZero offset) (isFinite_of_isZero unit) (.inl offset)
    have atStart : Epoch.sampleOffset bound count 0 * epoch.unitSeconds ≤ 0 := by
      rw [isZero_iff] at start
      exact le_iff.2 ⟨start.1, zero_ne_nan, Int.le_of_eq start.2⟩
    have failed : ¬ ∃ point, epoch.sampleAt (Epoch.sampleOffset bound count 0) = .ok point := by
      rw [exists_sampleAt_iff, exists_ask_iff defines]
      exact fun returns => returns ⟨vanishes, atStart⟩
    cases first : epoch.sampleAt (Epoch.sampleOffset bound count 0) with
    | ok point => exact absurd ⟨point, first⟩ failed
    | error error =>
      rw [Epoch.samplesUpTo, isFinite_eq, countFinite, if_pos rfl, List.range_succ_eq_map]
      exact ⟨error, mapM_cons_error first⟩

theorem samplesUpTo_of_infinite_count {bound : Binary64} {count : Nat}
    (countInfinite : (Nat.cast count : Binary64).isFinite = false) :
    epoch.samplesUpTo bound count = .error .countTooGreat := by
  rw [Epoch.samplesUpTo, isFinite_eq, countInfinite, if_neg Bool.false_ne_true]

theorem not_isDrawn_eq : (!epoch.isDrawn window steps) =
    (decide (steps < 1) || !epoch.definesCurve || !window.requested.all isUsable) := by
  have few : decide (steps < 1) = !decide (1 ≤ steps) := by
    rw [← decide_not]
    exact decide_eq_decide.2 (by omega)
  rw [few, Epoch.isDrawn, Bool.not_and, Bool.not_and]

theorem samples_of_not_isDrawn (undrawn : epoch.isDrawn window steps = false) :
    epoch.samples window steps = .ok [] := by
  rw [Epoch.samples, ← not_isDrawn_eq, undrawn, Bool.not_false, if_pos rfl]
  rfl

theorem samples_of_isDrawn (drawn : epoch.isDrawn window steps = true) :
    epoch.samples window steps = (window.bound epoch).bind fun
      | none => .ok []
      | some bound => epoch.samplesUpTo bound steps.toNat := by
  rw [Epoch.samples, ← not_isDrawn_eq, drawn, Bool.not_true, if_neg Bool.false_ne_true]
  cases window.bound epoch with
  | error error => rfl
  | ok bound => cases bound <;> rfl

theorem samples_of_bound_none (drawn : epoch.isDrawn window steps = true)
    (found : window.bound epoch = .ok none) : epoch.samples window steps = .ok [] := by
  rw [samples_of_isDrawn drawn, found, Outcome.ok_bind]

theorem samples_of_bound_some {bound : Binary64} (drawn : epoch.isDrawn window steps = true)
    (found : window.bound epoch = .ok (some bound)) :
    epoch.samples window steps = epoch.samplesUpTo bound steps.toNat := by
  rw [samples_of_isDrawn drawn, found, Outcome.ok_bind]

theorem samples_of_bound_error {error : ArithmeticError}
    (drawn : epoch.isDrawn window steps = true) (failed : window.bound epoch = .error error) :
    epoch.samples window steps = .error error := by
  rw [samples_of_isDrawn drawn, failed, Outcome.error_bind]

theorem Epoch.definesCurve_of_isDrawn (drawn : epoch.isDrawn window steps = true) :
    1 ≤ steps ∧ epoch.definesCurve = true ∧ window.requested.all isUsable = true := by
  simp only [Epoch.isDrawn, Bool.and_eq_true, decide_eq_true_eq] at drawn
  exact ⟨drawn.1.1, drawn.1.2, drawn.2⟩

/-- Whether segments are to be counted that are more than the finite values. -/
def Epoch.overcounts (epoch : Epoch Binary64) (window : Window Binary64) (steps : Int) : Prop :=
  (∃ bound, window.bound epoch = .ok (some bound)) ∧
    (Nat.cast steps.toNat : Binary64).isFinite = false

theorem samples_error_of_vanishes (drawn : epoch.isDrawn window steps = true)
    (vanishes : epoch.halfLifeVanishes = true) :
    ∃ error, epoch.samples window steps = .error error := by
  obtain ⟨many, defines, requests⟩ := Epoch.definesCurve_of_isDrawn drawn
  cases asked : window.requested with
  | none =>
    have failed : ¬ ∃ bound, window.bound epoch = .ok bound := by
      rw [exists_bound_iff]
      exact fun returns => returns ⟨vanishes, asked⟩
    cases found : window.bound epoch with
    | ok bound => exact absurd ⟨bound, found⟩ failed
    | error error => exact ⟨error, samples_of_bound_error drawn found⟩
  | some requested =>
    have usable : isUsable requested = true := by simpa [asked] using requests
    obtain ⟨premium, known⟩ : ∃ premium, epoch.premiumRate = some premium := by
      cases known : epoch.premiumRate with
      | none => rw [Epoch.halfLifeVanishes_of_none known] at vanishes; cases vanishes
      | some premium => exact ⟨premium, rfl⟩
    rw [samples_of_bound_some drawn (bound_of_requested known asked usable)]
    exact samplesUpTo_of_vanishes defines vanishes usable (by omega)

theorem samples_ok_of_lasting (drawn : epoch.isDrawn window steps = true)
    (lasting : epoch.halfLifeVanishes = false) (counted : ¬ epoch.overcounts window steps) :
    ∃ points, epoch.samples window steps = .ok points := by
  obtain ⟨many, defines, _⟩ := Epoch.definesCurve_of_isDrawn drawn
  obtain ⟨bound, found⟩ : ∃ bound, window.bound epoch = .ok bound := by
    rw [exists_bound_iff, lasting]
    simp
  cases bound with
  | none => exact ⟨[], samples_of_bound_none drawn found⟩
  | some bound =>
    have countFinite : (Nat.cast steps.toNat : Binary64).isFinite = true := by
      rw [← Bool.not_eq_false]
      exact fun infinite => counted ⟨⟨bound, found⟩, infinite⟩
    rw [samples_of_bound_some drawn found]
    exact samplesUpTo_of_not_vanishes defines lasting bound countFinite

theorem samples_error_of_overcounts (drawn : epoch.isDrawn window steps = true)
    (overcounts : epoch.overcounts window steps) :
    epoch.samples window steps = .error .countTooGreat := by
  obtain ⟨⟨bound, found⟩, infinite⟩ := overcounts
  rw [samples_of_bound_some drawn found]
  exact samplesUpTo_of_infinite_count infinite

/-- Samples fail where they are asked for and the half-life vanishes, or their number is beyond the
finite values. -/
theorem exists_samples_iff :
    (∃ points, epoch.samples window steps = .ok points) ↔
      ¬ (epoch.isDrawn window steps = true ∧
        (epoch.halfLifeVanishes = true ∨ epoch.overcounts window steps)) := by
  cases drawn : epoch.isDrawn window steps with
  | false => simp [samples_of_not_isDrawn drawn]
  | true =>
    constructor
    · rintro ⟨points, sampled⟩ ⟨_, vanishes | overcounts⟩
      · obtain ⟨error, failed⟩ := samples_error_of_vanishes drawn vanishes
        rw [sampled] at failed
        cases failed
      · rw [samples_error_of_overcounts drawn overcounts] at sampled
        cases sampled
    · intro returns
      exact samples_ok_of_lasting drawn
        (Bool.eq_false_iff.2 fun vanishes => returns ⟨rfl, .inl vanishes⟩)
        (fun overcounts => returns ⟨rfl, .inr overcounts⟩)

/-- Where there are samples, there is an end of the window. -/
theorem exists_bound_of_samples_ne_nil {points : List (Point Binary64)}
    (sampled : epoch.samples window steps = .ok points) (nonempty : points ≠ []) :
    ∃ bound, window.bound epoch = .ok (some bound) := by
  cases drawn : epoch.isDrawn window steps with
  | false =>
    rw [samples_of_not_isDrawn drawn] at sampled
    exact absurd (Except.ok.inj sampled).symm nonempty
  | true =>
    cases found : window.bound epoch with
    | error error =>
      rw [samples_of_bound_error drawn found] at sampled
      cases sampled
    | ok bound =>
      cases bound with
      | some bound => exact ⟨bound, rfl⟩
      | none =>
        rw [samples_of_bound_none drawn found] at sampled
        exact absurd (Except.ok.inj sampled).symm nonempty

/-! ## The ask and the floor -/

variable {floor k tau price : Binary64} {epoch : Epoch Binary64}

/-- The time since the start of an epoch is a number, and not a negative one. -/
theorem elapsed_nonneg (epoch : Epoch Binary64) : 0 ≤ epoch.elapsed := by
  unfold Epoch.elapsed
  split
  · exact nonneg_larger_zero _
  · exact le_refl zero_ne_nan

/-- Whenever an ask is returned, be it before the start, it is no less than the floor. -/
theorem floor_le_ask {premiumRate : Option Binary64} (number : floor ≠ nan)
    (high : floor ≠ infinity true) (decay : isUsable k = true)
    (positive : ∀ premium, premiumRate = some premium → 0 < premium.position) (timed : tau ≠ nan)
    (returned : ask floor k premiumRate tau = .ok price) : floor ≤ price := by
  cases premiumRate with
  | none =>
    have divisor : 0 < (larger tau epsilon).position := by
      rw [position_larger timed within_epsilon.ne_nan]
      have least := within_epsilon.pos
      omega
    cases returned
    exact le_add_of_nonneg number high (nonneg_div decay divisor)
  | some premium =>
    have clamped : 0 ≤ larger tau 0 := le_larger_right timed zero_ne_nan
    have sum := nonneg_add clamped (halfLife_nonneg decay (positive premium rfl))
    cases zero : isZero (larger tau 0 + k / larger premium epsilon) with
    | true =>
      rw [ask_some_of_isZero zero] at returned
      cases returned
    | false =>
      rw [ask_some_of_not_isZero zero] at returned
      cases returned
      exact le_add_of_nonneg number high (nonneg_div decay (pos_of_nonneg_of_not_isZero sum zero))

/-- The ask of an epoch that defines a curve is no less than its floor. -/
theorem floor_le_askAfter (defines : epoch.definesCurve = true) (nonneg : 0 ≤ tau)
    (returned : epoch.askAfter tau = .ok price) : epoch.floor ≤ price := by
  obtain ⟨floorFinite, decay, usable⟩ := epoch.usable_of_definesCurve defines
  exact floor_le_ask (isFinite_iff.1 floorFinite).1 (ne_infinity_of_isFinite floorFinite true) decay
    (fun premium known => pos_of_isUsable (usable premium known)) (ne_nan_of_le nonneg).2 returned

end HyperbolicAuction
