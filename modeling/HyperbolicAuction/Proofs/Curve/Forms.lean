import HyperbolicAuction.Proofs.Curve.Exact
import Mathlib.Algebra.Order.Group.MinMax

/-!
# The forms of an ask

In exact arithmetic the ask can be read in four ways: by half-lives passed, by seconds passed, by the
moment at which it is asked for, and by the distance of that moment from the anchor. All of them are
one hyperbola. It stands still up to an onset, which is the start of the epoch or, without a premium,
the least time that is divided by later; from there on it falls strictly.

A premium below the least divisor is taken for that divisor by the half-life and by the ask alike, so
the forms agree for it as well.

Main statements: `price_halfLives`, `askAt_of_some`, `askAt_of_none`, `ask_forms`.
-/

namespace HyperbolicAuction

open Scalar Exact

/-- From an onset on, the ask follows the hyperbola around the anchor; before, it is that of the
onset. -/
structure Epoch.FollowsAnchor (epoch : Epoch ℚ) (onset : ℚ) : Prop where
  asSeen : ∀ time, epoch.askAt time = (epoch.withNow time).askNow
  anchored : ∀ time, onset ≤ time →
    epoch.askAt time = .ok (epoch.floor + epoch.k / (time - epoch.anchor))
  level : ∀ time, time < onset → epoch.askAt time = epoch.askAt onset
  falls : ∀ time later, onset ≤ time → time < later →
    ∃ price lower, epoch.askAt time = .ok price ∧ epoch.askAt later = .ok lower ∧ lower < price

variable {epoch : Epoch ℚ} {premium : ℚ}

/-! ## By half-lives -/

theorem halfLife_pos (decay : 0 < epoch.k) (premium : ℚ) : 0 < epoch.k / max premium epsilon :=
  div_pos decay (divisor_pos premium)

/-- Some half-lives after the start, the premium is divided by one more than their number. -/
theorem price_halfLives (decay : 0 < epoch.k) (known : epoch.premiumRate = some premium) {u : ℚ}
    (nonneg : 0 ≤ u) :
    epoch.price (u * (epoch.k / max premium epsilon)) =
      epoch.floor + max premium epsilon / (u + 1) := by
  have divides := divisor_pos premium
  have afterStart : 0 ≤ u * (epoch.k / max premium epsilon) :=
    mul_nonneg nonneg (halfLife_pos decay premium).le
  have parts : u * (epoch.k / max premium epsilon) + epoch.k / max premium epsilon =
      (u + 1) * epoch.k / max premium epsilon := by ring
  rw [price_of_some known, max_eq_left afterStart, parts]
  field_simp

/-! ## By the moment -/

theorem anchor_of_some (known : epoch.premiumRate = some premium) (positive : 0 < premium) :
    epoch.anchor = epoch.startTime - epoch.k / max premium epsilon := by
  unfold Epoch.anchor
  rw [halfLife_of_some known positive]
  exact if_neg (by simp [isFinite])

theorem anchor_of_none (unknown : epoch.premiumRate = none) : epoch.anchor = epoch.startTime := by
  unfold Epoch.anchor Epoch.halfLife
  rw [unknown]
  rfl

theorem askAt_eq_price (decay : 0 < epoch.k) (time : ℚ) :
    epoch.askAt time = .ok (epoch.price (max 0 (time - epoch.startTime))) := by
  unfold Epoch.askAt
  rw [askAfter_eq decay, larger_eq_max]

theorem askAt_eq_askNow (epoch : Epoch ℚ) (time : ℚ) :
    epoch.askAt time = (epoch.withNow time).askNow := by
  unfold Epoch.askNow
  rw [elapsed_eq]
  unfold Epoch.askAt
  rw [larger_eq_max]
  rfl

theorem max_zero_sub (time start : ℚ) : max 0 (time - start) = max time start - start := by
  rw [← max_sub_sub_right, sub_self, max_comm]

/-- With a premium the anchor lies one half-life before the start. -/
theorem askAt_of_some (decay : 0 < epoch.k) (known : epoch.premiumRate = some premium)
    (positive : 0 < premium) (time : ℚ) :
    epoch.askAt time =
      .ok (epoch.floor + epoch.k / (max time epoch.startTime - epoch.anchor)) := by
  have passed : 0 ≤ max 0 (time - epoch.startTime) := le_max_left _ _
  rw [askAt_eq_price decay, price_of_some known, max_eq_left passed, max_zero_sub,
    anchor_of_some known positive, sub_sub_eq_add_sub, sub_add_eq_add_sub]

/-- Without a premium the anchor is the start, and the least divisor has to have passed. -/
theorem askAt_of_none (decay : 0 < epoch.k) (unknown : epoch.premiumRate = none) (time : ℚ) :
    epoch.askAt time =
      .ok (epoch.floor + epoch.k / (max time (epoch.startTime + epsilon) - epoch.anchor)) := by
  have passed : max (max 0 (time - epoch.startTime)) epsilon =
      max time (epoch.startTime + epsilon) - epoch.startTime := by
    rw [← max_sub_sub_right, add_sub_cancel_left, max_comm 0, max_assoc,
      max_eq_right epsilon_pos.le]
  rw [askAt_eq_price decay, price_of_none unknown, passed, anchor_of_none unknown]

/-- Divided by the time since the anchor, and by no less than at the onset, the ask falls from the
onset on and nowhere before. -/
theorem followsAnchor_of_askAt_eq {onset : ℚ} (decay : 0 < epoch.k) (after : epoch.anchor < onset)
    (asked : ∀ time, epoch.askAt time =
      .ok (epoch.floor + epoch.k / (max time onset - epoch.anchor))) :
    epoch.FollowsAnchor onset := by
  have anchored (time : ℚ) (begun : onset ≤ time) :
      epoch.askAt time = .ok (epoch.floor + epoch.k / (time - epoch.anchor)) := by
    rw [asked, max_eq_left begun]
  refine ⟨askAt_eq_askNow epoch, anchored, ?_, ?_⟩
  · intro time early
    rw [asked, asked, max_eq_right early.le, max_self]
  · intro time later begun less
    refine ⟨_, _, anchored time begun, anchored later (begun.trans less.le), ?_⟩
    have distance : 0 < time - epoch.anchor := sub_pos.2 (after.trans_le begun)
    have quotients : epoch.k / (later - epoch.anchor) < epoch.k / (time - epoch.anchor) :=
      div_lt_div_of_pos_left decay distance (sub_lt_sub_right less _)
    exact add_lt_add_right quotients epoch.floor

/-- By half-lives, by seconds, by moments and by the distance from the anchor the ask is the same. It
falls strictly from the start on, without a premium from the least divisor after the start on, and is
level before. -/
theorem ask_forms (decay : 0 < epoch.k) :
    (∀ premium, epoch.premiumRate = some premium → 0 < premium →
      ∃ halfLife, epoch.halfLife = some halfLife ∧
        (∀ u, 0 ≤ u → epoch.askAfter (u * halfLife) =
          .ok (epoch.floor + max premium epsilon / (u + 1))) ∧
        epoch.askAfter 0 = .ok (epoch.floor + max premium epsilon) ∧
        epoch.askAfter halfLife = .ok (epoch.floor + max premium epsilon / 2) ∧
        epoch.FollowsAnchor epoch.startTime) ∧
    (epoch.premiumRate = none →
      epoch.anchor = epoch.startTime ∧ epoch.FollowsAnchor (epoch.startTime + epsilon)) := by
  constructor
  · intro premium known positive
    have byHalfLives (u : ℚ) (nonneg : 0 ≤ u) :
        epoch.askAfter (u * (epoch.k / max premium epsilon)) =
          .ok (epoch.floor + max premium epsilon / (u + 1)) := by
      rw [askAfter_eq decay, price_halfLives decay known nonneg]
    have anchorBefore : epoch.anchor < epoch.startTime := by
      rw [anchor_of_some known positive]
      exact sub_lt_self _ (halfLife_pos decay premium)
    refine ⟨_, halfLife_of_some known positive, byHalfLives, ?_, ?_, ?_⟩
    · have atStart := byHalfLives 0 (le_refl 0)
      rwa [zero_mul, zero_add, div_one] at atStart
    · have atOne := byHalfLives 1 zero_le_one
      rwa [one_mul, one_add_one_eq_two] at atOne
    · exact followsAnchor_of_askAt_eq decay anchorBefore (askAt_of_some decay known positive)
  · intro unknown
    have anchorAtStart := anchor_of_none unknown
    refine ⟨anchorAtStart, followsAnchor_of_askAt_eq decay ?_ (askAt_of_none decay unknown)⟩
    rw [anchorAtStart]
    exact lt_add_of_pos_right _ epsilon_pos

/-- An epoch of a premium that is less than what is divided by. -/
def faintEpoch : Epoch ℚ where
  index := 2
  floor := 4
  k := 3
  premiumRate := some (1 / 1000000000000)
  startTime := 10
  nowTime := 10

theorem ask_forms_faint :
    0 < faintEpoch.k ∧ faintEpoch.halfLife = some 3000000000 ∧
      faintEpoch.askAfter 3000000000 = .ok (4 + 1 / 2000000000) ∧
      faintEpoch.FollowsAnchor 10 := by
  have decay : 0 < faintEpoch.k := by decide +kernel
  have half : faintEpoch.halfLife = some 3000000000 := by decide +kernel
  obtain ⟨halfLife, found, -, -, atOne, follows⟩ :=
    (ask_forms decay).1 (1 / 1000000000000) rfl (by norm_num)
  rw [half, Option.some.injEq] at found
  subst found
  refine ⟨decay, half, ?_, follows⟩
  rw [atOne]
  decide +kernel

end HyperbolicAuction
