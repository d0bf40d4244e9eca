import HyperbolicAuction.Proofs.Auction.Ratchet
import HyperbolicAuction.Proofs.Snapshot.Coherence

/-!
# Premiums of live epochs

Where something accrues, every sale opens an epoch with a premium of at least what accrues in a
second, whatever the times of the sales: times that coincide, run backwards, lie before the opening
or are no numbers count as one second. So a sale of a finite price is never followed by a dead curve,
except where the premium overflows. The genesis epoch carries the premium of its configuration, which
is usable wherever there is one.

Main statement: `sale_keeps_curve`.
-/

namespace HyperbolicAuction

open Binary64 Scalar

variable {config : Config Binary64} {sales : List (Sale Binary64)} {epoch : Epoch Binary64}
  {accrual now : Binary64}

/-! ## Premiums -/

/-- The epoch that the last sale opened starts at its price. Its premium, if it has one, is at least
what accrues in a second. -/
theorem exists_liveEpoch_of_accrual (accrues : config.accrual = some accrual)
    (positive : 0 < accrual.position) (nonempty : sales ≠ []) (now : Binary64) :
    ∃ epoch, liveEpoch config sales now = some epoch ∧ epoch.k = config.k ∧
      (∃ sale ∈ sales, epoch.floor = sale.price) ∧
      ∀ premium, epoch.premiumRate = some premium → accrual ≤ premium := by
  rcases liveEpoch_cases config sales now with ⟨empty, _⟩ | ⟨last, isSale, prior, _, opened⟩
  · exact absurd empty nonempty
  · refine ⟨_, opened, rfl, ⟨last, isSale, rfl⟩, ?_⟩
    intro premium known
    unfold Epoch.afterSale at known
    rw [accrues] at known
    cases prior with
    | none => cases known
    | some prior =>
      cases known
      exact le_accrual_mul positive (last.time - prior)

theorem premiumRate_of_genesisEpoch (live : config.genesisEpoch now = some epoch) :
    epoch.premiumRate = config.genesisPremium ∧ epoch.k = config.k ∧
      epoch.floor.isFinite = true ∧
      ∃ premium, epoch.premiumRate = some premium ∧ isUsable premium = true := by
  obtain ⟨openTime, price, floor, _, priced, floored, usable, rfl⟩ := genesisEpoch_cases live
  refine ⟨?_, rfl, isFinite_of_isFinite_sub (isUsable_eq_true_iff.1 usable).1, _, rfl, usable⟩
  unfold Config.genesisPremium
  rw [priced, floored]
  exact (if_pos usable).symm

/-! ## Faults -/

/-- With a usable decay, a finite floor and no premium but above zero, all that can be at fault is a
premium that overflows. -/
theorem fault?_of_positive (decay : isUsable epoch.k = true)
    (floorFinite : epoch.floor.isFinite = true)
    (positive : ∀ premium, epoch.premiumRate = some premium → 0 < premium) :
    epoch.fault? =
      if epoch.premiumRate = some (infinity false) then some .premiumNotFinite else none := by
  obtain ⟨decayFinite, decayPositive⟩ := isUsable_eq_true_iff.1 decay
  have notLow : ¬ epoch.k ≤ 0 := fun low => not_lt_of_le low decayPositive
  unfold Epoch.fault?
  simp only [isFinite_eq, decayFinite, floorFinite, notLow, Bool.not_true, Bool.false_eq_true,
    if_false]
  cases known : epoch.premiumRate with
  | none => rfl
  | some premium =>
    have above := positive premium known
    have notBelow : ¬ premium ≤ 0 := fun low => not_lt_of_le low above
    rcases infinity_or_finite_of_pos (lt_iff.1 above).2.2 with
      rfl | ⟨units, representable, rfl⟩
    · rfl
    · simp [Binary64.isFinite, notBelow]

namespace Snapshot

variable {settings : Settings Binary64} {requested : Option Binary64} {asked : Option Int}
  {snapshot : Snapshot Binary64}

/-- An evaluation of such an epoch is refused exactly if the premium overflows, and says so. -/
theorem invalidConfig_iff_of_positive (decay : isUsable epoch.k = true)
    (floorFinite : epoch.floor.isFinite = true)
    (positive : ∀ premium, epoch.premiumRate = some premium → 0 < premium)
    (returned : ofEpoch settings epoch requested asked = .ok snapshot) :
    (snapshot.status = .invalidConfig ↔ epoch.premiumRate = some (infinity false)) ∧
      (snapshot.status = .invalidConfig → snapshot.reason = some "premium rate not finite") := by
  have fault := fault?_of_positive decay floorFinite positive
  by_cases overflows : epoch.premiumRate = some (infinity false)
  · rw [if_pos overflows] at fault
    unfold ofEpoch at returned
    rw [fault] at returned
    cases returned
    exact ⟨iff_of_true rfl overflows, fun _ => rfl⟩
  · rw [if_neg overflows] at fault
    have valid : snapshot.status ≠ .invalidConfig := fun refused =>
      (ofEpoch_coherent returned).1.1 refused fault
    exact ⟨iff_of_false valid overflows, fun refused => absurd refused valid⟩

end Snapshot

/-! ## Evaluations -/

/-- Whatever the times of the sales, the premium after one is at least what accrues in a second, and an
evaluation is refused for no other reason than that this premium overflows. Without sales the premium is
the one of the configuration, finite and above zero, and an evaluation is not refused. -/
theorem sale_keeps_curve (config : Config Binary64) (now : Binary64) :
    (∀ accrual sales, isUsable config.k = true → config.accrual = some accrual →
      isUsable accrual = true → sales ≠ [] → (∀ sale ∈ sales, sale.price.isFinite = true) →
      ∃ epoch, liveEpoch config sales now = some epoch ∧
        (∀ premium, epoch.premiumRate = some premium → accrual ≤ premium ∧ 0 < premium) ∧
        ∀ settings requested asked snapshot,
          Snapshot.ofAuction settings (some config) sales now requested asked = .ok snapshot →
            (snapshot.status = .invalidConfig ↔ epoch.premiumRate = some (infinity false)) ∧
            (snapshot.status = .invalidConfig →
              snapshot.reason = some "premium rate not finite")) ∧
    (∀ epoch, liveEpoch config [] now = some epoch →
      epoch.premiumRate = config.genesisPremium ∧
      ∃ premium, epoch.premiumRate = some premium ∧ premium.isFinite = true ∧ 0 < premium) ∧
    ∀ settings requested asked snapshot, isUsable config.k = true →
      Snapshot.ofAuction settings (some config) [] now requested asked = .ok snapshot →
        snapshot.status ≠ .invalidConfig := by
  refine ⟨?_, ?_, ?_⟩
  · intro accrual sales decay accrues usable nonempty priced
    obtain ⟨epoch, live, sameDecay, ⟨sale, isSale, floor⟩, least⟩ :=
      exists_liveEpoch_of_accrual accrues (isUsable_iff.1 usable).2.1 nonempty now
    have positive (premium : Binary64) (known : epoch.premiumRate = some premium) :
        0 < premium :=
      Binary64.lt_of_lt_of_le (isUsable_eq_true_iff.1 usable).2 (least premium known)
    refine ⟨epoch, live, fun premium known => ⟨least premium known, positive premium known⟩, ?_⟩
    intro settings requested asked snapshot returned
    rw [ofAuction_of_liveEpoch live] at returned
    rw [← sameDecay] at decay
    exact Snapshot.invalidConfig_iff_of_positive decay (floor ▸ priced sale isSale) positive returned
  · intro epoch live
    rw [liveEpoch_nil] at live
    obtain ⟨same, _, _, premium, known, usable⟩ := premiumRate_of_genesisEpoch live
    exact ⟨same, premium, known, isUsable_eq_true_iff.1 usable⟩
  · intro settings requested asked snapshot decay returned refused
    cases live : liveEpoch config [] now with
    | none =>
      rw [ofAuction_of_no_liveEpoch live] at returned
      cases returned
      cases refused
    | some epoch =>
      rw [ofAuction_of_liveEpoch live] at returned
      rw [liveEpoch_nil] at live
      obtain ⟨_, sameDecay, floorFinite, premium, known, usable⟩ := premiumRate_of_genesisEpoch live
      rw [← sameDecay] at decay
      have defines : epoch.definesCurve = true := by
        simp [Epoch.definesCurve, isFinite_eq, floorFinite, decay, known, usable]
      exact (ofEpoch_coherent returned).1.1 refused (fault?_eq_none_iff.2 defines)

/-- One sale, at the end of all time. -/
def endlessSales : List (Sale Binary64) := [{ time := infinity false, price := ofNat 9 }]

/-- The epoch that it opens. -/
def endlessEpoch : Epoch Binary64 where
  index := 2
  floor := ofNat 9
  k := ofNat 100
  premiumRate := some (infinity false)
  startTime := infinity false
  nowTime := 0

theorem sale_keeps_curve_endless :
    (∃ snapshot, liveEpoch openingConfig endlessSales 0 = some endlessEpoch ∧
      Snapshot.ofAuction .standard (some openingConfig) endlessSales 0 none none = .ok snapshot ∧
      snapshot.status = .invalidConfig ∧ snapshot.reason = some "premium rate not finite") ∧
    ∃ epoch, liveEpoch openingConfig [] 0 = some epoch ∧
      epoch.premiumRate = openingConfig.genesisPremium := by
  obtain ⟨afterSale, genesis, -⟩ := sale_keeps_curve openingConfig 0
  constructor
  · have opened : liveEpoch openingConfig endlessSales 0 = some endlessEpoch :=
      (@liveEpoch_append openingConfig [] _ (List.pairwise_singleton ..) 0).trans (by decide +kernel)
    obtain ⟨epoch, live, -, refused⟩ := afterSale (ofNat 2) endlessSales (by decide +kernel) rfl
      (by decide +kernel) (List.cons_ne_nil _ _) (by decide +kernel)
    obtain rfl := Option.some.inj (opened.symm.trans live)
    obtain ⟨snapshot, evaluated⟩ : ∃ snapshot,
        Snapshot.ofEpoch .standard endlessEpoch none none = .ok snapshot :=
      Outcome.exists_of_toBool (by decide +kernel)
    have returned := (ofAuction_of_liveEpoch opened).trans evaluated
    obtain ⟨status, reason⟩ := refused .standard none none snapshot returned
    exact ⟨snapshot, opened, returned, status.2 rfl, reason (status.2 rfl)⟩
  · obtain ⟨epoch, begun⟩ : ∃ epoch, openingConfig.genesisEpoch 0 = some epoch :=
      Option.isSome_iff_exists.1 (by decide +kernel)
    have live := (liveEpoch_nil openingConfig 0).trans begun
    exact ⟨epoch, live, (genesis epoch live).1⟩

end HyperbolicAuction
