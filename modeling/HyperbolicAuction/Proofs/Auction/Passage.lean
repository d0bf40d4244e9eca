import HyperbolicAuction.Proofs.Auction.Ratchet
import HyperbolicAuction.Proofs.Curve.Decay
import HyperbolicAuction.Proofs.Curve.Shared

/-!
# Time only lowers the ask

The moment at which an auction is evaluated says how much time has passed and nothing else: the live
epoch is the same but for that moment, and so are its half-life, its anchor, and the samples of a
window that is asked for in half-lives. The ask falls as time passes, and never below the floor.

`liveEpoch_later` says that the live epoch is seen at different moments, and `ofEpoch_later` what two
evaluations of one epoch have in common.

Main statement: `ofAuction_later`.
-/

namespace HyperbolicAuction

open Binary64 Scalar

variable {settings : Settings Binary64} {config : Config Binary64} {sales : List (Sale Binary64)}
  {requested : Option Binary64} {asked : Option Int} {earlier later : Binary64}
  {epoch : Epoch Binary64} {first second : Snapshot Binary64}

/-! ## One epoch, seen at two moments -/

theorem genesisEpoch_later (config : Config Binary64) (earlier later : Binary64) :
    config.genesisEpoch later = (config.genesisEpoch earlier).map (·.withNow later) := by
  unfold Config.genesisEpoch
  cases config.genesisPremium with
  | none => rfl
  | some premium =>
    cases config.genesisFloor with
    | none => rfl
    | some floor =>
      cases config.genesisPrice with
      | none => rfl
      | some price =>
        cases config.openTime with
        | none => rfl
        | some openTime => rfl

/-- The live epoch of one moment is that of another, seen at the one. -/
theorem liveEpoch_later (config : Config Binary64) (sales : List (Sale Binary64))
    (earlier later : Binary64) :
    liveEpoch config sales later = (liveEpoch config sales earlier).map (·.withNow later) := by
  unfold liveEpoch
  cases (Sale.inOrder sales).reverse with
  | nil => exact genesisEpoch_later config earlier later
  | cons last rest => rfl

/-- The live epoch is seen at the moment it is derived for. -/
theorem withNow_of_liveEpoch (live : liveEpoch config sales earlier = some epoch) :
    epoch.withNow earlier = epoch := by
  have seen := liveEpoch_later config sales earlier earlier
  rw [live] at seen
  exact (Option.some.inj seen).symm

/-- The premium that a snapshot shows is not negative, since its ask is no lower than the floor. -/
theorem exists_premium (defines : epoch.definesCurve = true)
    (returned : Snapshot.ofEpoch settings epoch requested asked = .ok first) :
    ∃ premium, first.premium? = some premium ∧ 0 ≤ premium := by
  obtain ⟨shown, ⟨undefined, _⟩ | ⟨_, _, _, price, priced, asks⟩⟩ := Snapshot.ofEpoch_cases returned
  · rw [defines] at undefined
    cases undefined
  · have above := floor_le_askAfter defines (elapsed_nonneg epoch) asks
    refine ⟨price - epoch.floor, ?_, nonneg_sub (epoch.usable_of_definesCurve defines).1 above⟩
    simp only [Snapshot.premium?, priced, shown]
    rfl

/-- Two evaluations of an epoch that defines a curve differ in what has passed: they agree on
half-life and anchor, the later ask is no higher, and samples up to an end that was asked for in
half-lives are the same. -/
theorem ofEpoch_later (defines : epoch.definesCurve = true) (earlierFinite : earlier.isFinite = true)
    (laterFinite : later.isFinite = true) (ordered : earlier ≤ later)
    (firstReturned : Snapshot.ofEpoch settings (epoch.withNow earlier) requested asked = .ok first)
    (secondReturned : Snapshot.ofEpoch settings (epoch.withNow later) requested asked =
      .ok second) :
    second.halfLife = first.halfLife ∧
    (first.status = .success → second.status = .success →
      ∃ anchor, first.anchor = some anchor ∧ second.anchor = some anchor) ∧
    (∃ price lower, first.ask = some price ∧ second.ask = some lower ∧
      epoch.floor ≤ lower ∧ lower ≤ price) ∧
    (epoch.premiumRate.isSome = true → requested.isSome = true → second.points = first.points) := by
  have shares : (epoch.withNow later).SharesCurve (epoch.withNow earlier) := ⟨rfl, .refl _, rfl, rfl⟩
  have firstDefines : (epoch.withNow earlier).definesCurve = true := defines
  have secondDefines : (epoch.withNow later).definesCurve = true := defines
  obtain ⟨halfLife, sampled, ⟨price, priced, asks⟩, anchored⟩ :=
    Snapshot.ofEpoch_parts firstDefines firstReturned
  obtain ⟨laterHalfLife, laterSampled, ⟨lower, laterPriced, laterAsks⟩, laterAnchored⟩ :=
    Snapshot.ofEpoch_parts secondDefines secondReturned
  refine ⟨?_, ?_, ⟨price, lower, priced, laterPriced, ?_, ?_⟩, ?_⟩
  · rw [halfLife, laterHalfLife]
    exact shares.halfLife_eq
  · intro drawn laterDrawn
    exact ⟨epoch.anchor, anchored drawn, laterAnchored laterDrawn⟩
  · exact floor_le_askAfter secondDefines (elapsed_nonneg _) laterAsks
  · have asksThen : epoch.askAfter (epoch.withNow earlier).elapsed = .ok price := asks
    have asksLater : epoch.askAfter (epoch.withNow later).elapsed = .ok lower := laterAsks
    exact askAfter_antitone defines (elapsed_mono epoch earlierFinite laterFinite ordered) asksThen
      asksLater
  · intro known isRequested
    have bounds : (settings.window requested).bound (epoch.withNow later) =
        (settings.window requested).bound (epoch.withNow earlier) :=
      shares.bound_eq_of_requested known isRequested
    rw [shares.samples_eq_of_bound bounds, sampled] at laterSampled
    exact (Except.ok.inj laterSampled).symm

/-- A snapshot of a live epoch that is not refused is one of an epoch that defines a curve. -/
theorem definesCurve_of_status
    (returned : Snapshot.ofEpoch settings epoch requested asked = .ok first)
    (valid : first.status ≠ .invalidConfig) : epoch.definesCurve = true := by
  obtain ⟨_, ⟨_, refused, _⟩ | ⟨defines, _⟩⟩ := Snapshot.ofEpoch_cases returned
  · exact absurd refused valid
  · exact defines

/-! ## One auction, evaluated at two moments -/

/-- Of two evaluations of one auction at finite moments that are not refused, the later one sees the
same epoch with the same half-life and anchor, and an ask that is no higher and not below the floor,
so no premium is negative. Where half-lives are asked for, even the samples are the same. -/
theorem ofAuction_later (settings : Settings Binary64) (config : Config Binary64)
    (sales : List (Sale Binary64)) (requested : Option Binary64) (asked : Option Int)
    {earlier later : Binary64} (earlierFinite : earlier.isFinite = true)
    (laterFinite : later.isFinite = true) (ordered : earlier ≤ later) {epoch : Epoch Binary64}
    (live : liveEpoch config sales earlier = some epoch) {first second : Snapshot Binary64}
    (firstReturned : Snapshot.ofAuction settings (some config) sales earlier requested asked =
      .ok first)
    (secondReturned : Snapshot.ofAuction settings (some config) sales later requested asked =
      .ok second)
    (firstValid : first.status ≠ .invalidConfig) (secondValid : second.status ≠ .invalidConfig) :
    first.epoch = some epoch ∧ second.epoch = some (epoch.withNow later) ∧
    second.halfLife = first.halfLife ∧
    (first.status = .success → second.status = .success →
      ∃ anchor, first.anchor = some anchor ∧ second.anchor = some anchor) ∧
    (∃ price lower, first.ask = some price ∧ second.ask = some lower ∧
      epoch.floor ≤ lower ∧ lower ≤ price) ∧
    (∃ premium, first.premium? = some premium ∧ 0 ≤ premium) ∧
    (∃ premium, second.premium? = some premium ∧ 0 ≤ premium) ∧
    (epoch.premiumRate.isSome = true → requested.isSome = true →
      second.points = first.points) := by
  have liveLater : liveEpoch config sales later = some (epoch.withNow later) := by
    rw [liveEpoch_later config sales earlier later, live]
    rfl
  rw [ofAuction_of_liveEpoch live] at firstReturned
  rw [ofAuction_of_liveEpoch liveLater] at secondReturned
  have defines := definesCurve_of_status firstReturned firstValid
  have definesLater := definesCurve_of_status secondReturned secondValid
  have firstShown := (Snapshot.ofEpoch_cases firstReturned).1
  have secondShown := (Snapshot.ofEpoch_cases secondReturned).1
  have firstPremium := exists_premium defines firstReturned
  have secondPremium := exists_premium definesLater secondReturned
  rw [← withNow_of_liveEpoch live] at firstReturned
  obtain ⟨halfLife, anchors, asks, points⟩ :=
    ofEpoch_later defines earlierFinite laterFinite ordered firstReturned secondReturned
  exact ⟨firstShown, secondShown, halfLife, anchors, asks, firstPremium, secondPremium, points⟩

/-- The sales of an opening auction after its first one, at nine after one second. -/
def openingSales : List (Sale Binary64) := [{ time := ofNat 1, price := ofNat 9 }]

theorem ofAuction_later_opening : ∃ first second price lower,
    Snapshot.ofAuction .standard (some openingConfig) openingSales (ofNat 2) (some (ofNat 3))
      (some 2) = .ok first ∧
    Snapshot.ofAuction .standard (some openingConfig) openingSales (ofNat 7) (some (ofNat 3))
      (some 2) = .ok second ∧
    first.ask = some price ∧ second.ask = some lower ∧ lower ≤ price ∧
    second.points = first.points ∧ first.points.length = 3 := by
  obtain ⟨first, firstReturned, firstDrawn⟩ : ∃ first,
      Snapshot.ofAuction .standard (some openingConfig) openingSales (ofNat 2) (some (ofNat 3))
        (some 2) = .ok first ∧ (first.status, first.points.length) = (.success, 3) :=
    Outcome.exists_of_map (by decide +kernel)
  obtain ⟨second, secondReturned, secondDrawn⟩ : ∃ second,
      Snapshot.ofAuction .standard (some openingConfig) openingSales (ofNat 7) (some (ofNat 3))
        (some 2) = .ok second ∧ second.status = .success :=
    Outcome.exists_of_map (by decide +kernel)
  rw [Prod.mk.injEq] at firstDrawn
  obtain ⟨epoch, live, known⟩ : ∃ epoch,
      liveEpoch openingConfig openingSales (ofNat 2) = some epoch ∧
        epoch.premiumRate.isSome = true := by
    have found : (liveEpoch openingConfig openingSales (ofNat 2)).any (·.premiumRate.isSome) =
        true := by
      decide +kernel
    simpa [Option.any_eq_true] using found
  have bothFinite : (ofNat 2).isFinite = true ∧ (ofNat 7).isFinite = true := by decide +kernel
  have ordered : ofNat 2 ≤ ofNat 7 := by decide +kernel
  obtain ⟨_, _, _, _, ⟨price, lower, priced, laterPriced, _, falls⟩, _, _, points⟩ :=
    ofAuction_later .standard openingConfig openingSales (some (ofNat 3)) (some 2) bothFinite.1
      bothFinite.2 ordered live firstReturned secondReturned (by simp [firstDrawn])
      (by simp [secondDrawn])
  exact ⟨first, second, price, lower, firstReturned, secondReturned, priced, laterPriced, falls,
    points known rfl, firstDrawn.2⟩

end HyperbolicAuction
