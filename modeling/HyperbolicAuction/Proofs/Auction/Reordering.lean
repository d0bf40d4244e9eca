import HyperbolicAuction.Proofs.Auction.Ratchet
import HyperbolicAuction.Proofs.Curve.Shared

/-!
# Sales in another order

Sales may be given in any order as far as time goes: number, premium and start of the live epoch do
not depend on it. The floor does, where several sales are the latest: it is the price of whichever
of them is given last. So an auction is evaluated alike in every order exactly if its latest sales
agree on a price, up to the sign of a price of zero.

`exists_liveEpoch_reordered` says what does not depend on the order; `isOrderFree_of_latestAgree` and
`latestAgree_of_isOrderFree` settle when nothing that is shown does.

Main statements: `liveEpoch_reordered`, and `isOrderFree_fails_at_tie`, where two sales of one moment
set two floors.
-/

namespace HyperbolicAuction

open Binary64

/-! ## The same epoch -/

/-- Epochs that differ at most in their floors. The sign of a zero is no difference. -/
structure Epoch.SameButFloor (left right : Epoch Binary64) : Prop where
  index : left.index = right.index
  k : left.k = right.k
  premiumRate : left.premiumRate = right.premiumRate
  startTime : left.startTime.SameNumber right.startTime
  nowTime : left.nowTime = right.nowTime
  isGenesis : left.isGenesis = right.isGenesis

/-- Epochs that are equal but for the sign of a zero. -/
structure Epoch.Same (left right : Epoch Binary64) : Prop extends Epoch.SameButFloor left right where
  floor : left.floor.SameNumber right.floor

theorem Epoch.Same.refl (epoch : Epoch Binary64) : epoch.Same epoch where
  index := rfl
  k := rfl
  premiumRate := rfl
  startTime := .refl _
  nowTime := rfl
  isGenesis := rfl
  floor := .refl _

theorem Epoch.SameButFloor.elapsed_eq {left right : Epoch Binary64}
    (same : left.SameButFloor right) : left.elapsed = right.elapsed := by
  unfold Epoch.elapsed
  rw [same.nowTime, Binary64.isFinite_eq, Binary64.isFinite_eq, Binary64.isFinite_eq,
    same.startTime.isFinite_eq,
    ((SameNumber.refl right.nowTime).sub same.startTime).larger_eq (le_refl zero_ne_nan)]

theorem Epoch.Same.sharesCurve {left right : Epoch Binary64} (same : left.Same right) :
    left.SharesCurve right :=
  ⟨same.index, same.floor, same.k, same.premiumRate⟩

theorem Epoch.Same.sameFloors {left right : Option (Epoch Binary64)}
    (same : Option.Rel Epoch.Same left right) :
    Option.Rel SameNumber (left.map (·.floor)) (right.map (·.floor)) := by
  cases same with
  | some same => exact .some same.floor
  | none => exact .none

/-! ## What does not depend on the order -/

/-- Latest sales have one price, up to the sign of zero. -/
def Sale.LatestAgree (sales : List (Sale Binary64)) : Prop :=
  ∀ left ∈ sales, ∀ right ∈ sales, Sale.IsLatest sales left → Sale.IsLatest sales right →
    left.price.SameNumber right.price

instance (sales : List (Sale Binary64)) : Decidable (Sale.LatestAgree sales) :=
  inferInstanceAs (Decidable (∀ left ∈ sales, ∀ right ∈ sales, Sale.IsLatest sales left →
    Sale.IsLatest sales right → left.price.SameNumber right.price))

/-- An auction is evaluated alike whatever order its sales are given in. -/
def IsOrderFree (config : Config Binary64) (sales : List (Sale Binary64)) (nowTime : Binary64) :
    Prop :=
  ∀ other : List (Sale Binary64), other.Perm sales →
    Option.Rel Epoch.Same (liveEpoch config other nowTime) (liveEpoch config sales nowTime) ∧
    ∀ (settings : Settings Binary64) (requested : Option Binary64) (asked : Option Int),
      (Snapshot.ofAuction settings (some config) other nowTime requested asked).map
          Snapshot.shown =
        (Snapshot.ofAuction settings (some config) sales nowTime requested asked).map
          Snapshot.shown

variable {config : Config Binary64} {sales other : List (Sale Binary64)}
  {nowTime : Binary64} {last : Sale Binary64}

theorem accrualInterval_eq {time otherTime : Binary64} {prior otherPrior : Option Binary64}
    (same : time.SameNumber otherTime) (priors : Option.Rel SameNumber prior otherPrior) :
    accrualInterval time prior = accrualInterval otherTime otherPrior := by
  unfold accrualInterval
  cases priors with
  | none => rw [Option.map_none, Option.map_none]
  | some samePrior =>
    rw [Option.map_some, Option.map_some, (same.sub samePrior).larger_eq within_one.nonneg]

/-- Premiums accrue from one moment if the sales before the last are at the same times. -/
theorem priorTime_same {earlier otherEarlier : List (Sale Binary64)}
    (timed : Sale.AllTimed earlier) (otherTimed : Sale.AllTimed otherEarlier)
    (times : otherEarlier.map (·.time.position) = earlier.map (·.time.position)) :
    Option.Rel SameNumber (priorTime config otherEarlier) (priorTime config earlier) := by
  have lastTimes : otherEarlier.getLast?.map (·.time.position) =
      earlier.getLast?.map (·.time.position) := by
    rw [← List.getLast?_map, ← List.getLast?_map, times]
  unfold priorTime
  cases found : earlier.getLast? with
  | none =>
    rw [found, Option.map_none, Option.map_eq_none_iff] at lastTimes
    rw [lastTimes]
    cases config.openTime with
    | none => exact .none
    | some openTime => exact .some (.refl openTime)
  | some previous =>
    rw [found, Option.map_some, Option.map_eq_some_iff] at lastTimes
    obtain ⟨otherPrevious, otherFound, samePosition⟩ := lastTimes
    rw [otherFound]
    exact .some ((sameNumber_iff (otherTimed _ (List.mem_of_getLast? otherFound))
      (timed _ (List.mem_of_getLast? found))).2 samePosition)

/-- In another order sales open the same epoch, but maybe at the price of another latest sale. -/
theorem exists_liveEpoch_reordered (timed : Sale.AllTimed sales) (reordered : other.Perm sales)
    (nonempty : sales ≠ []) :
    ∃ otherEpoch epoch, liveEpoch config other nowTime = some otherEpoch ∧
      liveEpoch config sales nowTime = some epoch ∧ otherEpoch.SameButFloor epoch ∧
      ∃ otherLast last, Sale.IsLatest sales otherLast ∧ Sale.IsLatest sales last ∧
        otherEpoch.floor = otherLast.price ∧ epoch.floor = last.price := by
  have otherNonempty : other ≠ [] := by
    rintro rfl
    exact nonempty reordered.nil_eq.symm
  have otherTimed := timed.of_perm reordered
  obtain ⟨earlier, last, ordered, live⟩ := exists_liveEpoch_of_ne_nil config nonempty nowTime
  obtain ⟨otherEarlier, otherLast, otherOrdered, otherLive⟩ :=
    exists_liveEpoch_of_ne_nil config otherNonempty nowTime
  have latest := Sale.isLatest_getLast? timed (List.getLast?_eq_some_iff.2 ⟨earlier, ordered⟩)
  have otherLatest := Sale.isLatest_getLast? otherTimed
    (List.getLast?_eq_some_iff.2 ⟨otherEarlier, otherOrdered⟩)
  have times := Sale.times_inOrder_eq timed reordered
  rw [ordered, otherOrdered, List.map_append, List.map_append] at times
  obtain ⟨earlierTimes, lastTimes⟩ := List.append_inj' times rfl
  have sameTime : otherLast.time.SameNumber last.time :=
    (sameNumber_iff (otherTimed _ otherLatest.1) (timed _ latest.1)).2 (List.singleton_inj.1 lastTimes)
  have earlierTimed : Sale.AllTimed earlier := fun sale mem =>
    (timed.of_perm (Sale.perm_inOrder sales)) sale (by rw [ordered]; exact List.mem_append_left _ mem)
  have otherEarlierTimed : Sale.AllTimed otherEarlier := fun sale mem =>
    (otherTimed.of_perm (Sale.perm_inOrder other)) sale
      (by rw [otherOrdered]; exact List.mem_append_left _ mem)
  have interval := accrualInterval_eq sameTime
    (@priorTime_same config _ _ earlierTimed otherEarlierTimed earlierTimes)
  refine ⟨_, _, otherLive, live, ⟨?_, rfl, ?_, sameTime, rfl, rfl⟩, otherLast, last,
    otherLatest.of_perm reordered, latest, rfl, rfl⟩
  · simp only [Epoch.afterSale, reordered.length_eq]
  · simp only [Epoch.afterSale, interval]

/-- Where latest sales agree, the order that sales are given in makes no difference. -/
theorem isOrderFree_of_latestAgree (timed : Sale.AllTimed sales) (agree : Sale.LatestAgree sales) :
    IsOrderFree config sales nowTime := by
  intro other reordered
  by_cases nonempty : sales = []
  · subst nonempty
    rw [reordered.eq_nil]
    refine ⟨?_, fun settings requested asked => rfl⟩
    cases liveEpoch config [] nowTime with
    | none => exact .none
    | some epoch => exact .some (.refl epoch)
  · obtain ⟨otherEpoch, epoch, otherLive, live, sameRest, otherLast, last, otherLatest, latest,
      otherFloor, floor⟩ := @exists_liveEpoch_reordered config _ _ nowTime timed reordered nonempty
    have floors := agree otherLast otherLatest.1 last latest.1 otherLatest latest
    rw [← otherFloor, ← floor] at floors
    have same : otherEpoch.Same epoch := ⟨sameRest, floors⟩
    rw [otherLive, live]
    refine ⟨.some same, fun settings requested asked => ?_⟩
    rw [ofAuction_of_liveEpoch otherLive, ofAuction_of_liveEpoch live]
    exact same.sharesCurve.shown_eq same.elapsed_eq settings requested asked

/-! ## What does -/

/-- Of the latest sales, the one that is given last sets the floor. -/
theorem floor_of_last_given (timed : Sale.AllTimed sales) (latest : Sale.IsLatest sales last) :
    ∃ other, other.Perm sales ∧
      (liveEpoch config other nowTime).map (·.floor) = some last.price := by
  have reordered : (sales.erase last ++ [last]).Perm sales :=
    (List.perm_append_singleton last _).trans (List.perm_cons_erase latest.1).symm
  have found := Sale.getLast?_inOrder_append (timed.of_perm reordered)
    (latest.of_perm reordered.symm)
  obtain ⟨earlier, ordered⟩ := List.getLast?_eq_some_iff.1 found
  refine ⟨_, reordered, ?_⟩
  rw [liveEpoch_of_inOrder ordered]
  rfl

theorem latestAgree_of_isOrderFree (timed : Sale.AllTimed sales)
    (free : IsOrderFree config sales nowTime) : Sale.LatestAgree sales := by
  intro left _ right _ leftLatest rightLatest
  obtain ⟨leftOrder, leftReordered, leftFloor⟩ :=
    @floor_of_last_given config _ nowTime _ timed leftLatest
  obtain ⟨rightOrder, rightReordered, rightFloor⟩ :=
    @floor_of_last_given config _ nowTime _ timed rightLatest
  have leftSame := Epoch.Same.sameFloors (free leftOrder leftReordered).1
  have rightSame := Epoch.Same.sameFloors (free rightOrder rightReordered).1
  rw [leftFloor] at leftSame
  rw [rightFloor] at rightSame
  generalize (liveEpoch config sales nowTime).map (·.floor) = floor at leftSame rightSame
  cases leftSame with
  | some leftSame => exact leftSame.trans (Option.rel_some_some.1 rightSame).symm

/-- In another order an auction has the same epoch but for the floor, and it is evaluated alike in
every order exactly if its latest sales have one price. -/
theorem liveEpoch_reordered (config : Config Binary64) {sales : List (Sale Binary64)}
    (timed : Sale.AllTimed sales) (nowTime : Binary64) :
    (∀ other : List (Sale Binary64), other.Perm sales →
      Option.Rel Epoch.SameButFloor (liveEpoch config other nowTime)
        (liveEpoch config sales nowTime)) ∧
    (IsOrderFree config sales nowTime ↔ Sale.LatestAgree sales) := by
  refine ⟨fun other reordered => ?_, latestAgree_of_isOrderFree timed,
    isOrderFree_of_latestAgree timed⟩
  by_cases nonempty : sales = []
  · subst nonempty
    rw [reordered.eq_nil]
    cases liveEpoch config [] nowTime with
    | none => exact .none
    | some epoch => exact .some (Epoch.Same.refl epoch).toSameButFloor
  · obtain ⟨otherEpoch, epoch, otherLive, live, same, _⟩ :=
      @exists_liveEpoch_reordered config _ _ nowTime timed reordered nonempty
    rw [otherLive, live]
    exact .some same

/-- Two sales of one moment at one price, given before an earlier one. -/
def levelSales : List (Sale Binary64) :=
  [{ time := ofNat 1, price := ofNat 9 }, { time := ofNat 1, price := ofNat 9 },
    { time := 0, price := ofNat 8 }]

theorem liveEpoch_reordered_level :
    Sale.AllTimed levelSales ∧ Sale.LatestAgree levelSales ∧
      IsOrderFree openingConfig levelSales (ofNat 2) := by
  have timed : Sale.AllTimed levelSales := by decide +kernel
  have agree : Sale.LatestAgree levelSales := by decide +kernel
  exact ⟨timed, agree, (liveEpoch_reordered openingConfig timed (ofNat 2)).2.2 agree⟩

/-- Two sales of one moment at different prices. -/
def tiedSales : List (Sale Binary64) :=
  [{ time := ofNat 1, price := ofNat 9 }, { time := ofNat 1, price := ofNat 10 }]

theorem isOrderFree_fails_at_tie :
    Sale.AllTimed tiedSales ∧ tiedSales.reverse.Perm tiedSales ∧
    (liveEpoch openingConfig tiedSales (ofNat 1)).map (·.floor) = some (ofNat 10) ∧
    (liveEpoch openingConfig tiedSales.reverse (ofNat 1)).map (·.floor) = some (ofNat 9) ∧
    (Snapshot.ofAuction .standard (some openingConfig) tiedSales (ofNat 1) none (some 1)).map
      (·.ask) = .ok (some (ofNat 12)) ∧
    (Snapshot.ofAuction .standard (some openingConfig) tiedSales.reverse (ofNat 1) none
      (some 1)).map (·.ask) = .ok (some (ofNat 11)) ∧
    ¬ IsOrderFree openingConfig tiedSales (ofNat 1) := by
  have sorted (price otherPrice : Binary64) : Sale.IsOrdered
      ([{ time := ofNat 1, price := price }] ++ [{ time := ofNat 1, price := otherPrice }]) := by
    have level : (ofNat 1 : Binary64) ≤ ofNat 1 := by decide +kernel
    simp [Sale.IsOrdered, level]
  have live := @liveEpoch_append openingConfig _ _ (sorted (ofNat 9) (ofNat 10)) (ofNat 1)
  have otherLive := @liveEpoch_append openingConfig _ _ (sorted (ofNat 10) (ofNat 9)) (ofNat 1)
  rw [List.singleton_append] at live otherLive
  have floor : (liveEpoch openingConfig tiedSales (ofNat 1)).map (·.floor) =
      some (ofNat 10) := by
    rw [tiedSales, live, Option.map_some, Epoch.afterSale]
  have otherFloor : (liveEpoch openingConfig tiedSales.reverse (ofNat 1)).map (·.floor) =
      some (ofNat 9) := by
    rw [tiedSales, List.reverse_cons, List.reverse_singleton, List.singleton_append, otherLive,
      Option.map_some, Epoch.afterSale]
  have reordered : tiedSales.reverse.Perm tiedSales := List.reverse_perm _
  refine ⟨by decide +kernel, reordered, floor, otherFloor, ?_, ?_, ?_⟩
  · rw [tiedSales, ofAuction_of_liveEpoch live]
    decide +kernel
  · rw [tiedSales, List.reverse_cons, List.reverse_singleton, List.singleton_append,
      ofAuction_of_liveEpoch otherLive]
    decide +kernel
  · intro free
    have same := Epoch.Same.sameFloors (free _ reordered).1
    rw [floor, otherFloor, Option.rel_some_some] at same
    have apart : ¬ (ofNat 9).SameNumber (ofNat 10) := by decide +kernel
    exact apart same

end HyperbolicAuction
