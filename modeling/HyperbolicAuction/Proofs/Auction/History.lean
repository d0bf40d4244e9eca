import HyperbolicAuction.Auction.Basic
import HyperbolicAuction.Proofs.Auction.Sorting
import HyperbolicAuction.Proofs.Binary64.Arithmetic

/-!
# Histories in order

Sales that are recorded as time goes on are in order already: sorting them again changes nothing,
and the live epoch is the one that the sale recorded last has opened.

Main statements: `inOrder_of_isOrdered`, `liveEpoch_append`, `le_accrual_mul`.
-/

namespace HyperbolicAuction

open Binary64

/-- Every sale is at the time of each sale before it or later. -/
def Sale.IsOrdered (history : List (Sale Binary64)) : Prop :=
  history.Pairwise fun earlier later => earlier.time ≤ later.time

variable {config : Config Binary64} {earlier history : List (Sale Binary64)}
  {last : Sale Binary64} {epoch : Epoch Binary64}

theorem inOrder_of_isOrdered (ordered : Sale.IsOrdered history) :
    Sale.inOrder history = history := by
  unfold Sale.inOrder
  refine List.mergeSort_of_pairwise (ordered.imp ?_)
  intro earlier later before
  unfold Sale.isBefore
  rw [decide_eq_false (not_lt_of_le before)]
  rfl

/-- The time that a premium accrues from, after some sales. -/
def priorTime (config : Config Binary64) (earlier : List (Sale Binary64)) : Option Binary64 :=
  (earlier.getLast?.map (·.time)).or config.openTime

theorem liveEpoch_nil (config : Config Binary64) (nowTime : Binary64) :
    liveEpoch config [] nowTime = config.genesisEpoch nowTime := by
  have empty : Sale.inOrder ([] : List (Sale Binary64)) = [] := inOrder_of_isOrdered .nil
  unfold liveEpoch
  rw [empty]
  rfl

/-- The live epoch is the one that the last sale in order has opened. -/
theorem liveEpoch_of_inOrder (ordered : Sale.inOrder history = earlier ++ [last])
    (nowTime : Binary64) :
    liveEpoch config history nowTime =
      some (.afterSale (Epoch.genesisIndex + history.length) last.price last.time
        config.k config.accrual (accrualInterval last.time (priorTime config earlier)) nowTime) := by
  unfold liveEpoch
  rw [ordered, List.reverse_append, List.reverse_singleton, List.singleton_append]
  cases flipped : earlier.reverse with
  | nil =>
    rw [List.reverse_eq_nil_iff.1 flipped]
    rfl
  | cons previous rest =>
    have found : earlier.getLast? = some previous := by
      rw [← List.head?_reverse, flipped]
      rfl
    unfold priorTime
    rw [found]
    rfl

theorem liveEpoch_append (ordered : Sale.IsOrdered (earlier ++ [last])) (nowTime : Binary64) :
    liveEpoch config (earlier ++ [last]) nowTime =
      some (.afterSale (Epoch.genesisIndex + (earlier ++ [last]).length) last.price last.time
        config.k config.accrual (accrualInterval last.time (priorTime config earlier)) nowTime) :=
  liveEpoch_of_inOrder (inOrder_of_isOrdered ordered) nowTime

/-- Any sales open an epoch: the last of them in order does. -/
theorem exists_liveEpoch_of_ne_nil (config : Config Binary64) (nonempty : history ≠ [])
    (nowTime : Binary64) :
    ∃ earlier last, Sale.inOrder history = earlier ++ [last] ∧
      liveEpoch config history nowTime =
        some (.afterSale (Epoch.genesisIndex + history.length) last.price last.time config.k
          config.accrual (accrualInterval last.time (priorTime config earlier)) nowTime) := by
  obtain ⟨last, found⟩ := Sale.exists_getLast?_inOrder nonempty
  obtain ⟨earlier, ordered⟩ := List.getLast?_eq_some_iff.1 found
  exact ⟨earlier, last, ordered, liveEpoch_of_inOrder ordered nowTime⟩

/-- The live epoch of sales in any order: the genesis epoch, or one that some sale opened, with a
premium that accrued since another sale or since the opening. -/
theorem liveEpoch_cases (config : Config Binary64) (sales : List (Sale Binary64))
    (nowTime : Binary64) :
    sales = [] ∧ liveEpoch config sales nowTime = config.genesisEpoch nowTime ∨
    ∃ last ∈ sales, ∃ priorTime : Option Binary64,
      (sales.length = 1 ∧ priorTime = config.openTime ∨
        2 ≤ sales.length ∧ ∃ previous ∈ sales, priorTime = some previous.time) ∧
      liveEpoch config sales nowTime =
        some (.afterSale (Epoch.genesisIndex + sales.length) last.price last.time config.k
          config.accrual (accrualInterval last.time priorTime) nowTime) := by
  by_cases none_ : sales = []
  · subst none_
    exact .inl ⟨rfl, liveEpoch_nil config nowTime⟩
  · obtain ⟨earlier, last, ordered, live⟩ := exists_liveEpoch_of_ne_nil config none_ nowTime
    have members : ∀ sale ∈ earlier ++ [last], sale ∈ sales := by
      rw [← ordered]
      exact fun sale mem => (Sale.perm_inOrder sales).mem_iff.1 mem
    have length : sales.length = earlier.length + 1 := by
      rw [← (Sale.perm_inOrder sales).length_eq, ordered, List.length_append, List.length_singleton]
    refine .inr ⟨last, members last (List.mem_append_right _ List.mem_cons_self),
      priorTime config earlier, ?_, live⟩
    cases found : earlier.getLast? with
    | none =>
      obtain rfl := List.getLast?_eq_none_iff.1 found
      exact .inl ⟨length, rfl⟩
    | some previous =>
      have mem := List.mem_of_getLast? found
      have some_ := List.length_pos_of_mem mem
      refine .inr ⟨by omega, previous, members previous (List.mem_append_left _ mem), ?_⟩
      rw [priorTime, found]
      rfl

/-! ## The genesis epoch -/

theorem genesisPremium_cases {premium : Binary64} (begun : config.genesisPremium = some premium) :
    ∃ genesisPrice genesisFloor, config.genesisPrice = some genesisPrice ∧
      config.genesisFloor = some genesisFloor ∧
      Scalar.isUsable (genesisPrice - genesisFloor) = true := by
  unfold Config.genesisPremium at begun
  simp only [Option.bind_eq_bind, Option.bind_eq_some_iff] at begun
  obtain ⟨genesisPrice, priced, genesisFloor, floored, started⟩ := begun
  refine ⟨genesisPrice, genesisFloor, priced, floored, ?_⟩
  unfold genesisPremium at started
  dsimp only at started
  split at started
  · assumption
  · cases started

/-- What a genesis epoch is made of. -/
theorem genesisEpoch_cases {now : Binary64} (live : config.genesisEpoch now = some epoch) :
    ∃ openTime price floor, config.openTime = some openTime ∧
      config.genesisPrice = some price ∧ config.genesisFloor = some floor ∧
      Scalar.isUsable (price - floor) = true ∧
      epoch = .genesis floor price config.k openTime now := by
  unfold Config.genesisEpoch at live
  simp only [Option.bind_eq_bind, Option.bind_eq_some_iff, Option.pure_def, Option.some.injEq]
    at live
  obtain ⟨premium, begun, floor, floored, price, priced, openTime, opens, rfl⟩ := live
  obtain ⟨price', floor', priced', floored', usable⟩ := genesisPremium_cases begun
  rw [priced] at priced'
  rw [floored] at floored'
  cases priced'
  cases floored'
  exact ⟨openTime, price, floor, opens, priced, floored, usable, rfl⟩

/-! ## Premiums -/

/-- What accrues above zero makes a premium that is no less, over at least one second. -/
theorem le_accrual_mul {accrual : Binary64} (positive : 0 < accrual.position)
    (seconds : Binary64) : accrual ≤ accrual * Scalar.larger 1 seconds := by
  have unit : (0 : Int) < (unitsPerOne : Int) := Int.natCast_pos.2 unitsPerOne_pos
  have oneNumber : (1 : Binary64) ≠ nan := ne_nan_of_pos (by rw [position_one]; exact unit)
  have interval : (unitsPerOne : Int) ≤ (Scalar.larger 1 seconds).position := by
    have least := (le_iff.1 (le_larger_left oneNumber seconds)).2.2
    rwa [position_one] at least
  exact le_iff.2 ⟨ne_nan_of_pos positive,
    le_position_mul positive (Int.lt_of_lt_of_le unit interval) (isOnGrid_position accrual)
      (natAbs_position_le accrual)
      (Int.mul_le_mul_of_nonneg_left interval (Int.le_of_lt positive))⟩

theorem accrual_mul_pos {accrual : Binary64} (positive : 0 < accrual.position)
    (seconds : Binary64) : 0 < (accrual * Scalar.larger 1 seconds).position :=
  Int.lt_of_lt_of_le positive (le_iff.1 (le_accrual_mul positive seconds)).2.2

end HyperbolicAuction
