import HyperbolicAuction.Proofs.Auction.History
import HyperbolicAuction.Proofs.Auction.Intake
import HyperbolicAuction.Proofs.Auction.Ratchet
import HyperbolicAuction.Proofs.Curve.Range

/-!
# Auctions read from a chain

Where every integer that is read lies below `2 ^ 256`, every epoch is in range, so an evaluation
never fails. What it comes to is settled by the integers alone: which of them are there, and which
are zero.

Main statement: `onChain_status`.
-/

namespace HyperbolicAuction

open Binary64 Scalar

attribute [local irreducible] overflowLimit unitsPerOne Text.digitLimit

/-! ## What is read -/

/-- The integer of a raw value, if it has one. -/
def Raw.integer? (value : Raw) : Option Nat := (Amount.decode value).toOption

theorem Raw.integer?_eq_some {value : Raw} {number : Nat}
    (decoded : Amount.decode value = .ok number) : value.integer? = some number := by
  unfold Raw.integer?
  rw [decoded]
  rfl

/-- The integer of the entry of a key. -/
def givenInteger? (entries : List (String × Raw)) (key : String) : Option Nat :=
  (givenValue? entries key).bind Raw.integer?

/-- All integers that a configuration is read from. -/
def Config.integers (entries : List (String × Raw)) : List Nat :=
  ["k", "pts", "genesis_price", "genesis_floor"].filterMap (givenInteger? entries) ++
    ((givenOpenTime? entries).bind Raw.integer?).toList

/-- A sale as it arrives. -/
structure RawSale where
  time : Raw
  price : Raw
  buyer : Option String
  tokenId : Raw

/-- A sale from its raw values. -/
def RawSale.read (decimals : Int) (sale : RawSale) : Except AmountError (Sale Binary64) :=
  Sale.ofRaw sale.time sale.price decimals sale.buyer sale.tokenId

/-- The integers that time and price of a sale are read from. -/
def RawSale.integers (sale : RawSale) : List Nat :=
  [sale.time, sale.price].filterMap Raw.integer?

/-- There is no genesis epoch: the opening or a genesis amount is unknown, or the genesis price is
not above the floor. -/
def Config.LacksGenesis (config : Config Binary64) : Prop :=
  config.openTime = none ∨ config.genesisPrice = none ∨ config.genesisFloor = none ∨
    ∃ price floor, config.genesisPrice = some price ∧ config.genesisFloor = some floor ∧
      ¬ 0 < price - floor

/-! ## What is in range -/

/-- A configuration of ordinary size, with the integers of its decay and its rate. -/
structure Config.InRange (config : Config Binary64) (decay : Nat) (rate : Option Nat) : Prop where
  decay : IsAmount decay config.k
  accrual : rate = none ∧ config.accrual = none ∨
    ∃ number accrual, rate = some number ∧ config.accrual = some accrual ∧ IsAmount number accrual
  genesisPrice : ∀ price, config.genesisPrice = some price → UpTo 1330 price
  genesisFloor : ∀ floor, config.genesisFloor = some floor → UpTo 1330 floor
  openTime : ∀ time, config.openTime = some time → UpTo 1330 time

/-- A sale of ordinary size. -/
structure Sale.InRange (sale : Sale Binary64) : Prop where
  time : UpTo 1330 sale.time
  price : UpTo 1330 sale.price

variable {config : Config Binary64} {decay : Nat} {rate : Option Nat}
  {sales : List (Sale Binary64)} {epoch : Epoch Binary64}

/-- There is an interval that a premium accrued over: between two sales, or since the opening. -/
def HasInterval (config : Config Binary64) (sales : List (Sale Binary64)) : Prop :=
  2 ≤ sales.length ∨ sales.length = 1 ∧ config.openTime.isSome = true

theorem usable_sub_iff {left right : Binary64} (leftUpTo : UpTo 1330 left)
    (rightUpTo : UpTo 1330 right) : isUsable (left - right) = true ↔ 0 < left - right := by
  obtain ⟨high, high_eq⟩ : ∃ high, high = 1330 := ⟨_, rfl⟩
  rw [← high_eq] at leftUpTo rightUpTo
  have limit := @two_pow_lt_overflowLimit high (by omega)
  obtain ⟨number, upper⟩ := sub_upper (leftUpTo.isFinite (by omega)) leftUpTo.upper
    (rightUpTo.isFinite (by omega)) rightUpTo.nonneg (by omega)
  rw [isUsable_iff, lt_iff, position_zero]
  constructor
  · rintro ⟨_, positive, _⟩
    exact ⟨zero_ne_nan, number, positive⟩
  · rintro ⟨_, _, positive⟩
    exact ⟨number, positive, by omega⟩

/-- An interval between two times of ordinary size lasts from one second to `2 ^ 256`. -/
theorem within_interval {time prior : Binary64} (timeUpTo : UpTo 1330 time)
    (priorUpTo : UpTo 1330 prior) : Within 1074 1330 (larger 1 (time - prior)) := by
  obtain ⟨number, upper⟩ := sub_upper (timeUpTo.isFinite (by decide)) timeUpTo.upper
    (priorUpTo.isFinite (by decide)) priorUpTo.nonneg (by decide)
  have one := within_one.mono (Nat.le_refl 1074) (by decide : 1074 ≤ 1330)
  have position := position_larger one.ne_nan number
  constructor
  · rw [position]
    exact Int.le_trans one.lower (Int.le_max_left ..)
  · rw [position]
    exact Int.max_le.2 ⟨one.upper, upper⟩

/-- A premium that accrued over an interval is zero only where nothing accrues. -/
theorem premium_cases {number : Nat} {accrual interval : Binary64}
    (isAmount : IsAmount number accrual) (within : Within 1074 1330 interval) :
    (number = 0 → isZero (accrual * interval) = true) ∧
      (number ≠ 0 → Within 954 1586 (accrual * interval)) := by
  constructor
  · intro none_
    have zero := isAmount.zero none_
    exact isZero_mul (isFinite_of_isZero zero) (within.isFinite (by decide)) (.inl zero)
  · intro some_
    exact (isAmount.within some_).mul within (by decide) (by decide) (by decide) (by decide)
      (by decide) (by decide)

theorem not_isUsable_of_isZero {value : Binary64} (zero : isZero value = true) :
    isUsable value = false := by
  rw [isZero_iff] at zero
  rw [← Bool.not_eq_true, isUsable_iff]
  omega

/-- What is needed of the premium of an epoch: it is of ordinary size, and it is usable unless
nothing accrues over some interval. -/
structure PremiumInRange (premiumRate : Option Binary64) (vanishes : Prop) : Prop where
  upTo : ∀ premium, premiumRate = some premium → UpTo 1586 premium
  usable : (∀ premium, premiumRate = some premium → isUsable premium = true) ↔ ¬ vanishes

theorem premiumInRange_none {vanishes : Prop} (lasts : ¬ vanishes) :
    PremiumInRange none vanishes :=
  ⟨(fun _ known => nomatch known), (fun _ => lasts), (fun _ _ known => nomatch known)⟩

theorem premiumInRange_mul {number : Nat} {accrual interval : Binary64}
    (isAmount : IsAmount number accrual) (within : Within 1074 1330 interval) {vanishes : Prop}
    (vanishes_iff : vanishes ↔ number = 0) :
    PremiumInRange (some (accrual * interval)) vanishes := by
  obtain ⟨zero, some_⟩ := premium_cases isAmount within
  rw [vanishes_iff]
  by_cases none_ : number = 0
  · have isZero_ := zero none_
    constructor
    · intro premium known
      cases known
      exact upTo_of_isZero 1586 isZero_
    · refine ⟨fun usable => ?_, fun lasts => absurd none_ lasts⟩
      have contrary := usable _ rfl
      rw [not_isUsable_of_isZero isZero_] at contrary
      cases contrary
  · have within_ := some_ none_
    constructor
    · intro premium known
      cases known
      exact within_.upTo
    · refine ⟨fun _ => none_, fun _ premium known => ?_⟩
      cases known
      exact within_.isUsable (by decide)

/-! ## The live epoch -/

/-- What keeps an epoch from defining a curve: no decay, or no premium over an interval. -/
def Unpriceable (config : Config Binary64) (decay : Nat) (rate : Option Nat)
    (sales : List (Sale Binary64)) : Prop :=
  decay = 0 ∨ rate = some 0 ∧ HasInterval config sales

theorem definesCurve_iff (floorUpTo : UpTo 1330 epoch.floor) (isAmount : IsAmount decay epoch.k) :
    epoch.definesCurve = true ↔
      decay ≠ 0 ∧ ∀ premium, epoch.premiumRate = some premium → isUsable premium = true := by
  have floorFinite := floorUpTo.isFinite (by decide)
  have decayUsable : isUsable epoch.k = true ↔ decay ≠ 0 := by
    by_cases none_ : decay = 0
    · rw [not_isUsable_of_isZero (isAmount.zero none_)]
      exact ⟨(fun contrary => nomatch contrary), fun some_ => absurd none_ some_⟩
    · exact ⟨fun _ => none_, fun _ => (isAmount.within none_).isUsable (by decide)⟩
  unfold Epoch.definesCurve
  rw [isFinite_eq, floorFinite, Bool.true_and, Bool.and_eq_true, decayUsable]
  cases epoch.premiumRate <;> simp

theorem accrualInterval_cases {last : Sale Binary64} {priorTime : Option Binary64}
    (configRange : config.InRange decay rate) (salesRange : ∀ sale ∈ sales, sale.InRange)
    (isSale : last ∈ sales)
    (since : sales.length = 1 ∧ priorTime = config.openTime ∨
      2 ≤ sales.length ∧ ∃ previous ∈ sales, priorTime = some previous.time) :
    accrualInterval last.time priorTime = none ∧ ¬ HasInterval config sales ∨
      ∃ interval, accrualInterval last.time priorTime = some interval ∧ HasInterval config sales ∧
        Within 1074 1330 interval := by
  have time := (salesRange last isSale).time
  rcases since with ⟨single, rfl⟩ | ⟨several, previous, isPrevious, rfl⟩
  · cases opens : config.openTime with
    | none =>
      refine .inl ⟨rfl, ?_⟩
      rintro (several | ⟨_, known⟩)
      · omega
      · rw [opens] at known
        cases known
    | some openTime =>
      exact .inr ⟨_, rfl, .inr ⟨single, by rw [opens]; rfl⟩,
        within_interval time (configRange.openTime openTime opens)⟩
  · exact .inr ⟨_, rfl, .inl several,
      within_interval time (salesRange previous isPrevious).time⟩

/-- The premium of an epoch that a sale opened. -/
theorem premiumInRange_afterSale {last : Sale Binary64} {priorTime : Option Binary64}
    (configRange : config.InRange decay rate) (salesRange : ∀ sale ∈ sales, sale.InRange)
    (isSale : last ∈ sales)
    (since : sales.length = 1 ∧ priorTime = config.openTime ∨
      2 ≤ sales.length ∧ ∃ previous ∈ sales, priorTime = some previous.time) (index : Int)
    (now : Binary64) :
    PremiumInRange
      (Epoch.afterSale index last.price last.time config.k config.accrual
        (accrualInterval last.time priorTime) now).premiumRate
      (rate = some 0 ∧ HasInterval config sales) := by
  unfold Epoch.afterSale
  dsimp only
  rcases configRange.accrual with ⟨unrated, unknown⟩ | ⟨number, accrual, rated, known, isAmount⟩
  · rw [unknown]
    refine premiumInRange_none ?_
    rintro ⟨contrary, _⟩
    rw [unrated] at contrary
    cases contrary
  · rw [known]
    rcases accrualInterval_cases configRange salesRange isSale since with
      ⟨absent, lasts⟩ | ⟨interval, found, has, within⟩
    · rw [absent]
      exact premiumInRange_none fun vanishes => lasts vanishes.2
    · rw [found]
      refine premiumInRange_mul isAmount within ?_
      rw [rated, Option.some.injEq]
      exact ⟨fun vanishes => vanishes.1, fun none_ => ⟨none_, has⟩⟩

theorem inRange_of_genesisEpoch {now : Binary64} (configRange : config.InRange decay rate)
    (decays : isZero config.k = true ∨ Within 954 1330 config.k)
    (live : config.genesisEpoch now = some epoch) :
    epoch.InRange ∧ epoch.nowTime = now ∧ (epoch.definesCurve = true ↔ decay ≠ 0) := by
  obtain ⟨openTime, price, floor, opens, priced, floored, usable, rfl⟩ := genesisEpoch_cases live
  have floorUpTo := configRange.genesisFloor floor floored
  have priceUpTo := configRange.genesisPrice price priced
  have premiumUpTo : UpTo 1586 (price - floor) := by
    have upper := (sub_upper (priceUpTo.isFinite (by decide)) priceUpTo.upper
      (floorUpTo.isFinite (by decide)) floorUpTo.nonneg (by decide)).2
    exact UpTo.mono ⟨nonneg_of_position_pos (pos_of_isUsable usable), upper⟩ (by decide)
  refine ⟨⟨floorUpTo, configRange.openTime openTime opens, decays, ?_⟩, rfl, ?_⟩
  · intro premium known
    cases known
    exact premiumUpTo
  · refine (definesCurve_iff floorUpTo configRange.decay).trans (and_iff_left ?_)
    intro premium known
    cases known
    exact usable

/-- The live epoch of an auction of ordinary size is in range, and defines a curve unless there is
no decay or no premium over an interval. -/
theorem inRange_of_liveEpoch {now : Binary64} (configRange : config.InRange decay rate)
    (salesRange : ∀ sale ∈ sales, sale.InRange) (live : liveEpoch config sales now = some epoch) :
    epoch.InRange ∧ epoch.nowTime = now ∧
      (epoch.definesCurve = true ↔ ¬ Unpriceable config decay rate sales) := by
  have decays : isZero config.k = true ∨ Within 954 1330 config.k := by
    by_cases none_ : decay = 0
    · exact .inl (configRange.decay.zero none_)
    · exact .inr (configRange.decay.within none_)
  unfold Unpriceable
  rw [not_or]
  rcases liveEpoch_cases config sales now with
    ⟨empty, genesis⟩ | ⟨last, isSale, prior, since, opened⟩
  · rw [genesis] at live
    obtain ⟨inRange, seen, defines_iff⟩ := inRange_of_genesisEpoch configRange decays live
    have none_ : ¬ (rate = some 0 ∧ HasInterval config sales) := by
      rintro ⟨_, several | single⟩
      · rw [empty] at several
        cases several
      · rw [empty] at single
        cases single.1
    exact ⟨inRange, seen, defines_iff.trans (and_iff_left none_).symm⟩
  · rw [opened] at live
    cases live
    have premium := premiumInRange_afterSale configRange salesRange isSale since
      (Epoch.genesisIndex + sales.length) now
    have sale := salesRange last isSale
    exact ⟨⟨sale.price, sale.time, decays, premium.upTo⟩, rfl,
      (definesCurve_iff sale.price configRange.decay).trans
        (and_congr_right fun _ => premium.usable)⟩

theorem genesisEpoch_eq_none_iff {now : Binary64} (configRange : config.InRange decay rate) :
    config.genesisEpoch now = none ↔ config.LacksGenesis := by
  constructor
  · intro dormant
    unfold Config.LacksGenesis
    cases opens : config.openTime with
    | none => exact .inl rfl
    | some openTime =>
      cases priced : config.genesisPrice with
      | none => exact .inr (.inl rfl)
      | some price =>
        cases floored : config.genesisFloor with
        | none => exact .inr (.inr (.inl rfl))
        | some floor =>
          refine .inr (.inr (.inr ⟨price, floor, rfl, rfl, ?_⟩))
          intro positive
          have usable := (usable_sub_iff (configRange.genesisPrice price priced)
            (configRange.genesisFloor floor floored)).2 positive
          simp [Config.genesisEpoch, Config.genesisPremium, genesisPremium, opens, priced,
            floored, usable] at dormant
  · intro lacks
    rw [← Option.not_isSome_iff_eq_none, Option.isSome_iff_exists]
    rintro ⟨epoch, live⟩
    obtain ⟨openTime, price, floor, opens, priced, floored, usable, _⟩ := genesisEpoch_cases live
    rcases lacks with unopened | unpriced | unfloored | ⟨price', floor', priced', floored', low⟩
    · rw [opens] at unopened
      cases unopened
    · rw [priced] at unpriced
      cases unpriced
    · rw [floored] at unfloored
      cases unfloored
    · rw [priced] at priced'
      rw [floored] at floored'
      cases priced'
      cases floored'
      exact low ((usable_sub_iff (configRange.genesisPrice price priced)
        (configRange.genesisFloor floor floored)).1 usable)

/-- There is no live epoch exactly if there is no sale and no genesis epoch. -/
theorem liveEpoch_eq_none_iff {now : Binary64} (configRange : config.InRange decay rate) :
    liveEpoch config sales now = none ↔ sales = [] ∧ config.LacksGenesis := by
  rcases liveEpoch_cases config sales now with ⟨empty, genesis⟩ | ⟨last, isSale, _, _, opened⟩
  · rw [genesis, genesisEpoch_eq_none_iff configRange]
    exact (and_iff_right empty).symm
  · rw [opened]
    refine ⟨(fun contrary => nomatch contrary), ?_⟩
    rintro ⟨empty, _⟩
    rw [empty] at isSale
    cases isSale

/-! ## From raw values -/

variable {entries : List (String × Raw)} {decimals : Nat}

theorem given_cases {key : String} {result : Option Binary64} (few : decimals ≤ 36)
    (small : ∀ number, givenInteger? entries key = some number → number < 2 ^ 256)
    (mapped : (givenValue? entries key).mapM (Amount.toHuman · decimals) = .ok result) :
    givenInteger? entries key = none ∧ result = none ∨
      ∃ number human, givenInteger? entries key = some number ∧ result = some human ∧
        IsAmount number human := by
  unfold givenInteger? at small ⊢
  rcases Outcome.option_mapM_cases mapped with
    ⟨absent, none_⟩ | ⟨raw, human, given, returned, known⟩
  · rw [absent]
    exact .inl ⟨rfl, none_⟩
  · obtain ⟨number, decoded⟩ := Amount.decode_of_toHuman returned
    have isInteger : (givenValue? entries key).bind Raw.integer? = some number := by
      rw [given]
      exact Raw.integer?_eq_some decoded
    exact .inr ⟨number, human, isInteger, known, isAmount_of_toHuman returned decoded
      (small number isInteger) few⟩

theorem given_upTo {key : String} {result : Option Binary64} (few : decimals ≤ 36)
    (small : ∀ number, givenInteger? entries key = some number → number < 2 ^ 256)
    (mapped : (givenValue? entries key).mapM (Amount.toHuman · decimals) = .ok result) :
    ∀ value, result = some value → UpTo 1330 value := by
  intro value known
  rcases given_cases few small mapped with ⟨_, none_⟩ | ⟨_, human, _, some_, isAmount⟩
  · rw [none_] at known
    cases known
  · rw [some_] at known
    cases known
    exact isAmount.upTo

/-- A configuration that is read from integers below `2 ^ 256` is of ordinary size. -/
theorem inRange_of_ofEntries (few : decimals ≤ 36)
    (small : ∀ number ∈ Config.integers entries, number < 2 ^ 256)
    (read : Config.ofEntries entries decimals = .ok config) :
    ∃ decay, givenInteger? entries "k" = some decay ∧
      config.InRange decay (givenInteger? entries "pts") := by
  have ofKey {key : String} (isKey : key ∈ ["k", "pts", "genesis_price", "genesis_floor"])
      (number : Nat) (given : givenInteger? entries key = some number) : number < 2 ^ 256 :=
    small number (List.mem_append_left _ (List.mem_filterMap.2 ⟨key, isKey, given⟩))
  obtain ⟨⟨raw, given, returned⟩, accrues, priced, floored, opens⟩ := Config.ofEntries_cases read
  obtain ⟨decay, decoded⟩ := Amount.decode_of_toHuman returned
  have isDecay : givenInteger? entries "k" = some decay := by
    unfold givenInteger?
    rw [given]
    exact Raw.integer?_eq_some decoded
  refine ⟨decay, isDecay, ?_⟩
  constructor
  · exact isAmount_of_toHuman returned decoded (ofKey (by decide) decay isDecay) few
  · exact given_cases few (ofKey (by decide)) accrues
  · exact given_upTo few (ofKey (by decide)) priced
  · exact given_upTo few (ofKey (by decide)) floored
  · intro time known
    rcases Outcome.option_mapM_cases opens with ⟨_, none_⟩ | ⟨raw, seconds, given, timed, some_⟩
    · rw [none_] at known
      cases known
    · rw [some_] at known
      cases known
      refine upTo_of_toSeconds timed fun number decoded => small number ?_
      refine List.mem_append_right _ ?_
      rw [given, Option.mem_toList]
      exact Raw.integer?_eq_some decoded

theorem inRange_of_read {raw : RawSale} {sale : Sale Binary64} (few : decimals ≤ 36)
    (small : ∀ number ∈ raw.integers, number < 2 ^ 256)
    (read : raw.read decimals = .ok sale) : sale.InRange := by
  obtain ⟨timed, priced⟩ := Sale.ofRaw_cases read
  have isInteger {value : Raw} {number : Nat} (isValue : value ∈ [raw.time, raw.price])
      (decoded : Amount.decode value = .ok number) : number < 2 ^ 256 :=
    small number (List.mem_filterMap.2 ⟨value, isValue, Raw.integer?_eq_some decoded⟩)
  constructor
  · exact upTo_of_toSeconds timed fun number decoded => isInteger List.mem_cons_self decoded
  · obtain ⟨number, decoded⟩ := Amount.decode_of_toHuman priced
    have small_ := isInteger (List.mem_cons_of_mem _ List.mem_cons_self) decoded
    exact (isAmount_of_toHuman priced decoded small_ few).upTo

/-! ## What an evaluation comes to -/

theorem position_le_of_near {now : Binary64}
    (near : now.isFinite = false ∨ -ofNat (2 ^ 256) ≤ now ∧ now ≤ ofNat (2 ^ 256))
    (finite_ : now.isFinite = true) : now.position ≤ ((2 ^ 1330 : Nat) : Int) := by
  rcases near with infinite | ⟨_, below⟩
  · rw [infinite] at finite_
    cases finite_
  · have most : Within 1330 1330 (ofQuotient false (2 ^ 256) 1) :=
      @within_ofQuotient 1330 1330 (2 ^ 256) 1 256 256 0 0 (Nat.le_refl _) (Nat.le_refl _)
        (Nat.le_refl _) (Nat.le_refl _) (by decide) (by decide) (by decide) (by decide)
    exact Int.le_trans (le_iff.1 below).2.2 most.upper

/-- An evaluation in range returns, and its status says which of the parts are missing or zero. -/
theorem status_of_inRange {settings : Settings Binary64} (bounded : settings.IsBounded)
    (leastFinite : settings.leastHalfLives.isFinite = true)
    (fallbackFinite : settings.fallbackSeconds.isFinite = true)
    (configRange : config.InRange decay rate) (salesRange : ∀ sale ∈ sales, sale.InRange)
    (now : Binary64) :
    ∃ snapshot, Snapshot.ofAuction settings (some config) sales now none none = .ok snapshot ∧
      (snapshot.status = .noSales ↔ sales = [] ∧ config.LacksGenesis) ∧
      (¬ (sales = [] ∧ config.LacksGenesis) →
        (snapshot.status = .invalidConfig ↔ Unpriceable config decay rate sales) ∧
        (¬ Unpriceable config decay rate sales →
          now.isFinite = false ∨ -ofNat (2 ^ 256) ≤ now ∧ now ≤ ofNat (2 ^ 256) →
          snapshot.status = .success)) := by
  rw [← @liveEpoch_eq_none_iff _ _ _ sales now configRange]
  cases live : liveEpoch config sales now with
  | none =>
    refine ⟨_, ofAuction_of_no_liveEpoch live, ⟨fun _ => rfl, fun _ => rfl⟩, ?_⟩
    exact fun awake => absurd rfl awake
  | some epoch =>
    obtain ⟨inRange, seen, defines_iff⟩ := inRange_of_liveEpoch configRange salesRange live
    obtain ⟨snapshot, returned⟩ := @exists_snapshot_of_inRange epoch settings bounded inRange
    refine ⟨snapshot, by rw [ofAuction_of_liveEpoch live]; exact returned, ?_⟩
    obtain ⟨_, ⟨undefined, status, _⟩ | ⟨defines, _, status, _⟩⟩ :=
      Snapshot.ofEpoch_cases returned
    · have unpriceable : Unpriceable config decay rate sales := by
        by_contra priceable
        rw [defines_iff.2 priceable] at undefined
        cases undefined
      rw [status]
      refine ⟨⟨(fun contrary => nomatch contrary), (fun contrary => nomatch contrary)⟩, ?_⟩
      exact fun _ =>
        ⟨⟨fun _ => unpriceable, fun _ => rfl⟩, fun priceable => absurd unpriceable priceable⟩
    · have notNoSales : snapshot.status ≠ .noSales := by
        rw [status]
        split <;> exact CurveStatus.noConfusion
      have notInvalid : snapshot.status ≠ .invalidConfig := by
        rw [status]
        split <;> exact CurveStatus.noConfusion
      refine ⟨⟨fun contrary => absurd contrary notNoSales, (fun contrary => nomatch contrary)⟩, ?_⟩
      refine fun _ => ⟨⟨fun contrary => absurd contrary notInvalid, ?_⟩, ?_⟩
      · exact fun unpriceable => absurd unpriceable (defines_iff.1 defines)
      · intro _ near
        have elapsed : UpTo 1330 epoch.elapsed := by
          refine elapsed_upTo (by decide) (inRange.startTime.isFinite (by decide))
            inRange.startTime.nonneg ?_
          rw [seen]
          exact position_le_of_near near
        exact success_of_inRange bounded leastFinite fallbackFinite inRange defines elapsed returned

/-- Under accepted settings with a finite window, an auction that is read from integers below
`2 ^ 256` is evaluated at every moment, and the integers settle the status: no sales where there is
neither a sale nor a genesis epoch; else an invalid configuration where the decay is zero, or the
rate is zero and there is an interval; else success, at moments of at most `2 ^ 256` seconds and at
those that are not finite. -/
theorem onChain_status {sources : SettingsSources} {settings : Settings Binary64}
    (accepted : sources.settings = .ok settings)
    (leastFinite : settings.leastHalfLives.isFinite = true)
    (fallbackFinite : settings.fallbackSeconds.isFinite = true)
    (configRead : Config.ofRaw (.mapping entries) settings.tokenDecimals = .ok config)
    (configSmall : ∀ number ∈ Config.integers entries, number < 2 ^ 256)
    {raws : List RawSale} (salesRead : raws.mapM (RawSale.read settings.tokenDecimals) = .ok sales)
    (salesSmall : ∀ raw ∈ raws, ∀ number ∈ raw.integers, number < 2 ^ 256) (now : Binary64) :
    ∃ snapshot, Snapshot.ofAuction settings (some config) sales now none none = .ok snapshot ∧
      (snapshot.status = .noSales ↔ sales = [] ∧ config.LacksGenesis) ∧
      (¬ (sales = [] ∧ config.LacksGenesis) →
        (snapshot.status = .invalidConfig ↔
          givenInteger? entries "k" = some 0 ∨
            givenInteger? entries "pts" = some 0 ∧ HasInterval config sales) ∧
        (¬ (givenInteger? entries "k" = some 0 ∨
            givenInteger? entries "pts" = some 0 ∧ HasInterval config sales) →
          now.isFinite = false ∨ -ofNat (2 ^ 256) ≤ now ∧ now ≤ ofNat (2 ^ 256) →
          snapshot.status = .success)) := by
  have bounded := SettingsSources.isBounded_of_settings accepted
  obtain ⟨decay, isDecay, configRange⟩ :=
    inRange_of_ofEntries bounded.tokenDecimals configSmall configRead
  have salesRange : ∀ sale ∈ sales, sale.InRange := by
    intro sale isSale
    obtain ⟨raw, isRaw, read⟩ := Outcome.exists_of_mapM_ok salesRead sale isSale
    exact inRange_of_read bounded.tokenDecimals (salesSmall raw isRaw) read
  rw [isDecay, Option.some.injEq]
  exact status_of_inRange bounded leastFinite fallbackFinite configRange salesRange now

/-! ## An auction with two sales -/

/-- A configuration in which everything is known. -/
def resoldEntries : List (String × Raw) :=
  [("k", .int 1000000000000000000000), ("pts", .int 50000000000000000),
    ("genesis_price", .int 10000000000000000000), ("genesis_floor", .int 4000000000000000000),
    ("open_time", .int 1000)]

/-- A sale of which nothing but the time and the price arrives. -/
def RawSale.ofIntegers (time price : Nat) : RawSale where
  time := .int time
  price := .int price
  buyer := none
  tokenId := .null

theorem RawSale.read_ofIntegers (time price : Nat) (finite_ : (ofInt time).isFinite = true)
    (small : price < 2 ^ 256) :
    (ofIntegers time price).read 18 =
      .ok { time := ofInt time, price := ofQuotient false price (10 ^ 18) } := by
  unfold RawSale.read Sale.ofRaw ofIntegers
  dsimp only
  rw [Amount.toSeconds_eq (Amount.decode_int time) finite_, toHuman_int small]
  rfl

theorem RawSale.integers_ofIntegers (time price : Nat) :
    (ofIntegers time price).integers = [time, price] := by
  show [Raw.int time, Raw.int price].filterMap Raw.integer? = [time, price]
  rw [List.filterMap_cons_some (Raw.integer?_eq_some (Amount.decode_int time)),
    List.filterMap_cons_some (Raw.integer?_eq_some (Amount.decode_int price)), List.filterMap_nil]

/-- A second sale forty seconds after the first, seen after half a minute, under settings of which
two are given. -/
theorem onChain_status_resold :
    let sources : SettingsSources := {
      arguments := [("curve_steps", .int 7)]
      environment := [("Curve_U_Max_Default", "2.5")] }
    let settings : Settings Binary64 :=
      { Settings.standard with curveSteps := 7, leastHalfLives := ofQuotient false 5 2 }
    let raws : List RawSale :=
      [.ofIntegers 1060 9000000000000000000, .ofIntegers 1100 12000000000000000000]
    ∃ config sales snapshot, sources.settings = .ok settings ∧
      Config.ofRaw (.mapping resoldEntries) settings.tokenDecimals = .ok config ∧
      raws.mapM (RawSale.read settings.tokenDecimals) = .ok sales ∧ sales.length = 2 ∧
      config.accrual.isSome = true ∧ config.openTime.isSome = true ∧
      Snapshot.ofAuction settings (some config) sales (ofNat 1130) none none = .ok snapshot ∧
      snapshot.status = .success := by
  intro sources settings raws
  have accepted : sources.settings = .ok settings := by decide +kernel
  have configRead : Config.ofRaw (.mapping resoldEntries) settings.tokenDecimals = .ok {
      k := ofQuotient false 1000000000000000000000 (10 ^ 18)
      accrual := some (ofQuotient false 50000000000000000 (10 ^ 18))
      genesisPrice := some (ofQuotient false 10000000000000000000 (10 ^ 18))
      genesisFloor := some (ofQuotient false 4000000000000000000 (10 ^ 18))
      openTime := some (ofInt 1000) } :=
    Config.ofEntries_eq_ok rfl (toHuman_int (by decide))
      (Outcome.some_mapM_ok (toHuman_int (by decide)))
      (Outcome.some_mapM_ok (toHuman_int (by decide)))
      (Outcome.some_mapM_ok (toHuman_int (by decide)))
      (Outcome.some_mapM_ok (Amount.toSeconds_eq (Amount.decode_int 1000) (by decide +kernel)))
  have salesRead : raws.mapM (RawSale.read settings.tokenDecimals) = .ok [
      { time := ofInt 1060, price := ofQuotient false 9000000000000000000 (10 ^ 18) },
      { time := ofInt 1100, price := ofQuotient false 12000000000000000000 (10 ^ 18) }] := by
    have first := RawSale.read_ofIntegers 1060 9000000000000000000 (by decide +kernel) (by decide)
    have second := RawSale.read_ofIntegers 1100 12000000000000000000 (by decide +kernel) (by decide)
    show List.mapM (RawSale.read 18) _ = _
    rw [List.mapM_cons, first, Outcome.ok_do, List.mapM_cons, second]
    rfl
  have isDecay : givenInteger? resoldEntries "k" = some 1000000000000000000000 :=
    Raw.integer?_eq_some (Amount.decode_int _)
  have isRate : givenInteger? resoldEntries "pts" = some 50000000000000000 :=
    Raw.integer?_eq_some (Amount.decode_int _)
  have isPrice : givenInteger? resoldEntries "genesis_price" = some 10000000000000000000 :=
    Raw.integer?_eq_some (Amount.decode_int _)
  have isFloor : givenInteger? resoldEntries "genesis_floor" = some 4000000000000000000 :=
    Raw.integer?_eq_some (Amount.decode_int _)
  have isOpening : (givenOpenTime? resoldEntries).bind Raw.integer? = some 1000 :=
    Raw.integer?_eq_some (Amount.decode_int _)
  have configSmall : ∀ number ∈ Config.integers resoldEntries, number < 2 ^ 256 := by
    unfold Config.integers
    rw [List.filterMap_cons_some isDecay, List.filterMap_cons_some isRate,
      List.filterMap_cons_some isPrice, List.filterMap_cons_some isFloor, List.filterMap_nil,
      isOpening]
    decide
  have salesSmall : ∀ raw ∈ raws, ∀ number ∈ raw.integers, number < 2 ^ 256 := by
    simp only [raws, List.forall_mem_cons, RawSale.integers_ofIntegers]
    decide
  obtain ⟨snapshot, returned, _, settled⟩ := onChain_status accepted (by decide +kernel)
    (by decide +kernel) configRead configSmall salesRead salesSmall (ofNat 1130)
  refine ⟨_, _, snapshot, accepted, configRead, salesRead, rfl, rfl, rfl, returned,
    (settled ?_).2 ?_ (.inr (by decide +kernel))⟩
  · exact fun dormant => nomatch dormant.1
  · rw [isDecay, isRate]
    rintro (none_ | ⟨none_, _⟩)
    · cases none_
    · cases none_

end HyperbolicAuction
