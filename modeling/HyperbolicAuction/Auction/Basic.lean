import HyperbolicAuction.Amount.Decode
import HyperbolicAuction.Epoch

/-!
# Auctions

A configuration is what is fixed for the whole of an auction, in human units. All but the decay
constant may be unknown. Sales are compared by their time alone.

Each sale opens an epoch at its price. The premium of that epoch accrued since the sale before, or
since the opening of the auction for the first sale, and at least for one second.

Configurations and sales are read from raw values: prices and rates are raw amounts, times are plain
seconds. Entries are read in a fixed order, and the first that cannot be read is reported.
-/

namespace HyperbolicAuction

/-! ## Sales -/

/-- A settled sale. -/
structure Sale (α : Type) where
  time : α
  price : α
  buyer : Option String := none
  tokenId : Option Int := none
deriving DecidableEq

/-- Why a sale cannot be compared. -/
inductive SaleError where
  /-- The other value is of a type that is not that of sales. -/
  | incomparable (typeName : String)
deriving DecidableEq, Repr

/-- The kind of a cause. -/
def SaleError.kind : SaleError → ErrorKind
  | incomparable _ => .wrongType

/-- The text of a cause. -/
def SaleError.message : SaleError → String
  | incomparable typeName =>
    "'<' not supported between instances of 'Sale' and '" ++ typeName ++ "'"

namespace Sale

variable {α : Type} [Scalar α]

/-- Whether a sale came before another. -/
def isBefore (sale other : Sale α) : Bool := decide (sale.time < other.time)

/-- Sales in the order of their times. Sales of one time stay in the order they are given in. -/
def inOrder (sales : List (Sale α)) : List (Sale α) :=
  sales.mergeSort fun left right => !right.isBefore left

end Sale

/-! ## Configurations -/

/-- The parameters of an auction. -/
structure Config (α : Type) where
  /-- The decay constant. -/
  k : α
  /-- The premium that accrues per second between sales. -/
  accrual : Option α := none
  genesisPrice : Option α := none
  genesisFloor : Option α := none
  openTime : Option α := none
deriving DecidableEq

namespace Config

variable {α : Type} [Scalar α]

open Scalar

/-- The premium of the genesis epoch, if it is known and usable. -/
def genesisPremium (config : Config α) : Option α := do
  HyperbolicAuction.genesisPremium (← config.genesisPrice) (← config.genesisFloor)

/-- The epoch in force before any sale. -/
def genesisEpoch (config : Config α) (nowTime : α) : Option (Epoch α) := do
  let _ ← config.genesisPremium
  return .genesis (← config.genesisFloor) (← config.genesisPrice) config.k (← config.openTime)
    nowTime

/-- The ask that stands in before any sale where there is no genesis epoch: the floor and what has
accrued since the opening, at least for one second. -/
def baselineAsk (config : Config α) (nowTime : α) : Option α := do
  let accrual ← config.accrual
  let floor ← config.genesisFloor
  let openTime ← config.openTime
  if accrual ≤ 0 || !isFinite floor then none
  else return floor + accrual * larger 1 (nowTime - openTime)

end Config

/-! ## The live epoch -/

section History

variable {α : Type} [Scalar α]

open Scalar

/-- Seconds over which a premium accrued, from the sale before or the opening. -/
def accrualInterval (time : α) (priorTime : Option α) : Option α :=
  priorTime.map fun prior => larger 1 (time - prior)

/-- The epoch in force after some sales, given in any order; none before any sale where the
configuration has no genesis epoch. -/
def liveEpoch (config : Config α) (sales : List (Sale α)) (nowTime : α) : Option (Epoch α) :=
  match (Sale.inOrder sales).reverse with
  | [] => config.genesisEpoch nowTime
  | last :: earlier =>
    let priorTime := match earlier with
      | [] => config.openTime
      | previous :: _ => some previous.time
    some (.afterSale (Epoch.genesisIndex + sales.length) last.price last.time config.k
      config.accrual (accrualInterval last.time priorTime) nowTime)

end History

/-! ## Raw values -/

/-- The entry of a key, if there is one and it is not null. -/
def givenValue? (entries : List (String × Raw)) (key : String) : Option Raw :=
  (entries.lookup key).filter (!·.isNull)

/-- The entry for the opening time: that of the first key that is there, even if it is null. -/
def givenOpenTime? (entries : List (String × Raw)) : Option Raw :=
  ((entries.lookup "open_time").or (entries.lookup "open_time_sec")).filter (!·.isNull)

/-- A configuration from raw entries. -/
def Config.ofEntries (entries : List (String × Raw)) (decimals : Int) :
    Except AmountError (Config Binary64) := do
  let amount? (key : String) := (givenValue? entries key).mapM (Amount.toHuman · decimals)
  match ← amount? "k" with
  | none => throw .missingDecay
  | some k =>
    return {
      k
      accrual := ← amount? "pts"
      genesisPrice := ← amount? "genesis_price"
      genesisFloor := ← amount? "genesis_floor"
      openTime := ← (givenOpenTime? entries).mapM Amount.toSeconds }

/-- A configuration from a raw mapping. -/
def Config.ofRaw (data : Raw) (decimals : Int) : Except AmountError (Config Binary64) :=
  match data with
  | .mapping entries => Config.ofEntries entries decimals
  | value => .error (.notMapping value.typeName)

/-- A sale from raw values. -/
def Sale.ofRaw (time price : Raw) (decimals : Int) (buyer : Option String) (tokenId : Raw) :
    Except AmountError (Sale Binary64) := do
  let time ← Amount.toSeconds time
  let price ← Amount.toHuman price decimals
  let tokenId ← if tokenId.isNull then pure none else some <$> Amount.decode tokenId
  return { time, price, buyer, tokenId := tokenId.map Int.ofNat }

end HyperbolicAuction
