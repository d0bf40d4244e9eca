import HyperbolicAuction.Scalar

/-!
# Pricing epochs and their ask

An epoch runs from one sale to the next. It starts at its floor, the price of the sale that opened
it, and carries what the price curve above that floor depends on. The genesis epoch runs from the
opening of the auction to the first sale.

An epoch's ask decays along a hyperbola from `floor + premium` towards `floor`:

    ask(tau) = floor + k / (tau + k / premium)

The premium halves every `k / premium` seconds of half-life. An epoch without a premium follows the
limit curve `floor + k / tau`. In wall-clock time the curve is `floor + k / (time - anchor)`.

Divisors that may come near zero are held at `Scalar.epsilon`. What is left to fail is a half-life
that is itself equal to zero: the ask at the start then divides by it.
-/

namespace HyperbolicAuction

/-- One pricing epoch, seen at a moment. -/
structure Epoch (α : Type) where
  index : Int
  floor : α
  /-- The decay constant. -/
  k : α
  /-- The premium above the floor at the start, if one is known. -/
  premiumRate : Option α
  startTime : α
  nowTime : α
  isGenesis : Bool := false
deriving DecidableEq

/-- Which branch of the price curve an epoch follows. -/
inductive Regime where
  | genesis
  | steadyState
  | degenerate
deriving DecidableEq, Repr

/-- The name under which a regime is reported. -/
def Regime.name : Regime → String
  | .genesis => "genesis"
  | .steadyState => "steady_state"
  | .degenerate => "degenerate"

namespace Epoch

variable {α : Type}

/-- The number of the first epoch. -/
def genesisIndex : Int := 1

/-- The first epoch; its premium is the genesis price less the genesis floor. -/
def genesis [Sub α] (floor genesisPrice k startTime nowTime : α) : Epoch α where
  index := genesisIndex
  floor := floor
  k := k
  premiumRate := some (genesisPrice - floor)
  startTime := startTime
  nowTime := nowTime
  isGenesis := true

/-- The epoch that a sale opens. Its premium is what accrues per second times the seconds since the
sale before, and is unknown when either factor is. -/
def afterSale [Mul α] (index : Int) (price time k : α) (accrual interval : Option α)
    (nowTime : α) : Epoch α where
  index := index
  floor := price
  k := k
  premiumRate := do return (← accrual) * (← interval)
  startTime := time
  nowTime := nowTime

/-- The same epoch, seen at another moment. -/
def withNow (epoch : Epoch α) (nowTime : α) : Epoch α := { epoch with nowTime }

/-- An epoch without a premium is degenerate, the genesis epoch included. -/
def regime (epoch : Epoch α) : Regime :=
  if epoch.premiumRate.isNone then .degenerate
  else if epoch.isGenesis then .genesis
  else .steadyState

/-- Seconds since the start, none before it. An epoch that starts or is seen at no finite time has
not begun. -/
def elapsed [Scalar α] (epoch : Epoch α) : α :=
  if Scalar.isFinite epoch.nowTime && Scalar.isFinite epoch.startTime then
    Scalar.larger 0 (epoch.nowTime - epoch.startTime)
  else 0

end Epoch

/-! ## The ask -/

variable {α : Type} [Scalar α]

open Scalar

/-- Seconds in which the premium halves; none without a finite premium above zero. -/
def halfLife (k : α) (premiumRate : Option α) : Option α :=
  match premiumRate with
  | none => none
  | some premium => if isUsable premium then some (k / larger premium epsilon) else none

/-- The ask some seconds after the start of an epoch. -/
def ask (floor k : α) (premiumRate : Option α) (tau : α) : Except ArithmeticError α :=
  match premiumRate with
  | none => .ok (floor + k / larger tau epsilon)
  | some premium => do
    let above ← quotient k (larger tau 0 + k / larger premium epsilon)
    return floor + above

/-- The premium of the genesis epoch, if it is usable. -/
def genesisPremium (price floor : α) : Option α :=
  let premium := price - floor
  if isUsable premium then some premium else none

namespace Epoch

/-- Seconds in which the premium of an epoch halves. -/
def halfLife (epoch : Epoch α) : Option α :=
  HyperbolicAuction.halfLife epoch.k epoch.premiumRate

/-- The moment at which the curve, drawn backwards, would have no finite price. Without a finite
half-life that is the start. -/
def anchor (epoch : Epoch α) : α :=
  match epoch.halfLife with
  | none => epoch.startTime
  | some halfLife =>
    if isNumber halfLife && !isFinite halfLife then epoch.startTime
    else epoch.startTime - halfLife

/-- The ask some seconds after the start. -/
def askAfter (epoch : Epoch α) (tau : α) : Except ArithmeticError α :=
  ask epoch.floor epoch.k epoch.premiumRate tau

/-- The ask at a moment; before the start it is that of the start. -/
def askAt (epoch : Epoch α) (time : α) : Except ArithmeticError α :=
  epoch.askAfter (larger 0 (time - epoch.startTime))

/-- The ask at the moment the epoch is seen. -/
def askNow (epoch : Epoch α) : Except ArithmeticError α :=
  epoch.askAfter epoch.elapsed

end Epoch

end HyperbolicAuction
